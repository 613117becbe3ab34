import SceneDiagram.Diagnostic
import SceneDiagram.Token
import SceneDiagram.Section

/-!
# Reading sections from tokens

A reader goes through the tokens once, from left to right, and keeps the constructs that are still
open: the header, the property, and the arrays, dictionaries and calls around the place that it has
come to. Each token either moves the reader on or is refused; a refused token, or an end of the
input inside an open construct, is a syntax error that names what was expected and where the
innermost open construct begins.

Blanks, line ends and comments are passed over, with three exceptions: a bracket opens a call only
where it touches the word before it, the arguments of a typed call touch its bracket, and the marks
`&` and `^` touch their string.
-/

namespace SceneDiagram

open Text

/-- What a reader can be waiting for. -/
inductive Expectation where
  | string
  | value
  /-- A comma, or the mark that closes a list. -/
  | commaOr (close : Punct)
  | mark (mark : Punct)
  | sectionHeader
  | sectionTag
  | headerItem
deriving Repr, DecidableEq

/-- An expectation in words. -/
def Expectation.render : Expectation → String
  | string => "string"
  | value => "value"
  | commaOr close => "`,` or `" ++ close.char.toString ++ "`"
  | mark p => "`" ++ p.char.toString ++ "`"
  | sectionHeader => "section header"
  | sectionTag => "section tag"
  | headerItem => "`]` or header attribute"

/-- A refused token: what was expected in its place, and the first token of the innermost open
construct. -/
structure Refusal where
  expected : Expectation
  opened : Option Span
deriving Repr, DecidableEq

namespace SectionReader

/-! ## Open constructs -/

/-- An array whose bracket is open. -/
structure OpenArray where
  start : Span
  items : List Value
deriving Repr

/-- A dictionary whose brace is open. -/
structure OpenDict where
  start : Span
  entries : List (Value × Value)
deriving Repr

/-- The name of a call whose type stands between brackets, and the first of these. -/
structure OpenType where
  start : Span
  bracket : Span
  name : String
deriving Repr

/-- A call whose argument list is open. -/
structure OpenCall where
  start : Span
  /-- The name, with the bracket before the type if there is one. -/
  head : Span
  name : String
  typeParam : Option Value
  args : List Value
deriving Repr

/-- An open list of values, between the marks that enclose it. -/
inductive Group where
  | array (a : OpenArray)
  | dict (d : OpenDict)
  | call (c : OpenCall)
deriving Repr

namespace Group

/-- The first token of a group. -/
def start : Group → Span
  | array a => a.start
  | dict d => d.start
  | call c => c.start

/-- The mark that closes a group. -/
def closing : Group → Punct
  | array _ => .rightBracket
  | dict _ => .rightBrace
  | call _ => .rightParen

/-- The value that a group is once its closing mark is read. -/
def close (close : Span) : Group → Value
  | array a => .array (a.start.join close) a.items
  | dict d => .dict (d.start.join close) d.entries
  | call c => .call (c.head.join close) c.name c.typeParam c.args

end Group

/-- A construct that waits for a value. -/
inductive Frame where
  /-- A group that waits for an item, a key or an argument. -/
  | item (g : Group)
  /-- A dictionary that waits for the value of a key. -/
  | entry (d : OpenDict) (key : Value)
  /-- A call that waits for the second half of a pair. -/
  | pair (c : OpenCall) (key : Value)
  /-- A call that waits for the type between its brackets. -/
  | typeParam (t : OpenType)
deriving Repr

/-- The first token of the construct that waits. -/
def Frame.start : Frame → Span
  | item g => g.start
  | entry d _ => d.start
  | pair c _ => c.start
  | typeParam t => t.start

/-- A section header whose bracket is open. -/
structure OpenHeader where
  start : Span
  tag : PlacedWord
  attributes : List Property
deriving Repr

/-- A property whose value is being read: the header that it belongs to, or none for a property of
a body, and the constructs around the value, innermost first. -/
structure Slot where
  header : Option OpenHeader
  key : PlacedWord
  frames : List Frame
deriving Repr

namespace Slot

/-- The first token of the innermost open construct. -/
def start (s : Slot) : Span :=
  match s.frames with
  | [] => s.key.span
  | frame :: _ => frame.start

/-- The slot inside one more construct. -/
def push (s : Slot) (frame : Frame) : Slot :=
  { s with frames := frame :: s.frames }

end Slot

/-- The two spellings of a string with a mark before it. -/
inductive Prefixed where
  | stringName
  | nodePath
deriving Repr, DecidableEq

/-- The value of a string with a mark before it. -/
def Prefixed.value (span : Span) (contents : String) : Prefixed → Value
  | stringName => .stringName span contents
  | nodePath => .nodePath span contents

/-- How far a reader has come. -/
inductive Stage where
  /-- Between sections, or in the body of the last one. -/
  | outside
  /-- After the bracket that starts a header. -/
  | tag (start : Span)
  /-- Inside a header. -/
  | header (h : OpenHeader)
  /-- After the key of a property. -/
  | equals (header : Option OpenHeader) (key : PlacedWord)
  /-- Before a value. -/
  | value (slot : Slot)
  /-- After the mark of a prefixed string. -/
  | text (slot : Slot) (kind : Prefixed) (start : Span)
  /-- After a call argument, which may be the first half of a pair. -/
  | argument (slot : Slot) (c : OpenCall) (key : Value)
  /-- After an item of a group. -/
  | separator (slot : Slot) (g : Group)
  /-- After the key of a dictionary entry. -/
  | colon (slot : Slot) (d : OpenDict) (key : Value)
  /-- After the type in the brackets of a call. -/
  | closeType (slot : Slot) (t : OpenType) (typeParam : Value)
  /-- After the brackets of a typed call. -/
  | openArgs (slot : Slot) (t : OpenType) (typeParam : Value)
deriving Repr

end SectionReader

open SectionReader

/-- The state of a reader: the sections whose body has ended, the one whose body may go on, and how
far it has come. A bare word in the place of a value is kept apart until the next token shows
whether it is the name of a call. -/
structure SectionReader where
  done : List Section
  body : Option Section
  stage : Stage
  word : Option (Slot × PlacedWord)
deriving Repr

namespace SectionReader

/-- The reader before the first token. -/
def initial : SectionReader := ⟨[], none, .outside, none⟩

/-- The reader at another stage, with no word kept apart. -/
def moveTo (r : SectionReader) (stage : Stage) : SectionReader :=
  { r with stage, word := none }

/-- Adds a property to the body of the last section. -/
def addToBody (r : SectionReader) (p : Property) : SectionReader :=
  { r with body := r.body.map fun s => { s with properties := s.properties ++ [p] } }

/-- Gives a complete value to the construct that waits for it. -/
def receive (r : SectionReader) (slot : Slot) (v : Value) : SectionReader :=
  match slot.frames with
  | [] =>
    match slot.header with
    | some h => r.moveTo (.header { h with attributes := h.attributes ++ [⟨slot.key, v⟩] })
    | none => (r.addToBody ⟨slot.key, v⟩).moveTo .outside
  | frame :: frames =>
    let outer := { slot with frames }
    match frame with
    | .item (.array a) => r.moveTo (.separator outer (.array { a with items := a.items ++ [v] }))
    | .item (.dict d) => r.moveTo (.colon outer d v)
    | .item (.call c) => r.moveTo (.argument outer c v)
    | .entry d key =>
      r.moveTo (.separator outer (.dict { d with entries := d.entries ++ [(key, v)] }))
    | .pair c key =>
      let both := .pair (key.span.join v.span) key v
      r.moveTo (.separator outer (.call { c with args := c.args ++ [both] }))
    | .typeParam t => r.moveTo (.closeType outer t v)

/-- Takes the word that was kept apart as a value of its own. -/
def settle (r : SectionReader) : SectionReader :=
  match r.word with
  | none => r
  | some (slot, w) => r.receive slot (.word w.span w.text)

/-! ## One token -/

/-- A token between sections: the bracket of the next header, or the key of a property if there is
a section that can have it. -/
def stepOutside (r : SectionReader) (l : Lexeme) : Except Refusal SectionReader :=
  match l.token, r.body with
  | .punct .leftBracket, body =>
    .ok ⟨r.done ++ body.toList, none, .tag l.span, none⟩
  | .word w, some _ => .ok (r.moveTo (.equals none ⟨w, l.span⟩))
  | _, _ => .error ⟨.sectionHeader, none⟩

/-- A token inside a header: the key of an attribute, or the closing bracket. -/
def stepHeader (r : SectionReader) (h : OpenHeader) (l : Lexeme) : Except Refusal SectionReader :=
  match l.token with
  | .word w => .ok (r.moveTo (.equals (some h) ⟨w, l.span⟩))
  | .punct .rightBracket =>
    .ok ⟨r.done, some ⟨h.tag, h.attributes, [], h.start.join l.span⟩, .outside, none⟩
  | _ => .error ⟨.headerItem, some h.start⟩

/-- A token that has to start a value. -/
def stepValue (r : SectionReader) (slot : Slot) (l : Lexeme) : Except Refusal SectionReader :=
  match l.token with
  | .string s => .ok (r.receive slot (.string l.span s))
  | .number n => .ok (r.receive slot (.number l.span n))
  | .word w => .ok { r with word := some (slot, ⟨w, l.span⟩) }
  | .punct .ampersand => .ok (r.moveTo (.text slot .stringName l.span))
  | .punct .caret => .ok (r.moveTo (.text slot .nodePath l.span))
  | .punct .leftBracket => .ok (r.moveTo (.value (slot.push (.item (.array ⟨l.span, []⟩)))))
  | .punct .leftBrace => .ok (r.moveTo (.value (slot.push (.item (.dict ⟨l.span, []⟩)))))
  | _ => .error ⟨.value, some slot.start⟩

/-- A token before a value, or before the closing mark of a group. -/
def stepItem (r : SectionReader) (slot : Slot) (l : Lexeme) : Except Refusal SectionReader :=
  match slot.frames with
  | .item g :: frames =>
    if l.token = .punct g.closing then
      .ok (r.receive { slot with frames } (g.close l.span))
    else r.stepValue slot l
  | _ => r.stepValue slot l

/-- A token after an item of a group. -/
def stepSeparator (r : SectionReader) (slot : Slot) (g : Group) (l : Lexeme) :
    Except Refusal SectionReader :=
  if l.token = .punct g.closing then .ok (r.receive slot (g.close l.span))
  else if l.token = .punct .comma then .ok (r.moveTo (.value (slot.push (.item g))))
  else .error ⟨.commaOr g.closing, some g.start⟩

/-- A token that has to be a given mark. -/
def stepMark (r : SectionReader) (mark : Punct) (start : Span) (next : Stage) (l : Lexeme) :
    Except Refusal SectionReader :=
  if l.token = .punct mark then .ok (r.moveTo next) else .error ⟨.mark mark, some start⟩

/-- A token that is no trivia, when no word is kept apart. -/
def stepSettled (r : SectionReader) (l : Lexeme) : Except Refusal SectionReader :=
  match r.stage with
  | .outside => r.stepOutside l
  | .tag start =>
    match l.token with
    | .word w => .ok (r.moveTo (.header ⟨start, ⟨w, l.span⟩, []⟩))
    | _ => .error ⟨.sectionTag, some start⟩
  | .header h => r.stepHeader h l
  | .equals header key => r.stepMark .equals key.span (.value ⟨header, key, []⟩) l
  | .value slot => r.stepItem slot l
  | .text slot kind start =>
    match l.token with
    | .string s => .ok (r.receive slot (kind.value (start.join l.span) s))
    | _ => .error ⟨.string, some start⟩
  | .argument slot c key =>
    if l.token = .punct .colon then .ok (r.moveTo (.value (slot.push (.pair c key))))
    else r.stepSeparator slot (.call { c with args := c.args ++ [key] }) l
  | .separator slot g => r.stepSeparator slot g l
  | .colon slot d key => r.stepMark .colon d.start (.value (slot.push (.entry d key))) l
  | .closeType slot t param => r.stepMark .rightBracket t.start (.openArgs slot t param) l
  | .openArgs slot t param =>
    r.stepMark .leftParen t.start
      (.value (slot.push
        (.item (.call ⟨t.start, t.start.join t.bracket, t.name, some param, []⟩)))) l

/-- Whether the next token has to touch the last one. -/
def Stage.isTight : Stage → Bool
  | .text .. | .openArgs .. => true
  | _ => false

/-- Moves a reader over one token. -/
def step (r : SectionReader) (l : Lexeme) : Except Refusal SectionReader :=
  match r.word with
  | some (slot, w) =>
    if l.token = .punct .leftParen then
      .ok (r.moveTo (.value (slot.push (.item (.call ⟨w.span, w.span, w.text, none, []⟩)))))
    else if l.token = .punct .leftBracket then
      .ok (r.moveTo (.value (slot.push (.typeParam ⟨w.span, l.span, w.text⟩))))
    else if l.token.isTrivia then .ok r.settle
    else r.settle.stepSettled l
  | none =>
    if l.token.isTrivia && !r.stage.isTight then .ok r else r.stepSettled l

/-- Moves a reader over tokens, up to the first that it refuses. -/
def run : SectionReader → List Lexeme → Except (Refusal × List Lexeme) SectionReader
  | r, [] => .ok r
  | r, l :: ls =>
    match r.step l with
    | .ok next => next.run ls
    | .error refusal => .error (refusal, l :: ls)

/-- The sections that a reader has read, if no construct is open. -/
def finish (r : SectionReader) : Except Refusal (List Section) :=
  let r := r.settle
  match r.stage with
  | .outside => .ok (r.done ++ r.body.toList)
  | .tag start => .error ⟨.sectionTag, some start⟩
  | .header h => .error ⟨.headerItem, some h.start⟩
  | .equals _ key => .error ⟨.mark .equals, some key.span⟩
  | .value slot => .error ⟨.value, some slot.start⟩
  | .text _ _ start => .error ⟨.string, some start⟩
  | .argument _ c _ => .error ⟨.commaOr .rightParen, some c.start⟩
  | .separator _ g => .error ⟨.commaOr g.closing, some g.start⟩
  | .colon _ d _ => .error ⟨.mark .colon, some d.start⟩
  | .closeType _ t _ => .error ⟨.mark .rightBracket, some t.start⟩
  | .openArgs _ t _ => .error ⟨.mark .leftParen, some t.start⟩

end SectionReader

/-! ## All tokens -/

/-- Why tokens are no scene source: what was refused, the first token from there on that is no
trivia, and the span of the last token of all. -/
structure SyntaxError where
  refusal : Refusal
  found : Option Lexeme
  last : Span
deriving Repr, DecidableEq

/-- The finding for a syntax error. -/
def SyntaxError.diagnostic (e : SyntaxError) : Diagnostic :=
  let expected := "expected " ++ e.refusal.expected.render
  match e.found with
  | some l =>
    { severity := .error
      code := some .unexpectedToken
      message := "unexpected `" ++ l.token.render ++ "`"
      labels := ⟨true, l.span, expected⟩ ::
        ((e.refusal.opened.filter (· ≠ l.span)).map
          (⟨false, ·, "while parsing this"⟩)).toList
      help := none }
  | none =>
    { severity := .error
      code := some .incompleteInput
      message := "unexpected end of input"
      labels := [⟨true, (e.refusal.opened.map (·.join e.last)).getD e.last, expected⟩]
      help := some "the file ends before this construct is closed" }

/-- The sections that tokens make up. -/
def Section.ofLexemes (tokens : List Lexeme) : Except SyntaxError (List Section) :=
  let last := (tokens.getLast?.map (·.span)).getD .zero
  match SectionReader.initial.run tokens with
  | .error (refusal, rest) =>
    .error ⟨refusal, rest.find? (! ·.token.isTrivia), last⟩
  | .ok r =>
    match r.finish with
    | .ok sections => .ok sections
    | .error refusal => .error ⟨refusal, none, last⟩

/-! ## One value -/

/-- A reader where the value of a property is due and nothing else is open. -/
def SectionReader.beforeValue : SectionReader :=
  ⟨[], some ⟨⟨"", .zero⟩, [], [], .zero⟩, .value ⟨none, ⟨"", .zero⟩, []⟩, none⟩

/-- The value that tokens make up on their own, with no trivia around it. -/
def Value.ofLexemes? (tokens : List Lexeme) : Option Value :=
  if tokens.head?.any (·.token.isTrivia) || tokens.getLast?.any (·.token.isTrivia) then none
  else
    match SectionReader.beforeValue.run tokens with
    | .error _ => none
    | .ok r =>
      match r.finish with
      | .ok [⟨_, _, [p], _⟩] => some p.value
      | _ => none

end SceneDiagram
