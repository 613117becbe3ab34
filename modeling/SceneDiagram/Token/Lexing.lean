import SceneDiagram.Diagnostic
import SceneDiagram.Token
import SceneDiagram.Token.Numeral
import SceneDiagram.Token.Quoted
import SceneDiagram.Token.Word
import SceneDiagram.Text.Blank

/-!
# From text to tokens

A source falls into consecutive non-empty pieces. A piece is either the text of one token or a
stretch that gives none, with the fault found in it; reading goes on after the piece in both cases,
so that every fault of a source is found in one pass. `tokenize` gives the tokens if there is no
fault.
-/

namespace SceneDiagram

open Text

/-- What keeps a stretch of text from being a token. -/
inductive LexicalFault where
  | unterminatedString
  | unexpectedCharacter
  | invalidEscape
deriving Repr, DecidableEq

namespace LexicalFault

/-- The code of a fault. -/
def code : LexicalFault → Code
  | unterminatedString => .unterminatedString
  | unexpectedCharacter => .unexpectedCharacter
  | invalidEscape => .invalidEscape

/-- The hint that goes with a fault. -/
def help : LexicalFault → Option String
  | unterminatedString => some "add closing `\"`"
  | unexpectedCharacter => none
  | invalidEscape =>
    some ("valid escapes: `\\n`, `\\r`, `\\t`, `\\b`, `\\f`, `\\\\`, `\\/`, `\\\"`, `\\\x27`, " ++
      "`\\uXXXX`")

/-- The finding for a fault at a span. -/
def diagnostic (fault : LexicalFault) (span : Span) : Diagnostic where
  severity := .error
  code := some fault.code
  message := fault.code.description
  labels := [⟨true, span, fault.code.description⟩]
  help := fault.help

end LexicalFault

/-- A non-empty stretch of text and what was read from it: a token, or a fault with its span
counted from the start of the piece. -/
structure Piece where
  first : Char
  more : List Char
  outcome : Except (LexicalFault × Span) Token
deriving Repr

namespace Piece

/-- The characters of a piece. -/
def text (p : Piece) : List Char := p.first :: p.more

/-- The characters after the first one of the numeral that a text starts with. A numeral that runs
on into a word is none. -/
def numeralTail? (c : Char) (cs : List Char) : Option (List Char) :=
  match Numeral.after? (c :: cs) with
  | none => none
  | some rest => if Word.continues rest then none else some (cs.take (cs.length - rest.length))

/-- The piece that starts with a quote. A bad escape ends the piece after the character at which it
goes wrong, so a later quote may start another string. -/
def readString (cs : List Char) : Piece :=
  match Quoted.Body.read cs with
  | .closed contents spelling =>
    ⟨'"', spelling ++ ['"'], .ok (.string (String.ofList contents))⟩
  | .unterminated => ⟨'"', cs, .error (.unterminatedString, ⟨0, byteLength ('"' :: cs)⟩)⟩
  | .invalidEscape before accepted =>
    let start := byteLength ('"' :: before)
    let seen := before ++ '\\' :: accepted
    ⟨'"', cs.take (seen.length + 1),
      .error (.invalidEscape, ⟨start, start + byteLength ('\\' :: accepted)⟩)⟩

/-- The first piece of the text `c :: cs`. -/
def read (c : Char) (cs : List Char) : Piece :=
  if c = ';' then
    let comment := cs.takeWhile (· != '\n')
    ⟨c, comment, .ok (.comment (String.ofList comment))⟩
  else if c = '"' then readString cs
  else
    match numeralTail? c cs with
    | some digits => ⟨c, digits, .ok (.number (String.ofList (c :: digits)))⟩
    | none =>
      if Word.isStart c then
        let more := Word.continuation cs
        ⟨c, more, .ok (.word (String.ofList (c :: more)))⟩
      else
        match Punct.ofChar? c with
        | some mark => ⟨c, [], .ok (.punct mark)⟩
        | none =>
          if c = '\n' then ⟨c, [], .ok .newline⟩
          else if isBlank c then
            ⟨c, cs.takeWhile fun d => isBlank d && d != '\n', .ok .space⟩
          else ⟨c, [], .error (.unexpectedCharacter, ⟨0, 1⟩)⟩

/-- The pieces of a text. -/
def readAll : List Char → List Piece
  | [] => []
  | c :: cs =>
    let piece := read c cs
    piece :: readAll (cs.drop piece.more.length)
termination_by cs => cs.length
decreasing_by
  simp only [List.length_drop, List.length_cons]
  omega

/-- The tokens of consecutive pieces of which the first starts at an offset. -/
def lexemes : Nat → List Piece → List Lexeme
  | _, [] => []
  | offset, p :: ps =>
    let next := offset + byteLength p.text
    match p.outcome with
    | .ok token => ⟨token, ⟨offset, next⟩⟩ :: lexemes next ps
    | .error _ => lexemes next ps

/-- The findings in consecutive pieces of which the first starts at an offset. -/
def diagnostics : Nat → List Piece → List Diagnostic
  | _, [] => []
  | offset, p :: ps =>
    let next := offset + byteLength p.text
    match p.outcome with
    | .ok _ => diagnostics next ps
    | .error (fault, span) => fault.diagnostic (span.shift offset) :: diagnostics next ps

end Piece

/-- The tokens of a source, or every lexical fault in it. -/
def tokenize (source : String) : Except ParseError (List Lexeme) :=
  let pieces := Piece.readAll source.toList
  match Piece.diagnostics 0 pieces with
  | [] => .ok (Piece.lexemes 0 pieces)
  | faults => .error ⟨faults⟩

end SceneDiagram
