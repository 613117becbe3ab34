import SceneDiagram.Text.Span

/-!
# Values

A value of a scene property as it is written: strings in three spellings, numbers, bare words,
arrays, dictionaries and constructor calls. Every value keeps the span that it was read from;
`Value.unplaced` forgets the spans, so that two values can be compared by what they say.
-/

namespace SceneDiagram

open Text

/-- A value with its span. A pair stands only among the arguments of a call. -/
inductive Value where
  | string (span : Span) (contents : String)
  /-- An interned name, written `&"name"`. -/
  | stringName (span : Span) (contents : String)
  /-- A path between nodes, written `^"path"`. -/
  | nodePath (span : Span) (contents : String)
  /-- A number as written. -/
  | number (span : Span) (text : String)
  | word (span : Span) (text : String)
  /-- A call such as `Vector2(0, 1)`, with a type between brackets in `Array[int]([])`. -/
  | call (span : Span) (name : String) (typeParam : Option Value) (args : List Value)
  | array (span : Span) (items : List Value)
  | pair (span : Span) (key entry : Value)
  | dict (span : Span) (entries : List (Value × Value))
deriving Repr, Inhabited

namespace Value

/-- The stretch of source that a value was read from. -/
def span : Value → Span
  | string s _ | stringName s _ | nodePath s _ | number s _ | word s _ => s
  | call s _ _ _ | array s _ | pair s _ _ | dict s _ => s

/-- The contents of a string in any of its spellings. -/
def asString? : Value → Option String
  | string _ s | stringName _ s | nodePath _ s => some s
  | _ => none

/-- A value as the key of a look-up: the contents of a string, or a number as written. -/
def asKey? : Value → Option String
  | number _ n => some n
  | v => v.asString?

/-- The argument of a reference to an external resource. -/
def resourceId? : Value → Option Value
  | call _ "ExtResource" _ [id] => some id
  | _ => none

mutual

/-- The spelling of a value in one line. -/
def render : Value → String
  | string _ s => "\"" ++ s ++ "\""
  | stringName _ s => "&\"" ++ s ++ "\""
  | nodePath _ s => "^\"" ++ s ++ "\""
  | number _ n => n
  | word _ w => w
  | call _ name typeParam args =>
    name ++ renderTypeParam typeParam ++ "(" ++ renderItems args ++ ")"
  | array _ items => "[" ++ renderItems items ++ "]"
  | pair _ key entry => key.render ++ ": " ++ entry.render
  | dict _ entries => "\x7b" ++ renderEntries entries ++ " \x7d"

/-- The type between the brackets of a call. -/
def renderTypeParam : Option Value → String
  | none => ""
  | some v => "[" ++ v.render ++ "]"

/-- Items with commas between them. -/
def renderItems : List Value → String
  | [] => ""
  | [v] => v.render
  | v :: vs => v.render ++ ", " ++ renderItems vs

/-- Entries, each after a blank, with commas between them. -/
def renderEntries : List (Value × Value) → String
  | [] => ""
  | [(key, entry)] => " " ++ key.render ++ ": " ++ entry.render
  | (key, entry) :: entries =>
    " " ++ key.render ++ ": " ++ entry.render ++ "," ++ renderEntries entries

end

mutual

/-- A value without the places that it was read from. -/
def unplaced : Value → Value
  | string _ s => string .zero s
  | stringName _ s => stringName .zero s
  | nodePath _ s => nodePath .zero s
  | number _ n => number .zero n
  | word _ w => word .zero w
  | call _ name typeParam args =>
    call .zero name (unplacedTypeParam typeParam) (unplacedItems args)
  | array _ items => array .zero (unplacedItems items)
  | pair _ key entry => pair .zero key.unplaced entry.unplaced
  | dict _ entries => dict .zero (unplacedEntries entries)

/-- The type of a call without places. -/
def unplacedTypeParam : Option Value → Option Value
  | none => none
  | some v => some v.unplaced

/-- Items without places. -/
def unplacedItems : List Value → List Value
  | [] => []
  | v :: vs => v.unplaced :: unplacedItems vs

/-- Entries without places. -/
def unplacedEntries : List (Value × Value) → List (Value × Value)
  | [] => []
  | (key, entry) :: entries => (key.unplaced, entry.unplaced) :: unplacedEntries entries

end

end Value

end SceneDiagram
