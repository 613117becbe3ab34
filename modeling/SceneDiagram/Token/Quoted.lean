import SceneDiagram.Text.Hexadecimal

/-!
# Quoted strings

The contents of a string stand between two quotes and may run over several lines. A backslash
starts an escape: one of nine letters and marks, or `u` and the four hexadecimal digits of a
character. Reading a body gives its contents, or says that the text ends before the closing quote,
or where the first escape goes wrong.
-/

namespace SceneDiagram.Quoted

open Text

/-- The character that a one-character escape stands for. -/
def simpleEscape? (c : Char) : Option Char :=
  if c = 'n' then some '\n'
  else if c = 'r' then some '\r'
  else if c = 't' then some '\t'
  else if c = 'b' then some '\x08'
  else if c = 'f' then some '\x0c'
  else if c = '\\' ∨ c = '/' ∨ c = '"' ∨ c = '\x27' then some c
  else none

/-- What stands after a backslash. -/
inductive Escape where
  /-- An escape for `c` that is `length` characters long. -/
  | char (c : Char) (length : Nat)
  /-- No escape; `length` characters were accepted before it went wrong. -/
  | invalid (length : Nat)
deriving Repr, DecidableEq

/-- Reads the escape after a backslash. The digits after `u` have to be there before the number
that they write is judged, so a missing digit goes wrong after the `u` and a bad number before. -/
def Escape.read : List Char → Escape
  | [] => .invalid 0
  | c :: cs =>
    if c = 'u' then
      match hexNumber? 0 4 cs with
      | none => .invalid 1
      | some n =>
        match charOfNat? n with
        | some c => .char c 5
        | none => .invalid 0
    else
      match simpleEscape? c with
      | some c => .char c 1
      | none => .invalid 0

/-- The result of reading the text after an opening quote. -/
inductive Body where
  /-- The contents, and the text that spells them. -/
  | closed (contents spelling : List Char)
  | unterminated
  /-- The text before a bad backslash, and the accepted characters after it. -/
  | invalidEscape (before accepted : List Char)
deriving Repr, DecidableEq

/-- Puts one more character before a body. -/
def Body.cons (c : Char) (spelling : List Char) : Body → Body
  | .closed contents spelled => .closed (c :: contents) (spelling ++ spelled)
  | .unterminated => .unterminated
  | .invalidEscape before accepted => .invalidEscape (spelling ++ before) accepted

/-- Reads the text after an opening quote. -/
def Body.read : List Char → Body
  | [] => .unterminated
  | c :: cs =>
    if c = '"' then .closed [] []
    else if c = '\\' then
      match Escape.read cs with
      | .char d n => (Body.read (cs.drop n)).cons d ('\\' :: cs.take n)
      | .invalid n => .invalidEscape [] (cs.take n)
    else (Body.read cs).cons c [c]
termination_by cs => cs.length
decreasing_by
  all_goals simp only [List.length_drop, List.length_cons]
  all_goals omega

end SceneDiagram.Quoted
