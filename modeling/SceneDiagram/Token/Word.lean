import SceneDiagram.Text.Alphanumeric

/-!
# Bare words

A bare word is made of word characters, and of single colons between them, as in `0:0/0`. It starts
with a letter, a digit or an underscore.
-/

namespace SceneDiagram.Word

open Text

/-- The characters of bare words. -/
def isWordChar (c : Char) : Bool :=
  isAlphanumeric c || c == '_' || c == '/' || c == '.'

/-- The characters that a bare word can start with. -/
def isStart (c : Char) : Bool :=
  isAlphanumeric c || c == '_'

/-- Whether a text starts with a word character. -/
def startsWithWordChar : List Char → Bool
  | [] => false
  | c :: _ => isWordChar c

/-- Whether a text would carry on a word that ends where it starts. -/
def continues : List Char → Bool
  | [] => false
  | c :: cs => isWordChar c || (c == ':' && startsWithWordChar cs)

/-- The part of a text that carries on a word. -/
def continuation : List Char → List Char
  | [] => []
  | c :: cs => if continues (c :: cs) then c :: continuation cs else []

/-- A word takes a first part of the text, and what is left does not carry it on. -/
theorem continuation_append_rest (cs : List Char) :
    ∃ rest, continuation cs ++ rest = cs ∧ continues rest = false := by
  induction cs with
  | nil => exact ⟨[], rfl, rfl⟩
  | cons c cs ih =>
    obtain ⟨rest, happ, hstop⟩ := ih
    by_cases h : continues (c :: cs)
    · exact ⟨rest, by simp [continuation, h, happ], hstop⟩
    · exact ⟨c :: cs, by simp [continuation, h], by simpa using h⟩

end SceneDiagram.Word
