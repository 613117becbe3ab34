/-!
# Hexadecimal numbers

The numbers that escapes write in hexadecimal digits, and the characters that they stand for.
-/

namespace SceneDiagram.Text

/-- The value of a hexadecimal digit. -/
def hexDigit? (c : Char) : Option Nat :=
  if '0' ≤ c ∧ c ≤ '9' then some (c.toNat - 48)
  else if 'a' ≤ c ∧ c ≤ 'f' then some (c.toNat - 87)
  else if 'A' ≤ c ∧ c ≤ 'F' then some (c.toNat - 55)
  else none

/-- The number that the first `count` characters of a text write, after the digits of `before`. -/
def hexNumber? (before : Nat) : Nat → List Char → Option Nat
  | 0, _ => some before
  | _ + 1, [] => none
  | count + 1, c :: cs => (hexDigit? c).bind fun d => hexNumber? (16 * before + d) count cs

/-- The character with a given number. Numbers beyond the last character and those of surrogates
belong to none. -/
def charOfNat? (n : Nat) : Option Char :=
  if h : n.isValidChar then some (Char.ofNatAux n h) else none

end SceneDiagram.Text
