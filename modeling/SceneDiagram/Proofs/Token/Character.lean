import Mathlib
import SceneDiagram.Token
import SceneDiagram.Token.Word
import SceneDiagram.Text.Blank

/-!
# Classes of characters

The character classes that decide which token starts at a character: ASCII letters and digits are
word characters; signs, quotes, punctuation marks and blanks are none.
-/

namespace SceneDiagram

open Text

namespace Text

variable {c : Char}

theorem inRanges_cons {low high n : Nat} {ranges : List (Nat × Nat)} (hlow : low ≤ n) :
    inRanges ((low, high) :: ranges) n = (decide (n ≤ high) || inRanges ranges n) := by
  rw [inRanges, if_neg (by omega)]
  by_cases h : n ≤ high <;> simp [h]

/-- The digits and letters of ASCII make up the first ranges of the table. -/
theorem isAlphanumeric_of_isAlphanum (h : c.isAlphanum = true) : isAlphanumeric c = true := by
  obtain ⟨ranges, hranges⟩ : ∃ ranges,
      alphanumericRanges = (0x30, 0x39) :: (0x41, 0x5A) :: (0x61, 0x7A) :: ranges := ⟨_, rfl⟩
  simp only [Char.isAlphanum, Char.isAlpha, Char.isUpper, Char.isLower, Char.isDigit,
    Bool.or_eq_true, Bool.and_eq_true, decide_eq_true_eq, ge_iff_le, UInt32.le_iff_toNat_le] at h
  change ((65 ≤ c.toNat ∧ c.toNat ≤ 90) ∨ (97 ≤ c.toNat ∧ c.toNat ≤ 122)) ∨
    (48 ≤ c.toNat ∧ c.toNat ≤ 57) at h
  rw [isAlphanumeric, hranges, inRanges_cons (by omega)]
  rcases h with (h | h) | h
  · rw [inRanges_cons (by omega)]
    simp [h.2]
  · rw [inRanges_cons (by omega), inRanges_cons (by omega)]
    simp [h.2]
  · simp [h.2]

/-- The code points with the property White_Space. -/
def blankCodes : List Nat :=
  [9, 10, 11, 12, 13, 0x20, 0x85, 0xA0, 0x1680, 0x2000, 0x2001, 0x2002, 0x2003, 0x2004, 0x2005,
    0x2006, 0x2007, 0x2008, 0x2009, 0x200A, 0x2028, 0x2029, 0x202F, 0x205F, 0x3000]

theorem mem_blankCodes (h : isBlank c = true) : c.toNat ∈ blankCodes := by
  simp only [isBlank, Bool.or_eq_true, Bool.and_eq_true, decide_eq_true_eq, beq_iff_eq] at h
  simp only [blankCodes, List.mem_cons, List.not_mem_nil, or_false]
  omega

theorem isAlphanumeric_of_isBlank (h : isBlank c = true) : isAlphanumeric c = false := by
  have hall : ∀ n ∈ blankCodes, inRanges alphanumericRanges n = false := by decide +kernel
  exact hall _ (mem_blankCodes h)

end Text

namespace Word

variable {c : Char}

theorem isWordChar_of_isDigit (h : c.isDigit = true) : isWordChar c = true := by
  simp [isWordChar, isAlphanumeric_of_isAlphanum (c := c) (by simp [Char.isAlphanum, h])]

theorem isWordChar_of_isAlpha (h : c.isAlpha = true) : isWordChar c = true := by
  simp [isWordChar, isAlphanumeric_of_isAlphanum (c := c) (by simp [Char.isAlphanum, h])]

theorem isWordChar_of_isStart (h : isStart c = true) : isWordChar c = true := by
  rw [isStart, Bool.or_eq_true] at h
  rcases h with h | h <;> simp [isWordChar, h]

theorem isWordChar_of_isBlank (h : isBlank c = true) : isWordChar c = false := by
  have hne : ∀ d, isBlank d = false → c ≠ d := by
    rintro d hd rfl
    rw [h] at hd
    cases hd
  simp [isWordChar, isAlphanumeric_of_isBlank h, hne '_' rfl, hne '/' rfl, hne '.' rfl]

end Word

end SceneDiagram
