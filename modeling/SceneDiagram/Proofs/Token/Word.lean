import SceneDiagram.Token.Word

/-!
# Where a word ends

What follows the first character of a bare word is a row of word characters, some of them with a
colon before them (`Continuing`). Reading takes the longest such row
(`continuation_eq_iff`). A text that does not carry a word on starts with no word character, and
cutting it short does not change that.
-/

namespace SceneDiagram.Word

open Text

/-- Texts that carry a word on from the first character to the last. -/
inductive Continuing : List Char → Prop
  | nil : Continuing []
  | char {c : Char} {cs : List Char} : isWordChar c = true → Continuing cs → Continuing (c :: cs)
  | colon {c : Char} {cs : List Char} :
      isWordChar c = true → Continuing cs → Continuing (':' :: c :: cs)

variable {c : Char} {cs ds more rest : List Char}

theorem continues_cons_eq_false :
    continues (c :: cs) = false ↔
      isWordChar c = false ∧ (c = ':' → startsWithWordChar cs = false) := by
  simp only [continues, Bool.or_eq_false_iff, Bool.and_eq_false_imp, beq_iff_eq]

theorem isWordChar_head_of_continues_eq_false (h : continues cs = false) :
    ∀ c ∈ cs.head?, isWordChar c = false := by
  cases cs with
  | nil => simp
  | cons c cs => simpa using (continues_cons_eq_false.mp h).1

/-- A text that does not carry a word on still does not when it ends earlier. -/
theorem continues_eq_false_of_append (h : continues (cs ++ ds) = false) : continues cs = false := by
  cases cs with
  | nil => rfl
  | cons c cs =>
    rw [List.cons_append, continues_cons_eq_false] at h
    refine continues_cons_eq_false.mpr ⟨h.1, fun hc => ?_⟩
    cases cs with
    | nil => rfl
    | cons d cs => exact h.2 hc

namespace Continuing

theorem continues_append (h : Continuing cs) (hne : cs ≠ []) : continues (cs ++ rest) = true := by
  cases h with
  | nil => exact absurd rfl hne
  | char hc _ => simp [continues, hc]
  | colon hc _ => simp [continues, startsWithWordChar, hc]

theorem of_append (h : Continuing (cs ++ ds)) : Continuing ds := by
  induction cs with
  | nil => exact h
  | cons c cs ih =>
    apply ih
    rw [List.cons_append] at h
    generalize cs ++ ds = es at h
    cases h with
    | char _ hes => exact hes
    | colon hd hes => exact .char hd hes

/-- A non-empty end of a row carries the word on. -/
theorem continues_suffix (h : Continuing (cs ++ ds)) (hne : ds ≠ []) :
    continues (ds ++ rest) = true :=
  h.of_append.continues_append hne

theorem continuation_append (h : Continuing cs) (hrest : continues rest = false) :
    continuation (cs ++ rest) = cs := by
  induction h with
  | nil =>
    cases rest with
    | nil => rfl
    | cons c rest => simp [continuation, hrest]
  | char hc _ ih => simp [continuation, continues, hc, ih]
  | colon hc _ ih => simp [continuation, continues, startsWithWordChar, hc, ih]

end Continuing

/-- The longest row of characters that carry a word on is itself a row of such characters: where it
holds a colon, it holds the word character after the colon too. -/
theorem continuing_continuation (cs : List Char) : Continuing (continuation cs) := by
  induction cs with
  | nil => exact .nil
  | cons c cs ih =>
    by_cases hword : isWordChar c = true
    · have hc : continuation (c :: cs) = c :: continuation cs := by
        simp [continuation, continues, hword]
      exact hc ▸ .char hword ih
    · by_cases hcontinues : continues (c :: cs) = true
      · have hcolon : c = ':' ∧ startsWithWordChar cs = true := by
          simpa [continues, hword] using hcontinues
        obtain ⟨rfl, hstarts⟩ := hcolon
        cases cs with
        | nil => cases hstarts
        | cons d cs =>
          have hd : isWordChar d = true := hstarts
          have hrow : continuation (':' :: d :: cs) = ':' :: d :: continuation cs := by
            simp [continuation, continues, startsWithWordChar, hd]
          have htail : continuation (d :: cs) = d :: continuation cs := by
            simp [continuation, continues, hd]
          have hrest : Continuing ([d] ++ continuation cs) := by rwa [htail] at ih
          exact hrow ▸ .colon hd hrest.of_append
      · have hc : continuation (c :: cs) = [] := by simp [continuation, hcontinues]
        exact hc ▸ .nil

theorem continuation_eq_iff :
    continuation cs = more ↔
      ∃ rest, cs = more ++ rest ∧ Continuing more ∧ continues rest = false := by
  constructor
  · rintro rfl
    obtain ⟨rest, happ, hrest⟩ := continuation_append_rest cs
    exact ⟨rest, happ.symm, continuing_continuation cs, hrest⟩
  · rintro ⟨rest, rfl, hmore, hrest⟩
    exact hmore.continuation_append hrest

end SceneDiagram.Word
