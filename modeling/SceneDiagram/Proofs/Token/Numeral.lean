import SceneDiagram.Token.Lexing
import SceneDiagram.Proofs.Token.Character
import SceneDiagram.Proofs.Token.Word

/-!
# The spelling of numerals

`Numeral.Form` says what a numeral is without reading it: a decimal with its parts, an infinity or
no number at all. Reading finds such a spelling (`form_of_after?`), and if what follows the spelling
does not carry a word on, it finds no longer one (`after?_append`). So a numeral is read where one
stands by itself (`numeralTail?_eq_some_iff`), and at most one can stand there.
-/

namespace SceneDiagram

open Text Word

namespace Numeral

/-- A sign, or nothing. -/
inductive Sign : List Char → Prop
  | none : Sign []
  | plus : Sign ['+']
  | minus : Sign ['-']

/-- A non-empty run of digits. -/
def Digits (ds : List Char) : Prop := ds ≠ [] ∧ ∀ d ∈ ds, d.isDigit = true

/-- A point with the digits after it, or nothing. -/
inductive Fraction : List Char → Prop
  | none : Fraction []
  | some {ds : List Char} : (∀ d ∈ ds, d.isDigit = true) → Fraction ('.' :: ds)

/-- The part of a decimal before its exponent, with a digit before or after the point. -/
inductive Mantissa : List Char → Prop
  | whole {ds fs : List Char} : Digits ds → Fraction fs → Mantissa (ds ++ fs)
  | point {ds : List Char} : Digits ds → Mantissa ('.' :: ds)

/-- An exponent, or nothing. -/
inductive Exponent : List Char → Prop
  | none : Exponent []
  | some {mark : Char} {sign ds : List Char} :
      mark = 'e' ∨ mark = 'E' → Sign sign → Digits ds → Exponent (mark :: (sign ++ ds))

/-- A word in any case. -/
def Letters (ls cs : List Char) : Prop := cs.map Char.toLower = ls

/-- The spellings of numerals. -/
inductive Form : List Char → Prop
  | decimal {sign ms es : List Char} :
      Sign sign → Mantissa ms → Exponent es → Form (sign ++ (ms ++ es))
  | infinity {sign ls : List Char} :
      Sign sign → Letters ['i', 'n', 'f'] ls ∨ Letters ['i', 'n', 'f', 'i', 'n', 'i', 't', 'y'] ls →
      Form (sign ++ ls)
  | nan {ls : List Char} : Letters ['n', 'a', 'n'] ls → Form ls

variable {c : Char} {cs ds es fs ls ms n rest sign : List Char}

/-! ## The characters of numerals -/

theorem isAlpha_of_toLower (h : c.toLower.isAlpha = true) : c.isAlpha = true := by
  unfold Char.toLower at h
  split at h
  · rename_i hupper
    have hc : c.isUpper = true := by simpa [Char.isUpper] using hupper
    simp [Char.isAlpha, hc]
  · exact h

theorem Letters.isWordChar (h : Letters ls cs) (hls : ls.all Char.isAlpha = true) :
    ∀ c ∈ cs, isWordChar c = true := by
  intro c hc
  have hlower : c.toLower ∈ ls := h ▸ List.mem_map_of_mem hc
  exact isWordChar_of_isAlpha (isAlpha_of_toLower (List.all_eq_true.mp hls _ hlower))

theorem Sign.eq_plus_or_minus (h : Sign sign) : ∀ c ∈ sign, c = '+' ∨ c = '-' := by
  cases h <;> simp

theorem Digits.isWordChar (h : Digits ds) : ∀ c ∈ ds, isWordChar c = true :=
  fun c hc => isWordChar_of_isDigit (h.2 c hc)

theorem Fraction.isWordChar (h : Fraction fs) : ∀ c ∈ fs, isWordChar c = true := by
  cases h with
  | none => simp
  | some hds =>
    intro c hc
    rcases List.mem_cons.mp hc with rfl | hc
    · rfl
    · exact isWordChar_of_isDigit (hds c hc)

theorem Mantissa.isWordChar (h : Mantissa ms) : ∀ c ∈ ms, isWordChar c = true := by
  cases h with
  | whole hds hfs =>
    intro c hc
    exact (List.mem_append.mp hc).elim (hds.isWordChar c) (hfs.isWordChar c)
  | point hds => exact (Fraction.some hds.2).isWordChar

theorem Mantissa.ne_nil (h : Mantissa ms) : ms ≠ [] := by
  cases h with
  | whole hds _ => simp [hds.1]
  | point _ => simp

theorem Form.ne_nil (h : Form n) : n ≠ [] := by
  cases h with
  | decimal _ hms _ => simp [hms.ne_nil]
  | infinity _ hls =>
    rintro hnil
    obtain ⟨-, rfl⟩ := List.append_eq_nil_iff.mp hnil
    rcases hls with hls | hls <;> cases hls
  | nan hls =>
    rintro rfl
    cases hls

/-- A numeral has no other than word characters and signs. -/
theorem Form.isWordChar_or_sign (h : Form n) :
    ∀ c ∈ n, isWordChar c = true ∨ c = '+' ∨ c = '-' := by
  intro c hc
  cases h with
  | decimal hsign hms hes =>
    rcases List.mem_append.mp hc with hc | hc
    · exact .inr (hsign.eq_plus_or_minus c hc)
    rcases List.mem_append.mp hc with hc | hc
    · exact .inl (hms.isWordChar c hc)
    cases hes with
    | none => cases hc
    | some hmark hsign hds =>
      rcases List.mem_cons.mp hc with rfl | hc
      · rcases hmark with rfl | rfl <;> exact .inl rfl
      rcases List.mem_append.mp hc with hc | hc
      · exact .inr (hsign.eq_plus_or_minus c hc)
      · exact .inl (hds.isWordChar c hc)
  | infinity hsign hls =>
    rcases List.mem_append.mp hc with hc | hc
    · exact .inr (hsign.eq_plus_or_minus c hc)
    · exact .inl (hls.elim (·.isWordChar rfl c hc) (·.isWordChar rfl c hc))
  | nan hls => exact .inl (hls.isWordChar rfl c hc)

/-- A run ends before the first character that is not of its kind. -/
theorem dropWhile_append_of_head {p : Char → Bool} (hds : ∀ d ∈ ds, p d = true)
    (hrest : ∀ c ∈ rest.head?, p c = false) : (ds ++ rest).dropWhile p = rest := by
  rw [List.dropWhile_append_of_pos hds]
  cases rest with
  | nil => rfl
  | cons c rest => simp [hrest c rfl]

theorem dropWhile_eq_nil_of_isWordChar (h : ∀ c ∈ cs, isWordChar c = true) :
    cs.dropWhile isWordChar = [] := by
  have hdrop : (cs ++ []).dropWhile isWordChar = [] := dropWhile_append_of_head h (by simp)
  rwa [List.append_nil] at hdrop

theorem dropWhile_isWordChar_of_sign (hsign : Sign sign) (hcs : ∀ c ∈ cs, isWordChar c = true) :
    (sign ++ cs).dropWhile isWordChar = [] ∨ (sign ++ cs).dropWhile isWordChar = sign ++ cs := by
  cases hsign with
  | none => exact .inl (dropWhile_eq_nil_of_isWordChar hcs)
  | plus => exact .inr rfl
  | minus => exact .inr rfl

/-- What follows the word characters at the front of a numeral is nothing or again a numeral: the
signed digits of an exponent, or all of it. -/
theorem Form.dropWhile_isWordChar (h : Form n) :
    n.dropWhile isWordChar = [] ∨ Form (n.dropWhile isWordChar) := by
  cases h with
  | @decimal sign ms es hsign hms hes =>
    cases hsign with
    | plus => exact .inr (.decimal .plus hms hes)
    | minus => exact .inr (.decimal .minus hms hes)
    | none =>
      rw [List.nil_append, List.dropWhile_append_of_pos hms.isWordChar]
      cases hes with
      | none => exact .inl rfl
      | @some mark sign ds hmark hsign hds =>
        have hdrop : (mark :: (sign ++ ds)).dropWhile isWordChar =
            (sign ++ ds).dropWhile isWordChar := by
          rcases hmark with rfl | rfl <;> rfl
        rw [hdrop]
        rcases dropWhile_isWordChar_of_sign hsign hds.isWordChar with hnil | hall
        · exact .inl hnil
        · rw [hall]
          have hwhole : Mantissa (ds ++ []) := .whole hds .none
          exact .inr (by simpa using Form.decimal hsign hwhole .none)
  | infinity hsign hls =>
    have hall := hls.elim (·.isWordChar rfl) (·.isWordChar rfl)
    rcases dropWhile_isWordChar_of_sign hsign hall with hnil | heq
    · exact .inl hnil
    · rw [heq]
      exact .inr (.infinity hsign hls)
  | nan hls => exact .inl (dropWhile_eq_nil_of_isWordChar (hls.isWordChar rfl))

/-! ## Every numeral is read -/

theorem isDigit_of_isWordChar_eq_false (h : isWordChar c = false) : c.isDigit = false := by
  cases hc : c.isDigit with
  | false => rfl
  | true =>
    rw [isWordChar_of_isDigit hc] at h
    cases h

theorem afterDigits?_append (hds : Digits ds) (hrest : ∀ c ∈ rest.head?, c.isDigit = false) :
    afterDigits? (ds ++ rest) = some rest := by
  obtain ⟨d, ds', rfl⟩ := List.exists_cons_of_ne_nil hds.1
  have hdrop : (ds' ++ rest).dropWhile Char.isDigit = rest :=
    dropWhile_append_of_head (fun c hc => hds.2 c (by simp [hc])) hrest
  simp [afterDigits?, hds.2 d (by simp), hdrop]

theorem afterSign_append (hsign : Sign sign) (hcs : ∀ c ∈ cs.head?, c ≠ '+' ∧ c ≠ '-') :
    afterSign (sign ++ cs) = cs := by
  cases hsign with
  | none =>
    cases cs with
    | nil => rfl
    | cons c cs => simp [afterSign, hcs c rfl]
  | plus => rfl
  | minus => rfl

theorem afterFraction_append (hfs : Fraction fs)
    (hrest : ∀ c ∈ rest.head?, c.isDigit = false ∧ c ≠ '.') : afterFraction (fs ++ rest) = rest := by
  cases hfs with
  | none =>
    cases rest with
    | nil => rfl
    | cons c rest => simp [afterFraction, (hrest c rfl).2]
  | some hds =>
    have hdrop := dropWhile_append_of_head hds fun c hc => (hrest c hc).1
    simp [afterFraction, hdrop]

variable (hrest : ∀ c ∈ rest.head?, isWordChar c = false)
include hrest

theorem afterExponent?_append (hes : Exponent es) : afterExponent? (es ++ rest) = some rest := by
  cases hes with
  | none =>
    cases rest with
    | nil => rfl
    | cons c rest =>
      have hmark : ¬ (c = 'e' ∨ c = 'E') := by
        rintro (rfl | rfl) <;> cases hrest _ rfl
      simp [afterExponent?, hmark]
  | @some mark sign ds hmark hsign hds =>
    have hdigits := afterDigits?_append hds fun c hc => isDigit_of_isWordChar_eq_false (hrest c hc)
    have hsigned : afterSign (sign ++ (ds ++ rest)) = ds ++ rest := by
      apply afterSign_append hsign
      obtain ⟨d, ds', rfl⟩ := List.exists_cons_of_ne_nil hds.1
      intro c hc
      obtain rfl : d = c := by simpa using hc
      have hd := hds.2 d (by simp)
      constructor <;> rintro rfl <;> cases hd
    simp [afterExponent?, hmark, hsigned, hdigits]

theorem afterDecimal?_append (hms : Mantissa ms) (hes : Exponent es) :
    afterDecimal? (ms ++ (es ++ rest)) = some rest := by
  have hexponent := afterExponent?_append hrest hes
  have hbeyond : ∀ c ∈ (es ++ rest).head?, c.isDigit = false ∧ c ≠ '.' := by
    intro c hc
    cases hes with
    | none =>
      refine ⟨isDigit_of_isWordChar_eq_false (hrest c hc), ?_⟩
      rintro rfl
      cases hrest _ hc
    | some hmark _ _ =>
      simp only [List.cons_append, List.head?_cons, Option.mem_def, Option.some.injEq] at hc
      subst hc
      rcases hmark with rfl | rfl <;> exact ⟨rfl, by decide⟩
  cases hms with
  | @whole ds fs hds hfs =>
    have hdigits : afterDigits? (ds ++ (fs ++ (es ++ rest))) = some (fs ++ (es ++ rest)) := by
      apply afterDigits?_append hds
      cases hfs with
      | none => exact fun c hc => (hbeyond c hc).1
      | some _ => simp
    obtain ⟨d, ds', rfl⟩ := List.exists_cons_of_ne_nil hds.1
    have hd : d ≠ '.' := by
      rintro rfl
      cases hds.2 _ (List.mem_cons_self ..)
    simp only [List.cons_append] at hdigits
    simp [afterDecimal?, hd, hdigits, afterFraction_append hfs hbeyond, hexponent]
  | point hds =>
    have hdigits := afterDigits?_append hds fun c hc => (hbeyond c hc).1
    simp [afterDecimal?, hdigits, hexponent]

omit hrest

/-! ### Numerals that are words -/

theorem Letters.exists_cons {l : Char} (h : Letters (l :: ls) cs) :
    ∃ c cs', cs = c :: cs' ∧ c.toLower = l ∧ Letters ls cs' := by
  obtain ⟨c, cs', rfl, hc, hcs⟩ := List.map_eq_cons_iff.mp h
  exact ⟨c, cs', rfl, hc, hcs⟩

theorem Letters.exists_append {ls' : List Char} (h : Letters (ls ++ ls') cs) :
    ∃ ds es, cs = ds ++ es ∧ Letters ls ds ∧ Letters ls' es :=
  List.map_eq_append_iff.mp h

theorem afterLetters?_append (h : Letters ls cs) : afterLetters? ls (cs ++ rest) = some rest := by
  induction ls generalizing cs with
  | nil =>
    obtain rfl := List.map_eq_nil_iff.mp h
    rfl
  | cons l ls ih =>
    obtain ⟨c, cs, rfl, rfl, hcs⟩ := h.exists_cons
    simp [afterLetters?, ih hcs]

theorem afterLetters?_eq_none {l : Char} (hcs : ∀ c ∈ cs.head?, c.toLower ≠ l) :
    afterLetters? (l :: ls) cs = none := by
  cases cs with
  | nil => rfl
  | cons c cs => simp [afterLetters?, hcs c rfl]

theorem afterDecimal?_eq_none (hdigit : c.isDigit = false) (hpoint : c ≠ '.') :
    afterDecimal? (c :: cs) = none := by
  simp [afterDecimal?, afterDigits?, hdigit, hpoint]

/-- No decimal starts with a letter, and no sign is one. -/
theorem letter_facts {l : Char} (h : c.toLower = l) (hl : l.isAlpha = true) :
    c.isDigit = false ∧ c ≠ '.' ∧ c ≠ '+' ∧ c ≠ '-' := by
  have halpha : c.isAlpha = true := isAlpha_of_toLower (h ▸ hl)
  refine ⟨?_, ?_, ?_, ?_⟩
  · cases hc : c.isDigit with
    | false => rfl
    | true =>
      simp only [Char.isAlpha, Char.isUpper, Char.isLower, Char.isDigit, Bool.or_eq_true,
        Bool.and_eq_true, decide_eq_true_eq, ge_iff_le, UInt32.le_iff_toNat_le] at halpha hc
      change (65 ≤ c.toNat ∧ c.toNat ≤ 90) ∨ (97 ≤ c.toNat ∧ c.toNat ≤ 122) at halpha
      change 48 ≤ c.toNat ∧ c.toNat ≤ 57 at hc
      omega
  all_goals
    rintro rfl
    cases halpha

include hrest

theorem afterInfinity?_append
    (h : Letters ['i', 'n', 'f'] ls ∨ Letters ['i', 'n', 'f', 'i', 'n', 'i', 't', 'y'] ls) :
    afterInfinity? (ls ++ rest) = some rest := by
  rcases h with hshort | hlong
  · have hstop : afterLetters? ['i', 'n', 'i', 't', 'y'] rest = none := by
      apply afterLetters?_eq_none
      intro c hc hlower
      have hword := isWordChar_of_isAlpha (isAlpha_of_toLower (c := c) (by rw [hlower]; rfl))
      rw [hrest c hc] at hword
      cases hword
    simp [afterInfinity?, afterLetters?_append hshort, hstop]
  · have hparts : Letters (['i', 'n', 'f'] ++ ['i', 'n', 'i', 't', 'y']) ls := hlong
    obtain ⟨short, long, rfl, hshort, hlong⟩ := hparts.exists_append
    simp [afterInfinity?, afterLetters?_append hshort, afterLetters?_append hlong]

/-- A numeral is read to its end if what follows it does not carry a word on. -/
theorem after?_append (h : Form n) : after? (n ++ rest) = some rest := by
  cases h with
  | @decimal sign ms es hsign hms hes =>
    have hsigned : afterSign (sign ++ (ms ++ (es ++ rest))) = ms ++ (es ++ rest) := by
      apply afterSign_append hsign
      obtain ⟨m, ms', rfl⟩ := List.exists_cons_of_ne_nil hms.ne_nil
      intro c hc
      obtain rfl : m = c := by simpa using hc
      have hword := hms.isWordChar m (by simp)
      constructor <;> rintro rfl <;> cases hword
    simp [after?, hsigned, afterDecimal?_append hrest hms hes]
  | @infinity sign ls hsign hls =>
    obtain ⟨c, ls', rfl, hc⟩ : ∃ c ls', ls = c :: ls' ∧ c.toLower = 'i' := by
      rcases hls with hls | hls
      all_goals
        obtain ⟨c, ls', heq, hc, -⟩ := hls.exists_cons
        exact ⟨c, ls', heq, hc⟩
    obtain ⟨hdigit, hpoint, hplus, hminus⟩ := letter_facts hc rfl
    have hsigned : afterSign (sign ++ (c :: ls' ++ rest)) = c :: ls' ++ rest :=
      afterSign_append hsign (by simp [hplus, hminus])
    have hdecimal : afterDecimal? (c :: ls' ++ rest) = none := afterDecimal?_eq_none hdigit hpoint
    rw [after?, List.append_assoc, hsigned, hdecimal, afterInfinity?_append hrest hls]
    rfl
  | nan hls =>
    obtain ⟨c, ls', rfl, hc, -⟩ := hls.exists_cons
    obtain ⟨hdigit, hpoint, hplus, hminus⟩ := letter_facts hc rfl
    have hsigned : afterSign (c :: ls' ++ rest) = c :: ls' ++ rest :=
      afterSign_append .none (by simp [hplus, hminus])
    have hdecimal : afterDecimal? (c :: ls' ++ rest) = none := afterDecimal?_eq_none hdigit hpoint
    have hinfinity : afterInfinity? (c :: ls' ++ rest) = none := by
      rw [afterInfinity?, afterLetters?_eq_none (by simp [hc])]
      rfl
    rw [after?, hsigned, hdecimal, hinfinity, afterLetters?_append hls]
    rfl

omit hrest

/-! ## What is read is a numeral -/

theorem exists_sign (cs : List Char) : ∃ sign, cs = sign ++ afterSign cs ∧ Sign sign := by
  cases cs with
  | nil => exact ⟨[], rfl, .none⟩
  | cons c cs =>
    by_cases hc : c = '+' ∨ c = '-'
    · have hafter : afterSign (c :: cs) = cs := if_pos hc
      refine ⟨[c], by rw [hafter]; rfl, ?_⟩
      rcases hc with rfl | rfl
      · exact .plus
      · exact .minus
    · have hafter : afterSign (c :: cs) = c :: cs := if_neg hc
      exact ⟨[], by rw [hafter]; rfl, .none⟩

theorem digits_of_afterDigits? (h : afterDigits? cs = some rest) :
    ∃ ds, cs = ds ++ rest ∧ Digits ds := by
  cases cs with
  | nil => cases h
  | cons c cs =>
    by_cases hc : c.isDigit = true
    · simp only [afterDigits?, hc, if_true, Option.some.injEq] at h
      refine ⟨c :: cs.takeWhile Char.isDigit, ?_, by simp, ?_⟩
      · rw [List.cons_append, ← h, List.takeWhile_append_dropWhile]
      · intro d hd
        rcases List.mem_cons.mp hd with rfl | hd
        · exact hc
        · exact List.all_eq_true.mp List.all_takeWhile d hd
    · simp [afterDigits?, hc] at h

theorem exists_fraction (cs : List Char) :
    ∃ fs, cs = fs ++ afterFraction cs ∧ Fraction fs := by
  cases cs with
  | nil => exact ⟨[], rfl, .none⟩
  | cons c cs =>
    by_cases hc : c = '.'
    · subst hc
      have hafter : afterFraction ('.' :: cs) = cs.dropWhile Char.isDigit := by
        simp [afterFraction]
      refine ⟨'.' :: cs.takeWhile Char.isDigit, ?_, .some ?_⟩
      · rw [hafter, List.cons_append, List.takeWhile_append_dropWhile]
      · exact List.all_eq_true.mp List.all_takeWhile
    · have hafter : afterFraction (c :: cs) = c :: cs := if_neg hc
      exact ⟨[], by rw [hafter]; rfl, .none⟩

theorem exponent_of_afterExponent? (h : afterExponent? cs = some rest) :
    ∃ es, cs = es ++ rest ∧ Exponent es := by
  cases cs with
  | nil =>
    obtain rfl : [] = rest := Option.some.inj h
    exact ⟨[], rfl, .none⟩
  | cons c cs =>
    by_cases hc : c = 'e' ∨ c = 'E'
    · rw [afterExponent?, if_pos hc] at h
      obtain ⟨sign, hcs, hsign⟩ := exists_sign cs
      obtain ⟨ds, hafter, hds⟩ := digits_of_afterDigits? h
      exact ⟨c :: (sign ++ ds), by rw [hcs, hafter]; simp, .some hc hsign hds⟩
    · rw [afterExponent?, if_neg hc, Option.some.injEq] at h
      exact ⟨[], h, .none⟩

theorem decimal_of_afterDecimal? (h : afterDecimal? cs = some rest) :
    ∃ ms es, cs = ms ++ (es ++ rest) ∧ Mantissa ms ∧ Exponent es := by
  cases cs with
  | nil => cases h
  | cons c cs =>
    by_cases hc : c = '.'
    · subst hc
      obtain ⟨after, hdigits, hexponent⟩ := Option.bind_eq_some_iff.mp h
      obtain ⟨ds, rfl, hds⟩ := digits_of_afterDigits? hdigits
      obtain ⟨es, rfl, hes⟩ := exponent_of_afterExponent? hexponent
      exact ⟨'.' :: ds, es, by simp, .point hds, hes⟩
    · rw [afterDecimal?, if_neg hc] at h
      obtain ⟨after, hdigits, hexponent⟩ := Option.bind_eq_some_iff.mp h
      obtain ⟨ds, hcs, hds⟩ := digits_of_afterDigits? hdigits
      obtain ⟨fs, hafter, hfs⟩ := exists_fraction after
      obtain ⟨es, hes', hes⟩ := exponent_of_afterExponent? hexponent
      exact ⟨ds ++ fs, es, by rw [hcs, hafter, hes']; simp, .whole hds hfs, hes⟩

theorem letters_of_afterLetters? (h : afterLetters? ls cs = some rest) :
    ∃ ds, cs = ds ++ rest ∧ Letters ls ds := by
  induction ls generalizing cs with
  | nil => exact ⟨[], Option.some.inj h, rfl⟩
  | cons l ls ih =>
    cases cs with
    | nil => cases h
    | cons c cs =>
      by_cases hc : c.toLower = l
      · rw [afterLetters?, if_pos hc] at h
        obtain ⟨ds, rfl, hds⟩ := ih h
        exact ⟨c :: ds, rfl, by rw [Letters, List.map_cons, hc, hds]⟩
      · rw [afterLetters?, if_neg hc] at h
        cases h

theorem letters_of_afterInfinity? (h : afterInfinity? cs = some rest) :
    ∃ ds, cs = ds ++ rest ∧
      (Letters ['i', 'n', 'f'] ds ∨ Letters ['i', 'n', 'f', 'i', 'n', 'i', 't', 'y'] ds) := by
  obtain ⟨after, hshort, hafter⟩ := Option.map_eq_some_iff.mp h
  obtain ⟨ds, rfl, hds⟩ := letters_of_afterLetters? hshort
  cases hlong : afterLetters? ['i', 'n', 'i', 't', 'y'] after with
  | none =>
    rw [hlong] at hafter
    exact ⟨ds, by rw [← hafter]; rfl, .inl hds⟩
  | some rest' =>
    rw [hlong] at hafter
    obtain rfl : rest' = rest := hafter
    obtain ⟨es, rfl, hes⟩ := letters_of_afterLetters? hlong
    refine ⟨ds ++ es, by simp, .inr ?_⟩
    rw [Letters, List.map_append, hds, hes]
    rfl

/-- What is read at the front of a text is a numeral. -/
theorem form_of_after? (h : after? cs = some rest) : ∃ n, cs = n ++ rest ∧ Form n := by
  obtain ⟨sign, hcs, hsign⟩ := exists_sign cs
  rcases Option.or_eq_some_iff.mp h with hdecimal | ⟨-, h⟩
  · obtain ⟨ms, es, hsplit, hms, hes⟩ := decimal_of_afterDecimal? hdecimal
    exact ⟨sign ++ (ms ++ es), by rw [hcs, hsplit]; simp, .decimal hsign hms hes⟩
  rcases Option.or_eq_some_iff.mp h with hinfinity | ⟨-, hnan⟩
  · obtain ⟨ls, hsplit, hls⟩ := letters_of_afterInfinity? hinfinity
    exact ⟨sign ++ ls, by rw [hcs, hsplit]; simp, .infinity hsign hls⟩
  · obtain ⟨ls, hsplit, hls⟩ := letters_of_afterLetters? hnan
    exact ⟨ls, hsplit, .nan hls⟩

/-! ## Numerals that stand by themselves -/

/-- At most one numeral at the front of a text stands by itself. -/
theorem Form.unique {n' rest' : List Char} (h : Form n) (h' : Form n')
    (hrest : continues rest = false) (hrest' : continues rest' = false)
    (heq : n ++ rest = n' ++ rest') : n = n' := by
  have hread := after?_append (isWordChar_head_of_continues_eq_false hrest) h
  rw [heq, after?_append (isWordChar_head_of_continues_eq_false hrest') h', Option.some.injEq]
    at hread
  subst hread
  exact List.append_cancel_right heq

end Numeral

/-- A numeral is read where one stands that nothing carries on as a word. -/
theorem Piece.numeralTail?_eq_some_iff {c : Char} {cs tail : List Char} :
    Piece.numeralTail? c cs = some tail ↔
      ∃ rest, cs = tail ++ rest ∧ Numeral.Form (c :: tail) ∧ Word.continues rest = false := by
  constructor
  · intro h
    unfold numeralTail? at h
    split at h
    · cases h
    · rename_i rest hafter
      split at h
      · cases h
      · rename_i hrest
        obtain ⟨n, hsplit, hn⟩ := Numeral.form_of_after? hafter
        obtain ⟨d, n, rfl⟩ := List.exists_cons_of_ne_nil hn.ne_nil
        rw [List.cons_append, List.cons.injEq] at hsplit
        obtain ⟨rfl, rfl⟩ := hsplit
        have htake : (n ++ rest).take ((n ++ rest).length - rest.length) = n := by simp
        rw [htake, Option.some.injEq] at h
        exact ⟨rest, by rw [h], h ▸ hn, by simpa using hrest⟩
  · rintro ⟨rest, rfl, hform, hrest⟩
    have hread :=
      Numeral.after?_append (Word.isWordChar_head_of_continues_eq_false hrest) hform
    rw [List.cons_append] at hread
    simp [numeralTail?, hread, hrest]

end SceneDiagram
