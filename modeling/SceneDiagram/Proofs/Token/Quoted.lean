import SceneDiagram.Token.Quoted

/-!
# The spelling of strings

`Quoted.Spells` relates the text between two quotes to the contents that it stands for. Reading
the text after an opening quote finds the first such text that a quote ends
(`Body.read_eq_closed_iff`), whatever follows that quote. If there is none, then either the whole
text spells contents, or it does so up to a backslash with no escape after it (`Body.tells_read`).
-/

namespace SceneDiagram.Quoted

open Text

/-- The text of an escape after its backslash, and the character that it stands for. -/
inductive EscapeForm : List Char → Char → Prop
  | simple {mark c : Char} : simpleEscape? mark = some c → EscapeForm [mark] c
  | unicode {digits : List Char} {n : Nat} {c : Char} :
      digits.length = 4 → hexNumber? 0 4 digits = some n → charOfNat? n = some c →
      EscapeForm ('u' :: digits) c

/-- The text between two quotes, and the contents that it stands for. -/
inductive Spells : List Char → List Char → Prop
  | nil : Spells [] []
  | plain {c : Char} {spelling contents : List Char} :
      c ≠ '"' → c ≠ '\\' → Spells spelling contents → Spells (c :: spelling) (c :: contents)
  | escape {text spelling contents : List Char} {c : Char} :
      EscapeForm text c → Spells spelling contents →
      Spells ('\\' :: (text ++ spelling)) (c :: contents)

/-- What stands after a backslash where there is no escape: the characters that are accepted before
it goes wrong, and what is left. -/
structure BadEscape (accepted rest : List Char) : Prop where
  mark : accepted = [] ∨ accepted = ['u']
  invalid : ∀ text after c, accepted ++ rest = text ++ after → ¬ EscapeForm text c

variable {cs rest contents spelling text : List Char} {c : Char} {before count k n : Nat}

/-! ## Escapes -/

theorem hexNumber?_append (hcs : cs.length = count) :
    hexNumber? before count (cs ++ rest) = hexNumber? before count cs := by
  induction cs generalizing before count with
  | nil =>
    subst hcs
    rfl
  | cons c cs ih =>
    subst hcs
    cases hd : hexDigit? c with
    | none => simp [hexNumber?, hd]
    | some d => simpa [hexNumber?, hd] using ih rfl

theorem le_length_of_hexNumber? (h : hexNumber? before count cs = some n) : count ≤ cs.length := by
  induction cs generalizing before count with
  | nil =>
    cases count with
    | zero => simp
    | succ count => cases h
  | cons c cs ih =>
    cases count with
    | zero => simp
    | succ count =>
      obtain ⟨d, -, hrest⟩ := Option.bind_eq_some_iff.mp h
      simpa using ih hrest

theorem simpleEscape?_u : simpleEscape? 'u' = none := rfl

theorem Escape.read_eq_char_iff :
    Escape.read cs = .char c k ↔
      ∃ text rest, cs = text ++ rest ∧ text.length = k ∧ EscapeForm text c := by
  constructor
  · intro h
    cases cs with
    | nil => cases h
    | cons mark cs =>
      by_cases hmark : mark = 'u'
      · subst hmark
        simp only [Escape.read, if_true] at h
        split at h
        · cases h
        · rename_i n hnumber
          split at h
          · rename_i c' hc
            obtain ⟨rfl, rfl⟩ := Escape.char.inj h
            have hlen := le_length_of_hexNumber? hnumber
            have hdigits : (cs.take 4).length = 4 := by simpa using Nat.min_eq_left hlen
            rw [← List.take_append_drop 4 cs, hexNumber?_append hdigits] at hnumber
            exact ⟨'u' :: cs.take 4, cs.drop 4, by simp, by simp [hlen],
              .unicode hdigits hnumber hc⟩
          · cases h
      · simp only [Escape.read, if_neg hmark] at h
        split at h
        · rename_i c' hc
          obtain ⟨rfl, rfl⟩ := Escape.char.inj h
          exact ⟨[mark], cs, rfl, rfl, .simple hc⟩
        · cases h
  · rintro ⟨text, rest, rfl, rfl, htext⟩
    cases htext with
    | @simple mark c hc =>
      have hmark : mark ≠ 'u' := by
        rintro rfl
        rw [simpleEscape?_u] at hc
        cases hc
      simp [Escape.read, hmark, hc]
    | unicode hdigits hnumber hc =>
      simp [Escape.read, hexNumber?_append hdigits, hnumber, hc, hdigits]

theorem badEscape_of_read (h : Escape.read cs = .invalid k) :
    BadEscape (cs.take k) (cs.drop k) := by
  constructor
  · cases cs with
    | nil => simp
    | cons mark cs =>
      simp only [Escape.read] at h
      split at h
      · next hmark =>
        subst hmark
        split at h
        · cases h
          exact .inr rfl
        · split at h <;> cases h
          exact .inl rfl
      · split at h <;> cases h
        exact .inl rfl
  · intro text after c hsplit hform
    rw [List.take_append_drop] at hsplit
    have hread := Escape.read_eq_char_iff.mpr ⟨text, after, hsplit, rfl, hform⟩
    rw [h] at hread
    cases hread

/-! ## Bodies -/

/-- What a body tells of the text after an opening quote: a first part of it up to a quote spells
contents, or all of it, or a first part up to a backslash with no escape after it. -/
def Body.Tells : Body → List Char → Prop
  | closed contents spelling, cs => ∃ rest, cs = spelling ++ '"' :: rest ∧ Spells spelling contents
  | unterminated, cs => ∃ contents, Spells cs contents
  | invalidEscape before accepted, cs =>
    ∃ contents rest, cs = before ++ '\\' :: accepted ++ rest ∧ Spells before contents ∧
      BadEscape accepted rest

variable {body : Body}

theorem Body.Tells.plain (hquote : c ≠ '"') (hbackslash : c ≠ '\\') (h : body.Tells cs) :
    (body.cons c [c]).Tells (c :: cs) := by
  cases body with
  | closed contents spelling =>
    obtain ⟨rest, rfl, hspells⟩ := h
    exact ⟨rest, rfl, .plain hquote hbackslash hspells⟩
  | unterminated =>
    obtain ⟨contents, hspells⟩ := h
    exact ⟨c :: contents, .plain hquote hbackslash hspells⟩
  | invalidEscape before accepted =>
    obtain ⟨contents, rest, rfl, hspells, hbad⟩ := h
    exact ⟨c :: contents, rest, rfl, .plain hquote hbackslash hspells, hbad⟩

theorem Body.Tells.escape (htext : EscapeForm text c) (h : body.Tells cs) :
    (body.cons c ('\\' :: text)).Tells ('\\' :: (text ++ cs)) := by
  cases body with
  | closed contents spelling =>
    obtain ⟨rest, rfl, hspells⟩ := h
    exact ⟨rest, by simp, .escape htext hspells⟩
  | unterminated =>
    obtain ⟨contents, hspells⟩ := h
    exact ⟨c :: contents, .escape htext hspells⟩
  | invalidEscape before accepted =>
    obtain ⟨contents, rest, rfl, hspells, hbad⟩ := h
    exact ⟨c :: contents, rest, by simp, .escape htext hspells, hbad⟩

theorem Body.tells_read (cs : List Char) : (Body.read cs).Tells cs := by
  induction cs using Body.read.induct with
  | case1 =>
    rw [Body.read]
    exact ⟨[], .nil⟩
  | case2 cs =>
    rw [Body.read, if_pos rfl]
    exact ⟨cs, rfl, .nil⟩
  | case3 cs d k hescape hquote ih =>
    rw [Body.read, if_neg hquote, if_pos rfl, hescape]
    obtain ⟨text, after, rfl, rfl, htext⟩ := Escape.read_eq_char_iff.mp hescape
    rw [List.drop_left] at ih
    simpa using ih.escape htext
  | case4 cs k hescape hquote =>
    rw [Body.read, if_neg hquote, if_pos rfl, hescape]
    exact ⟨[], cs.drop k, by simp, .nil, badEscape_of_read hescape⟩
  | case5 c cs hquote hbackslash ih =>
    rw [Body.read, if_neg hquote, if_neg hbackslash]
    exact ih.plain hquote hbackslash

theorem Body.Tells.of_read (h : Body.read cs = body) : body.Tells cs :=
  h ▸ Body.tells_read cs

theorem Spells.read_append (h : Spells spelling contents) :
    Body.read (spelling ++ '"' :: rest) = .closed contents spelling := by
  induction h with
  | nil => rw [List.nil_append, Body.read, if_pos rfl]
  | plain hquote hbackslash _ ih =>
    rw [List.cons_append, Body.read, if_neg hquote, if_neg hbackslash, ih]
    rfl
  | @escape text spelling contents c htext _ ih =>
    have hescape : Escape.read (text ++ (spelling ++ '"' :: rest)) = .char c text.length :=
      Escape.read_eq_char_iff.mpr ⟨text, _, rfl, rfl, htext⟩
    rw [List.cons_append, List.append_assoc, Body.read, if_neg (by decide), if_pos rfl, hescape]
    simp [ih, Body.cons]

/-- The text after an opening quote is read up to the quote that ends the string. -/
theorem Body.read_eq_closed_iff :
    Body.read cs = .closed contents spelling ↔
      ∃ rest, cs = spelling ++ '"' :: rest ∧ Spells spelling contents := by
  constructor
  · exact Body.Tells.of_read
  · rintro ⟨rest, rfl, hspells⟩
    exact hspells.read_append

/-- A spelling has one contents. -/
theorem Spells.unique {contents' : List Char} (h : Spells spelling contents)
    (h' : Spells spelling contents') : contents = contents' := by
  have hread : Body.read (spelling ++ ['"']) = .closed contents spelling := h.read_append
  rw [h'.read_append, Body.closed.injEq] at hread
  exact hread.1.symm

end SceneDiagram.Quoted
