import Mathlib.Data.List.Forall2
import Mathlib.Data.Nat.Digits.Defs
import SceneDiagram.Proofs.Token.Delimited

/-!
# The parts of a string

The text between two quotes is a row of parts, each of which stands for one character: the character
itself, a backslash and a mark, or a backslash with `u` and four hexadecimal digits (`Quoted.Part`).
No part is the beginning of another, so a text is such a row in one way at most
(`Quoted.flatMap_text_injective`). Quoted rows of parts are the strings, and their contents are what
the parts stand for (`tokenize_quoted`).
-/

namespace SceneDiagram

open Text

namespace Quoted

/-! ## Parts -/

/-- The marks after a backslash, and the characters that they stand for. -/
def marks : List (Char × Char) :=
  [('n', '\n'), ('r', '\r'), ('t', '\t'), ('b', '\x08'), ('f', '\x0c'), ('\\', '\\'), ('/', '/'),
    ('"', '"'), ('\x27', '\x27')]

/-- Four hexadecimal digits that write a number. -/
structure Writes (digits : List Char) (n : Nat) : Prop where
  length : digits.length = 4
  value : ∃ ds : List Nat, List.Forall₂ (fun c d => hexDigit? c = some d) digits ds ∧
    n = Nat.ofDigits 16 ds.reverse

/-- A part of the text between two quotes, which stands for a character. -/
inductive Part where
  | plain (c : Char) : c ≠ '"' → c ≠ '\\' → Part
  | mark (m c : Char) : (m, c) ∈ marks → Part
  | unicode (digits : List Char) (c : Char) : Writes digits c.toNat → Part

namespace Part

/-- How a part is written. -/
def text : Part → List Char
  | plain c _ _ => [c]
  | mark m _ _ => ['\\', m]
  | unicode digits _ _ => '\\' :: 'u' :: digits

/-- What a part stands for. -/
def char : Part → Char
  | plain c _ _ => c
  | mark _ c _ => c
  | unicode _ c _ => c

/-- A character as a part: quotes and backslashes have a backslash before them. -/
def ofChar (c : Char) : Part :=
  if hquote : c = '"' then .mark '"' '"' (by decide)
  else if hbackslash : c = '\\' then .mark '\\' '\\' (by decide)
  else .plain c hquote hbackslash

@[simp] theorem char_ofChar (c : Char) : (ofChar c).char = c := by
  unfold ofChar
  split
  · next hquote => exact hquote.symm
  split
  · next hbackslash => exact hbackslash.symm
  · rfl

end Part

/-- The text between two quotes with the quotes. -/
def quote (text : List Char) : List Char := '"' :: (text ++ ['"'])

/-- A character as it is written between quotes, with a backslash where it needs one. -/
def escaped (c : Char) : List Char := if c = '"' ∨ c = '\\' then ['\\', c] else [c]

@[simp] theorem Part.text_ofChar (c : Char) : (ofChar c).text = escaped c := by
  unfold ofChar escaped
  split
  · next hquote => rw [if_pos (.inl hquote), hquote]; rfl
  split
  · next hbackslash => rw [if_pos (.inr hbackslash), hbackslash]; rfl
  · next hquote hbackslash => rw [if_neg (not_or.mpr ⟨hquote, hbackslash⟩)]; rfl

variable {digits text spelling contents rest rest' : List Char} {before n : Nat} {m c c' : Char}
  {p p' : Part} {parts parts' : List Part}

/-! ## Escapes are parts -/

theorem simpleEscape?_eq_some_iff : simpleEscape? m = some c ↔ (m, c) ∈ marks := by
  constructor
  · intro h
    unfold simpleEscape? at h
    split_ifs at h <;> cases h <;> simp_all [marks]
  · intro h
    simp only [marks, List.mem_cons, Prod.mk.injEq, List.not_mem_nil, or_false] at h
    rcases h with ⟨rfl, rfl⟩ | ⟨rfl, rfl⟩ | ⟨rfl, rfl⟩ | ⟨rfl, rfl⟩ | ⟨rfl, rfl⟩ | ⟨rfl, rfl⟩ |
      ⟨rfl, rfl⟩ | ⟨rfl, rfl⟩ | ⟨rfl, rfl⟩
    all_goals rfl

/-- The digits are read from the most significant one on, each after the number before it. -/
theorem hexNumber?_eq_some_iff :
    hexNumber? before digits.length digits = some n ↔
      ∃ ds : List Nat, List.Forall₂ (fun c d => hexDigit? c = some d) digits ds ∧
        n = Nat.ofDigits 16 (ds.reverse ++ [before]) := by
  induction digits generalizing before with
  | nil =>
    simp only [List.length_nil, hexNumber?, Option.some.injEq, List.forall₂_nil_left_iff,
      exists_eq_left, List.reverse_nil, List.nil_append, Nat.ofDigits_singleton]
    exact eq_comm
  | cons c digits ih =>
    have hstep : ∀ (d : Nat) (ds : List Nat),
        Nat.ofDigits 16 (ds.reverse ++ [16 * before + d]) =
          Nat.ofDigits 16 ((d :: ds).reverse ++ [before]) := by
      intro d ds
      simp only [List.reverse_cons, List.append_assoc, List.cons_append, List.nil_append,
        Nat.ofDigits_append, Nat.ofDigits_cons, Nat.ofDigits_nil]
      congr 2
      omega
    simp only [List.length_cons, hexNumber?, Option.bind_eq_some_iff, ih]
    constructor
    · intro h
      obtain ⟨d, hd, ds, hds, hn⟩ := h
      exact ⟨d :: ds, .cons hd hds, hn.trans (hstep d ds)⟩
    · intro h
      obtain ⟨ds, hds, hn⟩ := h
      cases hds with
      | @cons _ d _ ds hd hds => exact ⟨d, hd, ds, hds, hn.trans (hstep d ds).symm⟩

theorem charOfNat?_eq_some_iff : charOfNat? n = some c ↔ n = c.toNat := by
  unfold charOfNat?
  constructor
  · intro h
    split at h
    · obtain rfl := Option.some.inj h
      rfl
    · cases h
  · intro h
    subst h
    have hvalid : c.toNat.isValidChar := c.valid
    rw [dif_pos hvalid]
    rfl

/-- Four digits are read as the number that they write. -/
theorem writes_iff :
    Writes digits n ↔ digits.length = 4 ∧ hexNumber? 0 4 digits = some n := by
  constructor
  · intro h
    obtain ⟨ds, hds, hn⟩ := h.value
    have hread : hexNumber? 0 digits.length digits = some n := by
      refine hexNumber?_eq_some_iff.mpr ⟨ds, hds, ?_⟩
      rw [hn, Nat.ofDigits_append, Nat.ofDigits_singleton, Nat.mul_zero, Nat.add_zero]
    rw [h.length] at hread
    exact ⟨h.length, hread⟩
  · intro h
    obtain ⟨hlength, hread⟩ := h
    rw [← hlength] at hread
    obtain ⟨ds, hds, hn⟩ := hexNumber?_eq_some_iff.mp hread
    rw [Nat.ofDigits_append, Nat.ofDigits_singleton, Nat.mul_zero, Nat.add_zero] at hn
    exact ⟨hlength, ds, hds, hn⟩

theorem EscapeForm.exists_part (h : EscapeForm text c) :
    ∃ p : Part, p.text = '\\' :: text ∧ p.char = c := by
  cases h with
  | @simple m _ hm => exact ⟨.mark m c (simpleEscape?_eq_some_iff.mp hm), rfl, rfl⟩
  | @unicode digits n _ hlength hn hc =>
    obtain rfl := charOfNat?_eq_some_iff.mp hc
    exact ⟨.unicode digits c (writes_iff.mpr ⟨hlength, hn⟩), rfl, rfl⟩

/-! ## Texts are rows of parts -/

theorem Spells.exists_parts (h : Spells spelling contents) :
    ∃ parts : List Part, spelling = parts.flatMap Part.text ∧ contents = parts.map Part.char := by
  induction h with
  | nil => exact ⟨[], rfl, rfl⟩
  | @plain c spelling contents hquote hbackslash _ ih =>
    obtain ⟨parts, rfl, rfl⟩ := ih
    exact ⟨.plain c hquote hbackslash :: parts, rfl, rfl⟩
  | @escape text spelling contents c hescape _ ih =>
    obtain ⟨parts, rfl, rfl⟩ := ih
    obtain ⟨p, htext, rfl⟩ := hescape.exists_part
    refine ⟨p :: parts, ?_, rfl⟩
    rw [List.flatMap_cons, htext, List.cons_append]

/-- A row of parts spells what the parts stand for. -/
theorem spells_parts (parts : List Part) :
    Spells (parts.flatMap Part.text) (parts.map Part.char) := by
  induction parts with
  | nil => exact .nil
  | cons p parts ih =>
    cases p with
    | plain c hquote hbackslash => exact .plain hquote hbackslash ih
    | mark m c hm => exact .escape (.simple (simpleEscape?_eq_some_iff.mpr hm)) ih
    | unicode digits c h =>
      obtain ⟨hlength, hn⟩ := writes_iff.mp h
      exact .escape (.unicode hlength hn (charOfNat?_eq_some_iff.mpr rfl)) ih

/-- A mark stands for one character. -/
theorem marks_functional (h : (m, c) ∈ marks) (h' : (m, c') ∈ marks) : c = c' := by
  rw [← simpleEscape?_eq_some_iff] at h h'
  exact Option.some.inj (h.symm.trans h')

theorem mark_ne_u (h : (m, c) ∈ marks) : m ≠ 'u' := by
  intro hm
  rw [hm, ← simpleEscape?_eq_some_iff, simpleEscape?_u] at h
  cases h

/-- No part is the beginning of another. -/
theorem Part.eq_of_append_eq (h : p.text ++ rest = p'.text ++ rest') : p = p' := by
  cases p with
  | plain c hquote hbackslash =>
    cases p' with
    | plain c' hquote' hbackslash' =>
      obtain ⟨rfl, -⟩ := List.cons.inj h
      rfl
    | mark m c' hm => exact absurd (List.cons.inj h).1 hbackslash
    | unicode digits c' hdigits => exact absurd (List.cons.inj h).1 hbackslash
  | mark m c hm =>
    cases p' with
    | plain c' hquote' hbackslash' => exact absurd (List.cons.inj h).1.symm hbackslash'
    | mark m' c' hm' =>
      obtain ⟨rfl, -⟩ := List.cons.inj (List.cons.inj h).2
      obtain rfl := marks_functional hm hm'
      rfl
    | unicode digits c' hdigits => exact absurd (List.cons.inj (List.cons.inj h).2).1 (mark_ne_u hm)
  | unicode digits c hdigits =>
    cases p' with
    | plain c' hquote' hbackslash' => exact absurd (List.cons.inj h).1.symm hbackslash'
    | mark m' c' hm' =>
      exact absurd (List.cons.inj (List.cons.inj h).2).1.symm (mark_ne_u hm')
    | unicode digits' c' hdigits' =>
      have hlength : digits.length = digits'.length := hdigits.length.trans hdigits'.length.symm
      obtain ⟨rfl, -⟩ := List.append_inj (List.cons.inj (List.cons.inj h).2).2 hlength
      have hnumber := (writes_iff.mp hdigits).2.symm.trans (writes_iff.mp hdigits').2
      obtain rfl : c = c' := Char.toNat_inj.mp (Option.some.inj hnumber)
      rfl

theorem Part.text_ne_nil (p : Part) : p.text ≠ [] := by
  cases p <;> exact List.cons_ne_nil _ _

/-- A text is a row of parts in one way at most. -/
theorem flatMap_text_injective (h : parts.flatMap Part.text = parts'.flatMap Part.text) :
    parts = parts' := by
  induction parts generalizing parts' with
  | nil =>
    cases parts' with
    | nil => rfl
    | cons p' parts' => exact absurd (List.append_eq_nil_iff.mp h.symm).1 p'.text_ne_nil
  | cons p parts ih =>
    cases parts' with
    | nil => exact absurd (List.append_eq_nil_iff.mp h).1 p.text_ne_nil
    | cons p' parts' =>
      rw [List.flatMap_cons, List.flatMap_cons] at h
      obtain rfl := Part.eq_of_append_eq h
      rw [ih (List.append_cancel_left h)]

theorem quote_injective (h : quote text = quote spelling) : text = spelling :=
  List.append_cancel_right (List.cons.inj h).2

/-- A string is spelled by a quoted row of parts, by one row only. -/
theorem exists_parts_of_spelledAs {s : String} (h : (Token.string s).SpelledAs text) :
    ∃ parts : List Part, s.toList = parts.map Part.char ∧
      ∀ parts' : List Part, text = quote (parts'.flatMap Part.text) ↔ parts' = parts := by
  obtain ⟨spelling, rfl, hspells⟩ := h
  obtain ⟨parts, rfl, hcontents⟩ := hspells.exists_parts
  refine ⟨parts, hcontents, fun parts' => ?_⟩
  constructor
  · intro h
    exact (flatMap_text_injective (quote_injective h)).symm
  · intro h
    rw [h]
    rfl

/-- A text that a string spells is read, on its own, as that string. -/
theorem tokenize_of_spells (h : Spells text contents) :
    tokenize (String.ofList (quote text)) =
      .ok [⟨.string (String.ofList contents), ⟨0, byteLength (quote text)⟩⟩] := by
  rw [tokenize_eq_ok_iff, String.toList_ofList]
  have hspelled : (Token.string (String.ofList contents)).SpelledAs (quote text) :=
    ⟨text, rfl, by rwa [String.toList_ofList]⟩
  have hsingle : Lexed [] 0 (quote text)
      [⟨.string (String.ofList contents), ⟨0, 0 + byteLength (quote text)⟩⟩] :=
    .single hspelled trivial
  rwa [Nat.zero_add] at hsingle

end Quoted

open Quoted

/-- A quoted row of parts is read as one string of the characters that the parts stand for. So a
text with backslashes before its quotes and backslashes is read as what it was. Conversely, every
string of a source that can be read is written as a quoted row of parts in exactly one way, and has
the characters that these parts stand for. -/
theorem tokenize_quoted :
    (∀ parts : List Part,
      let text := quote (parts.flatMap Part.text)
      tokenize (String.ofList text) =
        .ok [⟨.string (String.ofList (parts.map Part.char)), ⟨0, byteLength text⟩⟩]) ∧
    (∀ s : String,
      let text := quote (s.toList.flatMap escaped)
      tokenize (String.ofList text) = .ok [⟨.string s, ⟨0, byteLength text⟩⟩]) ∧
    ∀ source tokens, tokenize source = .ok tokens → ∀ l ∈ tokens, ∀ s, l.token = .string s →
      ∃ parts : List Part, s.toList = parts.map Part.char ∧
        ∀ parts' : List Part,
          (l.span.text source).toList = quote (parts'.flatMap Part.text) ↔ parts' = parts := by
  refine ⟨fun parts => tokenize_of_spells (spells_parts parts), fun s => ?_, ?_⟩
  · have hspells := spells_parts (s.toList.map Part.ofChar)
    have htext : (s.toList.map Part.ofChar).flatMap Part.text = s.toList.flatMap escaped := by
      simp [List.flatMap_map]
    have hchars : (s.toList.map Part.ofChar).map Part.char = s.toList := by
      simp [Function.comp_def]
    rw [htext, hchars] at hspells
    have hread := tokenize_of_spells hspells
    rwa [String.ofList_toList] at hread
  · intro source tokens h l hl s hs
    obtain ⟨-, -, -, -, hspelled, -⟩ := spelledAs_of_mem_tokenize h hl
    rw [hs] at hspelled
    exact exists_parts_of_spelledAs hspelled

/-- A digit after four others is a part of its own, and a quote with a backslash ends no string. -/
theorem tokenize_quoted_fifth_digit :
    let source := "\"\\u00e99\\\"\""
    tokenize source = .ok [⟨.string "\u00e99\"", ⟨0, 11⟩⟩] ∧
      ∃ parts : List Part, "\u00e99\"".toList = parts.map Part.char ∧
        ∀ parts' : List Part, source.toList = quote (parts'.flatMap Part.text) ↔ parts' = parts := by
  intro source
  have hread : tokenize source = .ok [⟨.string "\u00e99\"", ⟨0, 11⟩⟩] := by cbv
  have htext : (Span.mk 0 11).text source = source := by decide
  obtain ⟨parts, hcontents, hparts⟩ :=
    tokenize_quoted.2.2 source _ hread _ (List.mem_singleton_self _) _ rfl
  rw [htext] at hparts
  exact ⟨hread, parts, hcontents, hparts⟩

end SceneDiagram
