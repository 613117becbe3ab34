import SceneDiagram.Proofs.Token.Tiling

/-!
# The attempts to read a text

Reading goes through a text attempt by attempt. An attempt gives a token or it fails, and where it
fails it has consumed some text, after which one character is skipped before the next attempt. How
much it consumed depends on the fault (`LexicalFault.Arises`). The attempts lose nothing of the text
(`Attempted.abut`), and they tell of tokens and faults where they stand (`Attempted.exists_of_mem`).
-/

namespace SceneDiagram

open Text

/-! ## Attempts -/

/-- How an attempt to read a token fails: the fault and its span, counted from the start of the
attempt, with the text that was consumed and the text that is left. -/
inductive LexicalFault.Arises : LexicalFault → Span → List Char → List Char → Prop
  | unterminatedString {spelling contents : List Char} : Quoted.Spells spelling contents →
      Arises .unterminatedString ⟨0, byteLength ('"' :: spelling)⟩ ('"' :: spelling) []
  | invalidEscape {before contents accepted left : List Char} : Quoted.Spells before contents →
      Quoted.BadEscape accepted left →
      Arises .invalidEscape
        ⟨byteLength ('"' :: before), byteLength ('"' :: before) + byteLength ('\\' :: accepted)⟩
        ('"' :: before ++ '\\' :: accepted) left
  | unexpectedCharacter {c : Char} {left : List Char} : c ≠ '"' →
      Arises .unexpectedCharacter ⟨0, 1⟩ [] (c :: left)

/-- A text of which no first part is a token. -/
def NoToken (cs : List Char) : Prop :=
  ∀ (token : Token) (text after : List Char), cs = text ++ after → token.SpelledAs text →
    ¬ token.Stops text after

/-- What an attempt takes off the front of a text, where `after` is what it leaves: the text of a
token, or else the text that it consumed and one skipped character, if there is one to skip. -/
inductive Piece.Taken : Piece → List Char → Prop
  | token {c : Char} {more after : List Char} {token : Token} :
      token.SpelledAs (c :: more) → token.Stops (c :: more) after →
      Taken ⟨c, more, .ok token⟩ after
  | fault {c : Char} {more consumed left : List Char} {fault : LexicalFault} {a : Span} :
      fault.Arises a consumed left → NoToken (consumed ++ left) →
      c :: more = consumed ++ left.take 1 →
      Taken ⟨c, more, .error (fault, a)⟩ (left.drop 1)

/-- An attempt to read a token: the piece of text that it took and the span of the piece. -/
structure Attempt where
  span : Span
  piece : Piece

namespace Attempt

/-- The token of an attempt that gave one. -/
def lexeme? (x : Attempt) : Option Lexeme :=
  match x.piece.outcome with
  | .ok token => some ⟨token, x.span⟩
  | .error _ => none

/-- The finding about an attempt that failed. -/
def diagnostic? (x : Attempt) : Option Diagnostic :=
  match x.piece.outcome with
  | .ok _ => none
  | .error (fault, a) => some (fault.diagnostic (a.shift x.span.start))

/-- Whether an attempt gave no token. -/
def Failed (x : Attempt) : Prop := ∃ fault, x.piece.outcome = .error fault

theorem failed_iff {x : Attempt} : x.Failed ↔ x.diagnostic? ≠ none := by
  unfold Failed diagnostic?
  cases x.piece.outcome <;> simp

end Attempt

/-- The attempts that took consecutive pieces, of which the first starts at an offset. -/
def Piece.attempts : Nat → List Piece → List Attempt
  | _, [] => []
  | offset, p :: ps =>
    let next := offset + byteLength p.text
    ⟨⟨offset, next⟩, p⟩ :: attempts next ps

variable {c : Char} {cs more : List Char} {n : Nat} {p : Piece} {fault : LexicalFault} {a : Span}
  {xs : List Attempt} {d : Diagnostic}

namespace Piece

theorem lexemes_eq_filterMap (ps : List Piece) :
    lexemes n ps = (attempts n ps).filterMap (·.lexeme?) := by
  induction ps generalizing n with
  | nil => rfl
  | cons p ps ih =>
    rw [lexemes, attempts, List.filterMap_cons, ← ih, Attempt.lexeme?]
    cases p.outcome <;> rfl

theorem diagnostics_eq_filterMap (ps : List Piece) :
    diagnostics n ps = (attempts n ps).filterMap (·.diagnostic?) := by
  induction ps generalizing n with
  | nil => rfl
  | cons p ps ih =>
    rw [diagnostics, attempts, List.filterMap_cons, ← ih, Attempt.diagnostic?]
    cases p.outcome <;> rfl

/-! ## One attempt -/

theorem noToken_of_read (h : (read c cs).outcome = .error (fault, a)) : NoToken (c :: cs) := by
  intro token text after hsplit hspelled hstops
  obtain ⟨d, more, rfl⟩ := List.exists_cons_of_ne_nil hspelled.ne_nil
  obtain ⟨rfl, hcs⟩ : c = d ∧ cs = more ++ after := List.cons.inj hsplit
  rw [hcs, read_of_spelledAs hspelled hstops] at h
  cases h

theorem arises_of_readString (h : readString cs = ⟨'"', more, .error (fault, a)⟩) :
    ∃ consumed left, '"' :: cs = consumed ++ left ∧ fault.Arises a consumed left ∧
      '"' :: more = consumed ++ left.take 1 := by
  unfold readString at h
  split at h
  · cases h
  · next hbody =>
    obtain ⟨contents, hspells⟩ := Quoted.Body.Tells.of_read hbody
    cases h
    exact ⟨'"' :: cs, [], (List.append_nil _).symm, .unterminatedString hspells,
      (List.append_nil _).symm⟩
  · next before accepted hbody =>
    obtain ⟨contents, left, hcs, hspells, hbad⟩ := Quoted.Body.Tells.of_read hbody
    cases h
    refine ⟨'"' :: before ++ '\\' :: accepted, left, ?_, .invalidEscape hspells hbad, ?_⟩
    · rw [hcs, List.cons_append, List.cons_append]
    · rw [hcs, List.take_length_add_append, List.cons_append, List.cons_append]

theorem arises_of_read (h : read c cs = ⟨c, more, .error (fault, a)⟩) :
    ∃ consumed left, c :: cs = consumed ++ left ∧ fault.Arises a consumed left ∧
      c :: more = consumed ++ left.take 1 := by
  unfold read at h
  split at h
  · cases h
  split at h
  · next hquote =>
    subst hquote
    exact arises_of_readString h
  next hquote =>
  split at h
  · cases h
  split at h
  · cases h
  split at h
  · cases h
  split at h
  · cases h
  split at h
  · cases h
  · cases h
    exact ⟨[], c :: cs, rfl, .unexpectedCharacter hquote, rfl⟩

/-- An attempt at a text takes a first part of it. -/
theorem taken_read (c : Char) (cs : List Char) :
    ∃ after, c :: cs = (read c cs).text ++ after ∧ (read c cs).Taken after := by
  have hfirst := read_first c cs
  cases hpiece : read c cs with
  | mk first more outcome =>
    rw [hpiece] at hfirst
    obtain rfl : first = c := hfirst
    cases outcome with
    | ok token =>
      obtain ⟨after, rfl, hspelled, hstops⟩ := read_eq_iff.mp hpiece
      exact ⟨after, rfl, .token hspelled hstops⟩
    | error found =>
      obtain ⟨fault, a⟩ := found
      have hnone : NoToken (first :: cs) := noToken_of_read (by rw [hpiece])
      obtain ⟨consumed, left, hsplit, harises, htext⟩ := arises_of_read hpiece
      refine ⟨left.drop 1, ?_, .fault harises (hsplit ▸ hnone) htext⟩
      rw [text, htext, hsplit, List.append_assoc, List.take_append_drop]

end Piece

/-! ## All attempts -/

/-- Attempts that go through a text, which starts at an offset, from the first character to the
last. -/
inductive Attempted : Nat → List Char → List Attempt → Prop
  | nil {n : Nat} : Attempted n [] []
  | cons {n : Nat} {p : Piece} {after : List Char} {xs : List Attempt} : p.Taken after →
      Attempted (n + byteLength p.text) after xs →
      Attempted n (p.text ++ after) (⟨⟨n, n + byteLength p.text⟩, p⟩ :: xs)

/-- The attempts at a text go through all of it. -/
theorem attempted_readAll (n : Nat) (cs : List Char) :
    Attempted n cs (Piece.attempts n (Piece.readAll cs)) := by
  induction cs using Piece.readAll.induct generalizing n with
  | case1 =>
    rw [Piece.readAll]
    exact .nil
  | case2 c cs piece =>
    rename_i ih
    obtain ⟨after, hsplit, htaken⟩ := Piece.taken_read c cs
    -- The reader goes on behind as many characters as the piece has.
    have hafter : cs.drop (Piece.read c cs).more.length = after := by
      have hmore := congrArg (List.drop (Piece.read c cs).text.length) hsplit
      rwa [List.drop_left] at hmore
    rw [hafter] at ih
    rw [Piece.readAll, hafter, hsplit]
    exact .cons htaken (ih _)

namespace Attempted

theorem eq_nil (h : Attempted n [] xs) : xs = [] := by
  generalize hcs : ([] : List Char) = cs at h
  cases h with
  | nil => rfl
  | cons _ _ => exact absurd (List.append_eq_nil_iff.mp hcs.symm).1 (List.cons_ne_nil _ _)

/-- The spans of the attempts lie one right after another. -/
theorem abut (h : Attempted n cs xs) : Abut n (xs.map (·.span)) (n + byteLength cs) := by
  induction h with
  | nil => exact .nil
  | @cons n p after xs _ _ ih =>
    have hpos : 0 < byteLength p.text := byteLength_pos (List.cons_ne_nil _ _)
    rw [byteLength_append, ← Nat.add_assoc]
    exact .cons (by omega) ih

/-- There are no more attempts than characters. -/
theorem length_le (h : Attempted n cs xs) : xs.length ≤ cs.length := by
  induction h with
  | nil => exact Nat.le_refl _
  | @cons n p after xs _ _ ih =>
    have hlength : p.text.length = p.more.length + 1 := rfl
    rw [List.length_cons, List.length_append]
    omega

/-- Each attempt takes a part of the text. -/
theorem exists_of_mem {x : Attempt} (h : Attempted n cs xs) (hx : x ∈ xs) :
    ∃ before after, cs = before ++ x.piece.text ++ after ∧
      x.span = ⟨n + byteLength before, n + byteLength before + byteLength x.piece.text⟩ ∧
      x.piece.Taken after := by
  induction h with
  | nil => cases hx
  | @cons n p after xs htaken hrest ih =>
    rcases List.mem_cons.mp hx with rfl | hx
    · exact ⟨[], after, rfl, rfl, htaken⟩
    · obtain ⟨before, after', rfl, hspan, htaken'⟩ := ih hx
      refine ⟨p.text ++ before, after', by simp, ?_, htaken'⟩
      rw [hspan, byteLength_append, Nat.add_assoc]

end Attempted

/-- The attempts at a source. -/
def attempts (source : String) : List Attempt :=
  Piece.attempts 0 (Piece.readAll source.toList)

end SceneDiagram
