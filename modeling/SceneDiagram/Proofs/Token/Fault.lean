import SceneDiagram.Proofs.Text.Denotation
import SceneDiagram.Proofs.Token.Attempt

/-!
# Where lexical faults are found

Also the pieces that are no tokens follow one another without a gap, so a fault is placed at the
part of the source that it is about: a string up to the end, or an escape from its backslash to
where it goes wrong. The third fault is placed at the first byte of its character only
(`stands_of_tokenize`). That is the character if it has one byte, and nothing if it has more.
-/

namespace SceneDiagram

open Text

/-- A fault stands at a part of a text, or at the first byte of a character that takes more. -/
inductive LexicalFault.Stands : LexicalFault → Span → List Char → Prop
  | part {fault : LexicalFault} (before inside after : List Char) :
      Stands fault ⟨byteLength before, byteLength before + byteLength inside⟩
        (before ++ inside ++ after)
  | firstByte (before : List Char) (c : Char) (after : List Char) : 1 < c.utf8Size →
      Stands .unexpectedCharacter ⟨byteLength before, byteLength before + 1⟩
        (before ++ c :: after)

variable {fault : LexicalFault} {a : Span} {cs : List Char} {source : String}

/-- A fault stands where it does also if there is more text around. -/
theorem LexicalFault.Stands.between (h : fault.Stands a cs) (before after : List Char) :
    fault.Stands (a.shift (byteLength before)) (before ++ cs ++ after) := by
  cases h with
  | part before' inside after' =>
    have hpart := @part fault (before ++ before') inside (after' ++ after)
    simpa [Span.shift, Nat.add_assoc] using hpart
  | firstByte before' c after' hsize =>
    have hbyte := firstByte (before ++ before') c (after' ++ after) hsize
    simpa [Span.shift, Nat.add_assoc] using hbyte

/-- Where a fault stands there is text, or the first byte of a longer character. -/
theorem LexicalFault.Stands.denotes_or_halves (h : fault.Stands a source.toList) :
    a.Denotes source ∨ fault = .unexpectedCharacter ∧ a.HalvesCharacter source := by
  generalize hcs : source.toList = cs at h
  cases h with
  | part before inside after => exact .inl (Span.denotes_of_append hcs)
  | firstByte before c after hsize => exact .inr ⟨rfl, before, c, after, hcs, hsize, rfl⟩

/-- An unexpected character stands at its first byte, which may be all of it. -/
theorem LexicalFault.stands_unexpectedCharacter (c : Char) :
    LexicalFault.unexpectedCharacter.Stands ⟨0, 1⟩ [c] := by
  by_cases hsize : c.utf8Size = 1
  · have hpart := @LexicalFault.Stands.part .unexpectedCharacter [] [c] []
    simpa [hsize] using hpart
  · have hpos := c.utf8Size_pos
    exact .firstByte [] c [] (by omega)

/-- A fault stands in the text that the attempt takes. -/
theorem LexicalFault.Arises.stands {consumed left : List Char} (h : fault.Arises a consumed left) :
    fault.Stands a (consumed ++ left.take 1) := by
  cases h with
  | @unterminatedString spelling contents _ =>
    have hpart := @Stands.part .unterminatedString [] ('"' :: spelling) []
    simpa using hpart
  | @invalidEscape before contents accepted left _ _ =>
    exact .part ('"' :: before) ('\\' :: accepted) (left.take 1)
  | unexpectedCharacter _ => exact stands_unexpectedCharacter _

/-- The finding about an attempt that failed tells a fault where it stands. -/
theorem Attempted.stands_of_mem {xs : List Attempt} {d : Diagnostic} (h : Attempted 0 cs xs)
    (hd : d ∈ xs.filterMap (·.diagnostic?)) :
    ∃ fault a, d = LexicalFault.diagnostic fault a ∧ fault.Stands a cs := by
  obtain ⟨⟨span, piece⟩, hx, hd⟩ := List.mem_filterMap.mp hd
  obtain ⟨before, after, rfl, hspan, htaken⟩ := h.exists_of_mem hx
  cases htaken with
  | token _ _ => cases hd
  | @fault c more consumed left fault a harises _ htext =>
    cases hd
    refine ⟨fault, _, rfl, ?_⟩
    have hbetween := harises.stands.between before (left.drop 1)
    rw [← htext] at hbetween
    dsimp only at hspan
    rw [hspan, Nat.zero_add]
    exact hbetween

/-- The findings about a source that has no tokens tell faults that stand in it. -/
theorem stands_of_tokenize {e : ParseError} (h : tokenize source = .error e) :
    ∀ d ∈ e.diagnostics,
      ∃ fault a, d = LexicalFault.diagnostic fault a ∧ fault.Stands a source.toList := by
  intro d hd
  rw [← (tokenize_eq_error_iff.mp h).2, Piece.diagnostics_eq_filterMap] at hd
  exact (attempted_readAll 0 source.toList).stands_of_mem hd

end SceneDiagram
