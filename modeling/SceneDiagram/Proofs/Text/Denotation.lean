import Mathlib.Data.List.Basic
import SceneDiagram.Proofs.Text.Span

/-!
# Spans that denote text

A span denotes text of a source if it starts no later than it ends and neither end lies inside a
character (`Span.denotes_of_cuts`): then it lies within the source, and what is cut out of the source
at the span is all the text from the one end to the other. A span that ends one byte into a longer
character denotes nothing.
-/

namespace SceneDiagram.Text

variable {before inside after before' after' cs : List Char} {c : Char} {source : String} {a : Span}

/-- Of two first parts of a text the one that is not longer is a first part of the other. -/
theorem exists_append_of_byteLength_le (h : before ++ after = before' ++ after')
    (hle : byteLength before ≤ byteLength before') : ∃ inside, before' = before ++ inside := by
  rcases List.append_eq_append_iff.mp h with ⟨inside, rfl, -⟩ | ⟨extra, rfl, -⟩
  · exact ⟨inside, rfl⟩
  · rw [byteLength_append] at hle
    have hextra : extra = [] := by
      by_contra hne
      have hpos := byteLength_pos hne
      omega
    exact ⟨[], by rw [hextra, List.append_nil, List.append_nil]⟩

/-- A boundary of the encoding of a source is the end of a first part of its text. -/
theorem exists_append_of_isValid {n : Nat} (h : String.Pos.Raw.IsValid source ⟨n⟩) :
    ∃ before after, source.toList = before ++ after ∧ byteLength before = n := by
  obtain ⟨s, t, rfl, hend⟩ := String.Pos.Raw.isValid_iff_exists_append.mp h
  refine ⟨s.toList, t.toList, String.toList_append, ?_⟩
  rw [byteLength_toList, ← String.byteIdx_rawEndPos, ← hend]

namespace Span

/-- A span denotes text of a source: its ends are in order, lie within the source and cut no
character in two, and the text at the span is all that stands between them. -/
structure Denotes (a : Span) (source : String) : Prop where
  ordered : a.start ≤ a.stop
  within : a.stop ≤ source.utf8ByteSize
  cuts : a.Cuts source
  slice : ∃ before after, source.toList = before ++ (a.text source).toList ++ after ∧
    byteLength before = a.start ∧ byteLength (a.text source).toList = a.length

/-- The ends of a part of a source denote it. -/
theorem denotes_of_append (h : source.toList = before ++ inside ++ after) :
    Denotes ⟨byteLength before, byteLength before + byteLength inside⟩ source := by
  have htext : (Span.text ⟨byteLength before, byteLength before + byteLength inside⟩
      source).toList = inside := by
    rw [text, h, chars_of_append rfl rfl, String.toList_ofList]
  have hstop := isValid_byteLength h
  rw [byteLength_append] at hstop
  refine ⟨Nat.le_add_right _ _, ?_, ⟨isValid_byteLength (h.trans (List.append_assoc ..)), hstop⟩,
    before, after, ?_, rfl, ?_⟩
  · rw [← byteLength_toList, h, byteLength_append, byteLength_append]
    exact Nat.le_add_right _ _
  · rw [htext, h]
  · rw [htext, length, Nat.add_sub_cancel_left]

/-- A span denotes text if its ends are in order and cut no character in two. -/
theorem denotes_of_cuts (hle : a.start ≤ a.stop) (hcuts : a.Cuts source) : a.Denotes source := by
  obtain ⟨start, stop⟩ := a
  obtain ⟨before, rest, hstart, rfl⟩ := exists_append_of_isValid hcuts.1
  obtain ⟨upTo, after, hstop, rfl⟩ := exists_append_of_isValid hcuts.2
  obtain ⟨inside, rfl⟩ := exists_append_of_byteLength_le (hstart.symm.trans hstop) hle
  rw [byteLength_append]
  exact denotes_of_append hstop

/-- A span that holds the first byte of a character and not all of the character. -/
def HalvesCharacter (a : Span) (source : String) : Prop :=
  ∃ before c after, source.toList = before ++ c :: after ∧ 1 < c.utf8Size ∧
    a = ⟨byteLength before, byteLength before + 1⟩

/-- A span that halves a character lies within the source but denotes nothing of it, and there is no
text at it. -/
theorem HalvesCharacter.not_denotes (h : a.HalvesCharacter source) :
    a.start < a.stop ∧ a.stop ≤ source.utf8ByteSize ∧ ¬ a.Denotes source ∧ a.text source = "" := by
  obtain ⟨before, c, after, hsource, hsize, ha⟩ := h
  subst ha
  have hlen := congrArg byteLength hsource
  simp only [byteLength_append, byteLength_cons, byteLength_toList] at hlen
  refine ⟨Nat.lt_succ_self _, by dsimp only; omega, fun hdenotes => ?_, ?_⟩
  · obtain ⟨upTo, rest, hstop, hupTo⟩ := exists_append_of_isValid hdenotes.cuts.2
    rw [hsource] at hstop
    change byteLength upTo = byteLength before + 1 at hupTo
    obtain ⟨inside, rfl⟩ := exists_append_of_byteLength_le hstop (by omega)
    rw [List.append_assoc, List.append_cancel_left_eq] at hstop
    rw [byteLength_append] at hupTo
    cases inside with
    | nil =>
      rw [byteLength_nil] at hupTo
      omega
    | cons d inside =>
      obtain ⟨rfl, -⟩ := List.cons.inj hstop
      rw [byteLength_cons] at hupTo
      omega
  · have hcut : splitAtByte? (before ++ c :: after) (byteLength before) =
        some (before, c :: after) := splitAtByte?_byteLength before (c :: after)
    have hhalf : splitAtByte? (c :: after) 1 = none := by
      rw [splitAtByte?, if_neg (by omega)]
    have hstop : min (byteLength before + 1) (byteLength (before ++ c :: after)) =
        byteLength before + 1 := by
      simp only [byteLength_append, byteLength_cons]
      omega
    have hstart : min (byteLength before) (byteLength before + 1) = byteLength before := by omega
    rw [text, chars, hsource]
    simp only [hstop, hstart, hcut, Nat.add_sub_cancel_left, hhalf, String.ofList_nil]

end Span

end SceneDiagram.Text
