import Mathlib.Data.List.Basic
import Mathlib.Data.List.TakeWhile

/-!
# Texts cut at a mark

The pieces between the marks of a text are its lines, if the mark is a line end, or the segments of a
path, if it is a slash. A text has a mark after each piece but the last (`eq_of_splitOn`), and what is
added to a text goes on from its last piece (`splitOn_append`). The last piece is also what is read
from the end of the text backwards to a mark (`takeWhile_reverse_of_splitOn`).
-/

namespace SceneDiagram.Text

variable {α : Type} [DecidableEq α] {mark : α} {cs ds first last piece : List α}
  {init rest : List (List α)}

theorem exists_last_piece (mark : α) (cs : List α) :
    ∃ init last, cs.splitOn mark = init ++ [last] := by
  obtain ⟨init, last, h⟩ :=
    (List.eq_nil_or_concat (cs.splitOn mark)).resolve_left (List.splitOn_ne_nil mark cs)
  exact ⟨init, last, h.trans List.concat_eq_append⟩

/-- A text without marks, or one with a last mark in it. -/
theorem last_mark (mark : α) (cs : List α) :
    mark ∉ cs ∨ ∃ up piece, cs = up ++ mark :: piece ∧ mark ∉ piece := by
  by_cases h : mark ∈ cs
  · obtain ⟨piece, up, hsplit, hpiece⟩ := List.eq_append_cons_of_mem (List.mem_reverse.mpr h)
    refine .inr ⟨up.reverse, piece.reverse, ?_, by simpa using hpiece⟩
    rw [← List.reverse_inj, hsplit]
    simp
  · exact .inl h

theorem mark_notMem_of_mem_splitOn (h : piece ∈ cs.splitOn mark) : mark ∉ piece := by
  induction cs generalizing piece with
  | nil =>
    rw [List.splitOn_nil, List.mem_singleton] at h
    simp [h]
  | cons c cs ih =>
    rw [List.splitOn_cons_eq_if_modifyHead] at h
    split at h
    · rcases List.mem_cons.mp h with rfl | h
      · simp
      · exact ih h
    · next hc =>
      obtain ⟨first, rest, hcs⟩ := List.exists_cons_of_ne_nil (List.splitOn_ne_nil mark cs)
      rw [hcs, List.modifyHead_cons] at h
      rw [hcs] at ih
      rcases List.mem_cons.mp h with rfl | h
      · rw [List.mem_cons, not_or]
        exact ⟨fun heq => hc (beq_iff_eq.mpr heq.symm), ih (List.mem_cons_self ..)⟩
      · exact ih (List.mem_cons_of_mem _ h)

/-- There is one piece more than there are marks. -/
theorem length_splitOn (mark : α) (cs : List α) :
    (cs.splitOn mark).length = cs.count mark + 1 := by
  induction cs with
  | nil => rfl
  | cons c cs ih =>
    rw [List.splitOn_cons_eq_if_modifyHead, List.count_cons]
    split
    · next h => rw [List.length_cons, ih]
    · next h => rw [List.length_modifyHead, ih, Nat.add_zero]

/-- A text has a mark after each piece but the last. -/
theorem eq_of_splitOn (h : cs.splitOn mark = init ++ [last]) :
    cs = init.flatMap (· ++ [mark]) ++ last := by
  have hjoin (init : List (List α)) :
      [mark].intercalate (init ++ [last]) = init.flatMap (· ++ [mark]) ++ last := by
    induction init with
    | nil => simp
    | cons piece init ih =>
      rw [List.cons_append, List.intercalate_cons_of_ne_nil (by simp), ih, List.flatMap_cons,
        List.append_assoc, List.append_assoc, List.append_assoc]
  rw [← hjoin, ← h, List.intercalate_splitOn]

/-- Pieces with a mark after each of them are the first pieces of a text. -/
theorem splitOn_flatMap_append (h : ∀ piece ∈ init, mark ∉ piece) (cs : List α) :
    (init.flatMap (· ++ [mark]) ++ cs).splitOn mark = init ++ cs.splitOn mark := by
  induction init with
  | nil => rfl
  | cons piece init ih =>
    obtain ⟨hpiece, hinit⟩ := List.forall_mem_cons.mp h
    rw [List.flatMap_cons, List.append_assoc, List.append_assoc, List.singleton_append,
      List.splitOn_append_cons_self_of_not_mem hpiece, ih hinit, List.cons_append]

theorem splitOn_append_of_notMem (h : mark ∉ piece) (hfirst : cs.splitOn mark = first :: rest) :
    (piece ++ cs).splitOn mark = (piece ++ first) :: rest := by
  induction piece with
  | nil => exact hfirst
  | cons c piece ih =>
    rw [List.mem_cons, not_or] at h
    rw [List.cons_append, List.splitOn_cons_eq_if_modifyHead,
      if_neg (by simpa using Ne.symm h.1), ih h.2]
    rfl

/-- What is added to a text goes on from its last piece. -/
theorem splitOn_append (hlast : cs.splitOn mark = init ++ [last])
    (hfirst : ds.splitOn mark = first :: rest) :
    (cs ++ ds).splitOn mark = init ++ (last ++ first) :: rest := by
  have hpieces : ∀ piece ∈ init ++ [last], mark ∉ piece :=
    fun piece hpiece => mark_notMem_of_mem_splitOn (hlast ▸ hpiece)
  obtain ⟨hinit, hpiece⟩ := List.forall_mem_append.mp hpieces
  rw [eq_of_splitOn hlast, List.append_assoc, splitOn_flatMap_append hinit,
    splitOn_append_of_notMem (hpiece last (List.mem_singleton_self _)) hfirst]

/-- Read backwards to a mark, a text gives its last piece. -/
theorem takeWhile_reverse_of_splitOn (h : cs.splitOn mark = init ++ [last]) :
    cs.reverse.takeWhile (· != mark) = last.reverse := by
  have hmem : last ∈ cs.splitOn mark := by simp [h]
  have hlast : ∀ c ∈ last.reverse, (c != mark) = true := by
    intro c hc
    rw [bne_iff_ne]
    rintro rfl
    exact mark_notMem_of_mem_splitOn hmem (List.mem_reverse.mp hc)
  rw [eq_of_splitOn h, List.reverse_append, List.takeWhile_append_of_pos hlast]
  rcases List.eq_nil_or_concat init with rfl | ⟨init, piece, rfl⟩
  · simp
  · rw [List.concat_eq_append, List.flatMap_append]
    simp

end SceneDiagram.Text
