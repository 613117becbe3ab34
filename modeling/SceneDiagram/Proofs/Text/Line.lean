import Mathlib.Order.MinMax
import SceneDiagram.Proofs.Text.Span

/-!
# The lines of a text

Every offset lies in a line, also one inside a character, and a later offset in no earlier line
(`lineAt_mono`). So the two lines in which a span starts and ends can stand in its place
(`lines_join`): what is joined of spans lies in the lines that are joined.
-/

namespace SceneDiagram.Text

variable {before inside after cs ds : List Char} {m n : Nat} {a : Span}

/-- The longest first part of a text that has no more than `n` bytes. -/
def upTo : List Char → Nat → List Char
  | [], _ => []
  | c :: cs, n => if c.utf8Size ≤ n then c :: upTo cs (n - c.utf8Size) else []

theorem upTo_byteLength (before after : List Char) :
    upTo (before ++ after) (byteLength before) = before := by
  induction before with
  | nil =>
    cases after with
    | nil => rfl
    | cons c cs =>
      have hpos := c.utf8Size_pos
      rw [List.nil_append, byteLength_nil, upTo, if_neg (by omega)]
  | cons c cs ih =>
    rw [List.cons_append, byteLength_cons, upTo, if_pos (by omega), Nat.add_sub_cancel_left, ih]

theorem upTo_prefix (cs : List Char) (n : Nat) : upTo cs n <+: cs := by
  induction cs generalizing n with
  | nil => exact List.prefix_rfl
  | cons c cs ih =>
    rw [upTo]
    split
    · exact (List.prefix_cons_inj c).mpr (ih _)
    · exact List.nil_prefix

theorem upTo_mono (cs : List Char) (h : m ≤ n) : upTo cs m <+: upTo cs n := by
  induction cs generalizing m n with
  | nil => exact List.prefix_rfl
  | cons c cs ih =>
    by_cases hm : c.utf8Size ≤ m
    · rw [upTo, upTo, if_pos hm, if_pos (Nat.le_trans hm h)]
      exact (List.prefix_cons_inj c).mpr (ih (Nat.sub_le_sub_right h _))
    · rw [upTo, if_neg hm]
      exact List.nil_prefix

/-- The line of an offset, counted from one. -/
def lineAt (cs : List Char) (n : Nat) : Nat := (upTo cs n).count '\n' + 1

theorem lineAt_mono (cs : List Char) : Monotone (lineAt cs) := by
  intro m n h
  exact Nat.succ_le_succ ((upTo_mono cs h).sublist.count_le '\n')

/-- The offset where the character at an offset starts. -/
def floorAt (cs : List Char) (n : Nat) : Nat := byteLength (upTo cs n)

theorem floorAt_mono (cs : List Char) : Monotone (floorAt cs) := by
  intro m n h
  obtain ⟨rest, hrest⟩ := upTo_mono cs h
  rw [floorAt, floorAt, ← hrest, byteLength_append]
  exact Nat.le_add_right _ _

namespace Span

/-- A span with other ends. -/
def mapEnds (g : Nat → Nat) (a : Span) : Span := ⟨g a.start, g a.stop⟩

theorem mapEnds_join {g : Nat → Nat} (hg : Monotone g) (a b : Span) :
    (a.join b).mapEnds g = (a.mapEnds g).join (b.mapEnds g) := by
  rw [mapEnds, mapEnds, mapEnds, join, join, hg.map_min, hg.map_max]

/-- The lines in which a span of a text starts and ends. -/
def lines (cs : List Char) : Span → Span := mapEnds (lineAt cs)

theorem lines_join (cs : List Char) (a b : Span) :
    (a.join b).lines cs = (a.lines cs).join (b.lines cs) := mapEnds_join (lineAt_mono cs) a b

theorem lines_of_append (before inside after : List Char) :
    lines (before ++ inside ++ after)
        ⟨byteLength before, byteLength before + byteLength inside⟩ =
      ⟨before.count '\n' + 1, before.count '\n' + inside.count '\n' + 1⟩ := by
  have hstop := upTo_byteLength (before ++ inside) after
  have hstart := upTo_byteLength before (inside ++ after)
  rw [byteLength_append] at hstop
  rw [← List.append_assoc] at hstart
  rw [lines, mapEnds, lineAt, lineAt, hstart, hstop, List.count_append]

/-- A span that starts between two characters is located in the line of its start. -/
theorem line_location {source : String} (h : floorAt source.toList a.start = a.start) :
    (a.location source).line = (a.lines source.toList).start := by
  obtain ⟨after, hafter⟩ := upTo_prefix source.toList a.start
  rw [floorAt] at h
  have hlocation := Location.ofOffset_byteLength (upTo source.toList a.start) after
  rw [hafter, h] at hlocation
  rw [location, hlocation]
  rfl

end Span

end SceneDiagram.Text
