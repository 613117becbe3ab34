import Mathlib.Data.Prod.Lex
import Mathlib.Order.Monotone.Basic
import SceneDiagram.Proofs.Text.Denotation
import SceneDiagram.Proofs.Text.Mark

/-!
# The place that a location tells

The location just after a first part of a text counts the lines of that part and the characters of
the last of them (`Location.after_of_splitOn`). So it leads back to the part: it is made of all lines
before the one that is told, and the characters before the column in that line
(`Location.marks_after`). Further into the text the location is a later one, with a greater column as
long as the line is the same (`Location.key_after_lt`), and so no two offsets between characters
share a location (`Span.location_identifies`).
-/

namespace SceneDiagram.Text

variable {before after inside start : List Char} {lines : List (List Char)} {source : String}
  {a : Span}

namespace Location

/-- Locations in the order in which a text is read: by lines, and within a line by columns. -/
def key (l : Location) : ℕ ×ₗ ℕ := toLex (l.line, l.column)

theorem key_lt_key_iff {l m : Location} :
    l.key < m.key ↔ l.line < m.line ∨ l.line = m.line ∧ l.column < m.column :=
  Prod.Lex.toLex_lt_toLex

/-- A location marks the end of a first part of a text: the part is made of all lines of the text
before the line of the location, each with its line end, and of the characters before its column in
the next line. -/
def Marks (l : Location) (cs before : List Char) : Prop :=
  ∃ lines start rest others, cs.splitOn '\n' = lines ++ (start ++ rest) :: others ∧
    l = ⟨lines.length + 1, start.length + 1⟩ ∧ before = lines.flatMap (· ++ ['\n']) ++ start

theorem after_of_splitOn (h : before.splitOn '\n' = lines ++ [start]) :
    Location.after before = ⟨lines.length + 1, start.length + 1⟩ := by
  have hcount := length_splitOn '\n' before
  rw [h, List.length_append, List.length_singleton] at hcount
  rw [after, takeWhile_reverse_of_splitOn h, List.length_reverse, ← hcount]

theorem marks_after (before after : List Char) :
    (Location.after before).Marks (before ++ after) before := by
  obtain ⟨lines, start, hlast⟩ := exists_last_piece '\n' before
  obtain ⟨rest, others, hfirst⟩ := List.exists_cons_of_ne_nil (List.splitOn_ne_nil '\n' after)
  exact ⟨lines, start, rest, others, splitOn_append hlast hfirst, after_of_splitOn hlast,
    eq_of_splitOn hlast⟩

/-- Whatever is read leads on, in the last line or to another one. -/
theorem key_after_lt (before : List Char) (h : inside ≠ []) :
    (Location.after before).key < (Location.after (before ++ inside)).key := by
  obtain ⟨lines, start, hlast⟩ := exists_last_piece '\n' before
  obtain ⟨rest, last, hinside⟩ := exists_last_piece '\n' inside
  rw [key_lt_key_iff, after_of_splitOn hlast]
  cases rest with
  | nil =>
    obtain rfl : inside = last := eq_of_splitOn hinside
    have hpos := List.length_pos_iff.mpr h
    rw [after_of_splitOn (splitOn_append hlast hinside), List.length_append]
    exact .inr ⟨rfl, by dsimp only; omega⟩
  | cons first rest =>
    have hsplit : (before ++ inside).splitOn '\n' =
        (lines ++ (start ++ first) :: rest) ++ [last] := by
      simpa using splitOn_append hlast hinside
    rw [after_of_splitOn hsplit, List.length_append, List.length_cons]
    exact .inl (by dsimp only; omega)

theorem strictMonoOn_ofOffset (source : String) :
    StrictMonoOn (fun n => (ofOffset source.toList n).key)
      {n | String.Pos.Raw.IsValid source ⟨n⟩} := by
  intro m hm n hn hlt
  obtain ⟨before, after, hbefore, rfl⟩ := exists_append_of_isValid hm
  obtain ⟨upTo, rest, hupTo, rfl⟩ := exists_append_of_isValid hn
  obtain ⟨inside, rfl⟩ := exists_append_of_byteLength_le (hbefore.symm.trans hupTo) hlt.le
  have hinside : inside ≠ [] := by
    rintro rfl
    rw [List.append_nil] at hlt
    exact lt_irrefl _ hlt
  have hfirst := ofOffset_byteLength before after
  have hsecond := ofOffset_byteLength (before ++ inside) rest
  rw [← hbefore] at hfirst
  rw [← hupTo] at hsecond
  simp only [hfirst, hsecond]
  exact key_after_lt before hinside

end Location

namespace Span

/-- A location tells exactly where a span starts, if that is between two characters. The text before
the start is made of the lines before the line of the location and of the characters before its
column in the next line. Of two spans the one that starts earlier has the earlier location, and only
spans with the same start share one. The first location is `1:1`, and whatever starts beyond the end
of the source is located at the end. -/
theorem location_identifies (ha : String.Pos.Raw.IsValid source ⟨a.start⟩) :
    (∃ before after, source.toList = before ++ after ∧ byteLength before = a.start ∧
      (a.location source).Marks source.toList before) ∧
    (∀ b : Span, String.Pos.Raw.IsValid source ⟨b.start⟩ →
      ((a.location source).key < (b.location source).key ↔ a.start < b.start) ∧
        (a.location source = b.location source ↔ a.start = b.start)) ∧
    (∀ b : Span, b.start = 0 → b.location source = ⟨1, 1⟩) ∧
    ∀ b c : Span, b.start = source.utf8ByteSize → source.utf8ByteSize ≤ c.start →
      c.location source = b.location source := by
  have hmono := Location.strictMonoOn_ofOffset source
  refine ⟨?_, fun b hb => ⟨hmono.lt_iff_lt ha hb, fun h => ?_, fun h => ?_⟩, fun b hb => ?_,
    fun b c hb hc => ?_⟩
  · obtain ⟨before, after, hsource, hstart⟩ := exists_append_of_isValid ha
    refine ⟨before, after, hsource, hstart, ?_⟩
    rw [location, hsource, ← hstart, Location.ofOffset_byteLength]
    exact Location.marks_after before after
  · exact hmono.injOn ha hb (congrArg Location.key h)
  · rw [location, location, h]
  · rw [location, hb]
    exact Location.ofOffset_byteLength [] source.toList
  · rw [location, location, Location.ofOffset, Location.ofOffset, hb, byteLength_toList, Nat.min_self,
      Nat.min_eq_right hc]

/-- In the second line, after characters of two bytes: the span starts behind the line end and one
more character. -/
theorem location_identifies_second_line :
    let source := "\u00e9\n\u00fc!"
    let lineEnd : Span := ⟨2, 3⟩
    let mark : Span := ⟨5, 6⟩
    String.Pos.Raw.IsValid source ⟨mark.start⟩ ∧ String.Pos.Raw.IsValid source ⟨lineEnd.start⟩ ∧
      mark.location source = ⟨2, 2⟩ ∧ lineEnd.location source = ⟨1, 2⟩ ∧
      (∃ before after, source.toList = before ++ after ∧ byteLength before = mark.start ∧
        Location.Marks ⟨2, 2⟩ source.toList before) ∧
      lineEnd.start < mark.start := by
  intro source lineEnd mark
  have hmark : String.Pos.Raw.IsValid source ⟨mark.start⟩ :=
    isValid_byteLength (show source.toList = "\u00e9\n\u00fc".toList ++ ['!'] by decide)
  have hlineEnd : String.Pos.Raw.IsValid source ⟨lineEnd.start⟩ :=
    isValid_byteLength (show source.toList = "\u00e9".toList ++ "\n\u00fc!".toList by decide)
  have hsecond : mark.location source = ⟨2, 2⟩ := by decide
  obtain ⟨htext, -⟩ := location_identifies hmark
  rw [hsecond] at htext
  obtain ⟨-, horder, -⟩ := location_identifies hlineEnd
  have hlater : (lineEnd.location source).key < (mark.location source).key :=
    Location.key_lt_key_iff.mpr (.inl (by decide))
  exact ⟨hmark, hlineEnd, hsecond, by decide, htext, (horder mark hmark).1.mp hlater⟩

end Span

end SceneDiagram.Text
