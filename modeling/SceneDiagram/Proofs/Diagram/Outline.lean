import SceneDiagram.Diagram.Block
import SceneDiagram.Text.Blank

/-!
# Outlines

An outline is a text of lines and blocks. A block is an opening line and a closing brace around
other lines and blocks, which stand four blanks further in. The brace that closes a block is the
next one at its depth (`closed_of_mem_blocks`), so the depths alone tell which lines belong together.
If no line has a line break in it, the text splits into just the lines that were put together
(`splitOn_join`).
-/

namespace SceneDiagram

open Text

/-- A line, or a block of lines and further blocks under an opening line. -/
inductive Outline where
  | line (text : String)
  | block (opening : String) (inner : List Outline)

namespace Outline

mutual

/-- The lines of an outline from its first to its last, each with four blanks for every block
around it. -/
def listing : Outline → Nat → List String
  | line text, depth => [indented depth text]
  | block opening inner, depth =>
    indented depth opening :: (listingAll inner (depth + 1) ++ [indented depth "\x7d"])

def listingAll : List Outline → Nat → List String
  | [], _ => []
  | o :: os, depth => o.listing depth ++ listingAll os depth

end

mutual

/-- All blocks of an outline: how many blocks are around each, how it opens, and what is in it. -/
def blocks : Outline → Nat → List (Nat × String × List Outline)
  | line _, _ => []
  | block opening inner, depth => (depth, opening, inner) :: blocksAll inner (depth + 1)

def blocksAll : List Outline → Nat → List (Nat × String × List Outline)
  | [], _ => []
  | o :: os, depth => o.blocks depth ++ blocksAll os depth

end

variable {o : Outline} {inner os : List Outline} {depth : Nat} {opening text : String}

/-! ## Rows of outlines -/

theorem listingAll_append (os os' : List Outline) (depth : Nat) :
    listingAll (os ++ os') depth = listingAll os depth ++ listingAll os' depth := by
  induction os with
  | nil => rfl
  | cons o os ih => rw [List.cons_append, listingAll, listingAll, ih, List.append_assoc]

theorem listingAll_map_line (texts : List String) (depth : Nat) :
    listingAll (texts.map line) depth = texts.map (indented depth) := by
  induction texts with
  | nil => rfl
  | cons text texts ih =>
    rw [List.map_cons, listingAll, ih]
    rfl

theorem mem_listingAll {l : String} :
    l ∈ listingAll os depth ↔ ∃ o ∈ os, l ∈ o.listing depth := by
  induction os with
  | nil => simp [listingAll]
  | cons o os ih => simp [listingAll, ih]

/-! ## Braces -/

mutual

/-- Nothing in an outline stands further out than the outline. -/
theorem exists_indented : ∀ (o : Outline) (depth : Nat), ∀ l ∈ o.listing depth,
    ∃ k text, depth ≤ k ∧ l = indented k text
  | line text, depth, l, hl => ⟨depth, text, Nat.le_refl _, List.mem_singleton.mp hl⟩
  | block opening inner, depth, l, hl => by
    rw [listing, List.mem_cons, List.mem_append, List.mem_singleton] at hl
    rcases hl with rfl | hl | rfl
    · exact ⟨depth, opening, Nat.le_refl _, rfl⟩
    · obtain ⟨k, text, hk, htext⟩ := exists_indented_all inner (depth + 1) l hl
      exact ⟨k, text, by omega, htext⟩
    · exact ⟨depth, _, Nat.le_refl _, rfl⟩

theorem exists_indented_all : ∀ (os : List Outline) (depth : Nat), ∀ l ∈ listingAll os depth,
    ∃ k text, depth ≤ k ∧ l = indented k text
  | [], _, _, hl => absurd hl List.not_mem_nil
  | o :: os, depth, l, hl => by
    rw [listingAll, List.mem_append] at hl
    rcases hl with hl | hl
    · exact exists_indented o depth l hl
    · exact exists_indented_all os depth l hl

end

/-- A brace stands further out than what is in the block that it closes. -/
theorem brace_ne_indented {k : Nat} (h : depth < k) (text : String) :
    indented depth "\x7d" ≠ indented k text := by
  intro heq
  have hblanks : List.replicate (4 * k) ' ' =
      List.replicate (4 * depth) ' ' ++ ' ' :: List.replicate (4 * k - 4 * depth - 1) ' ' := by
    rw [← List.replicate_succ, List.replicate_append_replicate]
    congr 1
    omega
  have hchars := congrArg String.toList heq
  simp only [indented, String.toList_append, String.toList_ofList, hblanks, List.append_assoc,
    List.append_cancel_left_eq, List.cons_append] at hchars
  exact absurd (List.cons.inj hchars).1 (by decide)

theorem brace_notMem_listingAll (inner : List Outline) (depth : Nat) :
    indented depth "\x7d" ∉ listingAll inner (depth + 1) := by
  intro hmem
  obtain ⟨k, text, hk, heq⟩ := exists_indented_all inner (depth + 1) _ hmem
  exact brace_ne_indented hk text heq

mutual

/-- The lines of every block stand together in the text. -/
theorem infix_of_mem_blocks : ∀ (o : Outline) (depth : Nat) {k : Nat} {opening : String}
    {inner : List Outline}, (k, opening, inner) ∈ o.blocks depth →
    (block opening inner).listing k <:+: o.listing depth
  | line _, _, _, _, _, h => absurd h List.not_mem_nil
  | block opening inner, depth, k, opening', inner', h => by
    rw [blocks, List.mem_cons] at h
    rcases h with h | h
    · cases h
      exact List.infix_rfl
    · have hin := infixAll_of_mem_blocks inner (depth + 1) h
      rw [listing.eq_2 depth opening inner]
      exact hin.trans ((List.prefix_append _ _).isInfix.trans (List.suffix_cons _ _).isInfix)

theorem infixAll_of_mem_blocks : ∀ (os : List Outline) (depth : Nat) {k : Nat} {opening : String}
    {inner : List Outline}, (k, opening, inner) ∈ blocksAll os depth →
    (block opening inner).listing k <:+: listingAll os depth
  | [], _, _, _, _, h => absurd h List.not_mem_nil
  | o :: os, depth, k, opening, inner, h => by
    rw [blocksAll, List.mem_append] at h
    rw [listingAll]
    rcases h with h | h
    · exact (infix_of_mem_blocks o depth h).trans (List.prefix_append _ _).isInfix
    · exact (infixAll_of_mem_blocks os depth h).trans (List.suffix_append _ _).isInfix

end

/-- A block is closed by the next brace at its depth, behind all lines in it. -/
theorem closed_of_mem_blocks (h : (depth, opening, inner) ∈ o.blocks 0) :
    ∃ before after, o.listing 0 = before ++ indented depth opening ::
        (listingAll inner (depth + 1) ++ indented depth "\x7d" :: after) ∧
      indented depth "\x7d" ∉ listingAll inner (depth + 1) := by
  obtain ⟨before, after, htext⟩ := infix_of_mem_blocks o 0 h
  refine ⟨before, after, ?_, brace_notMem_listingAll inner depth⟩
  rw [← htext, listing]
  simp

end Outline

/-! ## Lines of a text -/

namespace Text

/-- A text without a line break. -/
def IsLine (s : String) : Prop := '\n' ∉ s.toList

instance (s : String) : Decidable (IsLine s) := inferInstanceAs (Decidable ('\n' ∉ s.toList))

@[simp] theorem isLine_append {s t : String} : IsLine (s ++ t) ↔ IsLine s ∧ IsLine t := by
  simp [IsLine]

@[simp] theorem isLine_toString (n : Nat) : IsLine (toString n) := by
  intro hmem
  rw [Nat.toString_eq_repr, Nat.toList_repr] at hmem
  exact absurd (Nat.isDigit_of_mem_toDigits (by decide) (by decide) hmem) (by decide)

theorem isLine_intercalate {s : String} (hs : IsLine s) {texts : List String}
    (h : ∀ t ∈ texts, IsLine t) : IsLine (String.intercalate s texts) := by
  induction texts with
  | nil => simp [IsLine]
  | cons t texts ih =>
    rw [List.forall_mem_cons] at h
    cases texts with
    | nil => simpa using h.1
    | cons u texts =>
      rw [String.intercalate_cons_cons, isLine_append, isLine_append]
      exact ⟨⟨h.1, hs⟩, ih h.2⟩

theorem isLine_indented {s : String} (h : IsLine s) (depth : Nat) : IsLine (indented depth s) := by
  rw [indented, isLine_append]
  refine ⟨fun hmem => ?_, h⟩
  rw [String.toList_ofList] at hmem
  exact absurd (List.eq_of_mem_replicate hmem) (by decide)

/-- Lines that are joined come apart again where the text breaks. -/
theorem splitOn_join {lines : List String} (hne : lines ≠ []) (h : ∀ l ∈ lines, IsLine l) :
    (String.intercalate "\n" lines).toList.splitOn '\n' = lines.map String.toList := by
  rw [String.toList_intercalate]
  refine List.splitOn_intercalate '\n' ?_ (by simpa using hne)
  intro cs hcs
  obtain ⟨l, hl, rfl⟩ := List.mem_map.mp hcs
  exact h l hl

/-- Writing each line with a line break leaves one more at the end than joining the lines. -/
theorem join_map_newline {lines : List String} (hne : lines ≠ []) :
    String.join (lines.map (· ++ "\n")) = String.intercalate "\n" lines ++ "\n" := by
  induction lines with
  | nil => exact absurd rfl hne
  | cons l lines ih =>
    cases lines with
    | nil => simp [String.join]
    | cons next lines =>
      rw [List.map_cons, String.join_cons, ih (List.cons_ne_nil _ _),
        String.intercalate_cons_cons, String.append_assoc, String.append_assoc, String.append_assoc]

/-- Trimming ends at the last character that is not blank. -/
theorem trimEnd_append (s : String) {c : Char} (h : isBlank c = false) {blanks : List Char}
    (hblanks : ∀ b ∈ blanks, isBlank b = true) :
    trimEnd (s ++ String.ofList (c :: blanks)) = s ++ String.ofList [c] := by
  have hdrop : (blanks.reverse ++ c :: s.toList.reverse).dropWhile isBlank =
      c :: s.toList.reverse := by
    rw [List.dropWhile_append_of_pos fun b hb => hblanks b (List.mem_reverse.mp hb),
      List.dropWhile_cons_of_neg (by simp [h])]
  have hreverse : (s ++ String.ofList (c :: blanks)).toList.reverse =
      blanks.reverse ++ c :: s.toList.reverse := by simp
  rw [trimEnd, hreverse, hdrop, ← String.toList_inj]
  simp

end Text

/-- An outline that is written without other line breaks than those between its lines. -/
def Outline.OneLine (o : Outline) : Prop :=
  ∀ depth, ∀ l ∈ o.listing depth, IsLine l

theorem Outline.oneLine_line {text : String} (h : IsLine text) : (line text).OneLine := by
  intro depth l hl
  obtain rfl := List.mem_singleton.mp hl
  exact isLine_indented h depth

theorem Outline.oneLine_block {opening : String} {inner : List Outline} (h : IsLine opening)
    (hinner : ∀ o ∈ inner, o.OneLine) : (block opening inner).OneLine := by
  intro depth l hl
  rw [listing, List.mem_cons, List.mem_append, List.mem_singleton] at hl
  rcases hl with rfl | hl | rfl
  · exact isLine_indented h depth
  · obtain ⟨o, ho, hl⟩ := mem_listingAll.mp hl
    exact hinner o ho (depth + 1) l hl
  · exact isLine_indented (by decide) depth

end SceneDiagram
