import Mathlib.Data.List.Basic
import SceneDiagram.Diagram.Block

/-!
# What the text of a diagram is put together from

The text of a block is a row of pieces: classes, arrows, and the first and last lines of packages
(`text_eq_pieces`). A block is also a set of blocks, each inside the packages around it (`placed`).
Both views agree on the classes and on the arrows of a diagram, and the pieces of every placed block
stand together in the row (`pieces_infix_of_mem_placed`).
-/

namespace SceneDiagram.Block

/-- A piece of the text of a diagram. -/
inductive Piece where
  | opening (name kind link : String)
  | shown (c : ClassBlock)
  | relationship (a : Arrow)
  | closing
deriving Repr

namespace Piece

def text : Piece → Nat → List String
  | opening name kind link, depth =>
    [indented depth ("package " ++ name ++ "-" ++ kind ++ " [[" ++ link ++ "]] \x7b")]
  | shown c, depth => c.text depth
  | relationship a, depth => [indented depth a.text]
  | closing, depth => [indented depth "\x7d"]

def class? : Piece → Option ClassBlock
  | shown c => some c
  | _ => none

def arrow? : Piece → Option Arrow
  | relationship a => some a
  | _ => none

end Piece

/-- The arrows of a package itself, without those of the blocks in it. -/
def arrows : Block → List Arrow
  | .single _ => []
  | package _ _ _ _ arrows => arrows

mutual

/-- The pieces of a block with their depths, in the order in which they are written. -/
def pieces : Block → Nat → List (Piece × Nat)
  | .single c, depth => [(.shown c, depth)]
  | package kind link own nested arrows, depth =>
    (.opening own.name kind link, depth) :: (.shown own, depth + 1) ::
      (piecesAll nested (depth + 1) ++ arrows.map (fun a => (.relationship a, depth + 1)) ++
        [(.closing, depth)])

def piecesAll : List Block → Nat → List (Piece × Nat)
  | [], _ => []
  | b :: bs, depth => b.pieces depth ++ piecesAll bs depth

end

mutual

/-- A block and all blocks in it, in the order in which they end, each with the names of the
packages around it, the innermost first. -/
def placed : Block → List String → List (List String × Block)
  | .single c, enclosing => [(enclosing, .single c)]
  | package kind link own nested arrows, enclosing =>
    placedAll nested (own.name :: enclosing) ++ [(enclosing, package kind link own nested arrows)]

def placedAll : List Block → List String → List (List String × Block)
  | [], _ => []
  | b :: bs, enclosing => b.placed enclosing ++ placedAll bs enclosing

end

/-- All arrows of a diagram, in the order in which they are written. -/
def relationships (b : Block) : List Arrow :=
  (b.pieces 0).filterMap (·.1.arrow?)

mutual

/-- The text of a block is the text of its pieces. -/
theorem text_eq_pieces :
    ∀ (b : Block) (depth : Nat), b.text depth = (b.pieces depth).flatMap fun p => p.1.text p.2
  | .single c, depth => by
    simp [text, pieces, Piece.text]
  | package kind link own nested arrows, depth => by
    have harrows : (arrows.map fun a => (Piece.relationship a, depth + 1)).flatMap
        (fun p => p.1.text p.2) = arrows.map fun a => indented (depth + 1) a.text := by
      rw [List.flatMap_map]
      exact List.flatMap_pure_eq_map _ _
    rw [text, pieces, textAll_eq_pieces nested (depth + 1), List.flatMap_cons, List.flatMap_cons,
      List.flatMap_append, List.flatMap_append, harrows]
    simp [Piece.text]

theorem textAll_eq_pieces :
    ∀ (bs : List Block) (depth : Nat),
      textAll bs depth = (piecesAll bs depth).flatMap fun p => p.1.text p.2
  | [], _ => rfl
  | b :: bs, depth => by
    rw [textAll, piecesAll, List.flatMap_append, text_eq_pieces b depth,
      textAll_eq_pieces bs depth]

end

private theorem filterMap_class?_arrows (arrows : List Arrow) (depth : Nat) :
    (arrows.map fun a => (Piece.relationship a, depth)).filterMap (·.1.class?) = [] := by
  simp [List.filterMap_map, Piece.class?]

mutual

/-- The classes of a block are the ones among its pieces. -/
theorem classes_eq_pieces :
    ∀ (b : Block) (depth : Nat), b.classes = (b.pieces depth).filterMap (·.1.class?)
  | .single _, _ => rfl
  | package kind link own nested arrows, depth => by
    rw [classes, classesAll_eq_pieces nested (depth + 1), pieces, List.filterMap_cons_none rfl]
    show _ = own :: List.filterMap _ (_ ++ _ ++ [(Piece.closing, depth)])
    rw [List.filterMap_append, List.filterMap_append, filterMap_class?_arrows, List.append_nil,
      List.filterMap_cons_none rfl, List.filterMap_nil, List.append_nil]

theorem classesAll_eq_pieces :
    ∀ (bs : List Block) (depth : Nat),
      classesAll bs = (piecesAll bs depth).filterMap (·.1.class?)
  | [], _ => rfl
  | b :: bs, depth => by
    rw [classesAll, piecesAll, List.filterMap_append, classes_eq_pieces b depth,
      classesAll_eq_pieces bs depth]

end

mutual

/-- The arrows among the pieces of a block are those of its placed blocks. -/
theorem filterMap_arrow?_pieces :
    ∀ (b : Block) (depth : Nat) (enclosing : List String),
      (b.pieces depth).filterMap (·.1.arrow?) = (b.placed enclosing).flatMap (·.2.arrows)
  | .single _, _, _ => rfl
  | package kind link own nested arrows, depth, enclosing => by
    have hown : (arrows.map fun a => (Piece.relationship a, depth + 1)).filterMap (·.1.arrow?) =
        arrows := by
      simp [List.filterMap_map, Piece.arrow?]
    rw [pieces, placed, List.filterMap_cons_none rfl, List.filterMap_cons_none rfl,
      List.filterMap_append, List.filterMap_append, hown, List.filterMap_cons_none rfl,
      List.filterMap_nil, List.append_nil, List.flatMap_append, List.flatMap_singleton,
      filterMap_arrow?_piecesAll nested (depth + 1) (own.name :: enclosing)]
    rfl

theorem filterMap_arrow?_piecesAll :
    ∀ (bs : List Block) (depth : Nat) (enclosing : List String),
      (piecesAll bs depth).filterMap (·.1.arrow?) =
        (placedAll bs enclosing).flatMap (·.2.arrows)
  | [], _, _ => rfl
  | b :: bs, depth, enclosing => by
    rw [piecesAll, placedAll, List.filterMap_append, List.flatMap_append,
      filterMap_arrow?_pieces b depth enclosing, filterMap_arrow?_piecesAll bs depth enclosing]

end

/-- A block is placed in itself. -/
theorem mem_placed (b : Block) (enclosing : List String) : (enclosing, b) ∈ b.placed enclosing := by
  cases b with
  | single => exact List.mem_singleton_self _
  | package => exact List.mem_append_right _ (List.mem_singleton_self _)

theorem relationships_eq_placed (b : Block) :
    b.relationships = (b.placed []).flatMap (·.2.arrows) :=
  filterMap_arrow?_pieces b 0 []

mutual

/-- The placed blocks of a block show its classes. -/
theorem placed_own_perm :
    ∀ (b : Block) (enclosing : List String),
      ((b.placed enclosing).map (·.2.own)).Perm b.classes
  | .single _, _ => List.Perm.refl _
  | package kind link own nested arrows, enclosing => by
    rw [placed, classes, List.map_append]
    exact (List.perm_append_singleton _ _).trans
      ((placedAll_own_perm nested (own.name :: enclosing)).cons own)

theorem placedAll_own_perm :
    ∀ (bs : List Block) (enclosing : List String),
      ((placedAll bs enclosing).map (·.2.own)).Perm (classesAll bs)
  | [], _ => List.Perm.refl _
  | b :: bs, enclosing => by
    rw [placedAll, classesAll, List.map_append]
    exact (placed_own_perm b enclosing).append (placedAll_own_perm bs enclosing)

end

mutual

/-- The pieces of a placed block stand together among those of the whole. -/
theorem pieces_infix_of_mem_placed :
    ∀ (b : Block) (enclosing : List String) {p : List String × Block},
      p ∈ b.placed enclosing → p.2.pieces p.1.length <:+: b.pieces enclosing.length
  | .single c, enclosing, p, h => by
    rw [placed, List.mem_singleton] at h
    exact h ▸ List.infix_rfl
  | package kind link own nested arrows, enclosing, p, h => by
    rw [placed, List.mem_append, List.mem_singleton] at h
    rcases h with h | rfl
    · have hin := pieces_infix_of_mem_placedAll nested (own.name :: enclosing) h
      rw [List.length_cons] at hin
      rw [pieces, List.append_assoc]
      exact hin.trans <| (List.prefix_append _ _).isInfix.trans <|
        (List.suffix_cons _ _).isInfix.trans (List.suffix_cons _ _).isInfix
    · exact List.infix_rfl

theorem pieces_infix_of_mem_placedAll :
    ∀ (bs : List Block) (enclosing : List String) {p : List String × Block},
      p ∈ placedAll bs enclosing → p.2.pieces p.1.length <:+: piecesAll bs enclosing.length
  | [], _, _, h => absurd h List.not_mem_nil
  | b :: bs, enclosing, p, h => by
    rw [placedAll, List.mem_append] at h
    rw [piecesAll]
    rcases h with h | h
    · exact (pieces_infix_of_mem_placed b enclosing h).trans (List.prefix_append _ _).isInfix
    · exact (pieces_infix_of_mem_placedAll bs enclosing h).trans
        (List.suffix_append _ _).isInfix

end

end SceneDiagram.Block
