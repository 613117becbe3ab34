import Mathlib.Logic.Relation
import SceneDiagram.Proofs.Diagram.Layout
import SceneDiagram.Proofs.Diagram.Traversal

/-!
# Which entities a diagram shows

A diagram shows the entities that are reached from its own through drawable ones, each once. Two
rules cut a drawing short: an entity that encloses another is not its child again, and an entity
that is drawn is passed over. Neither loses an entity, since what encloses another is drawn itself.
-/

namespace SceneDiagram.Drawing

variable {ctx : DiagramContext} {facets : List Facet} {e : Entity} {es : List Entity}
  {enclosing drawn last : List String} {blocks nested : List Block}

/-- An entity is reached from another through drawable ones. -/
abbrev Reaches (ctx : DiagramContext) (facets : List Facet) : Entity → Entity → Prop :=
  Relation.ReflTransGen (Drawable ctx facets)

theorem Reaches.mem {x : Entity} (h : Reaches ctx facets e x) (he : e ∈ ctx.index.entities) :
    x ∈ ctx.index.entities := by
  cases h with
  | refl => exact he
  | tail _ hlast => exact hlast.mem

/-- What a traversal has drawn when it ends: entities `xs`, whose classes are those of the blocks,
which were reached from the given ones, and beyond which nothing drawable is left out. -/
structure Covers (ctx : DiagramContext) (facets : List Facet) (es : List Entity)
    (drawn : List String) (blocks : List Block) (last : List String) (xs : List Entity) : Prop where
  classes : Block.classesAll blocks = xs.map (classBlock ctx facets)
  names : last.Perm (xs.map Entity.name ++ drawn)
  unique : drawn.Nodup → last.Nodup
  reached : ∀ x ∈ xs, ∃ e ∈ es, Reaches ctx facets e x
  closed : ∀ x ∈ xs, ∀ c, Drawable ctx facets x c → c.name ∈ last
  given : ∀ e ∈ es, e.name ∈ last

theorem Covers.mem_last {xs : List Entity} {name : String}
    (h : Covers ctx facets es drawn blocks last xs) (hname : name ∈ drawn) : name ∈ last :=
  h.names.mem_iff.mpr (List.mem_append_right _ hname)

theorem classes_enclose (hnested : children ctx facets e enclosing = [] → nested = []) :
    (enclose ctx facets e enclosing nested).classes =
      classBlock ctx facets e :: Block.classesAll nested := by
  unfold enclose
  split
  · next h =>
    rw [hnested h]
    rfl
  · rfl

/-! ## What each rule covers -/

variable {xs ys : List Entity} {mid : List String}

theorem Covers.done : Covers ctx facets [] drawn [] drawn [] where
  classes := rfl
  names := List.Perm.refl _
  unique := id
  reached := by simp
  closed := by simp
  given := by simp

/-- What is drawn already is covered without being drawn again. -/
theorem Covers.skip (hdrawn : e.name ∈ drawn) (h : Covers ctx facets es drawn blocks last xs) :
    Covers ctx facets (e :: es) drawn blocks last xs where
  classes := h.classes
  names := h.names
  unique := h.unique
  reached x hx := by
    obtain ⟨y, hy, hreach⟩ := h.reached x hx
    exact ⟨y, List.mem_cons_of_mem e hy, hreach⟩
  closed := h.closed
  given x hx := by
    rcases List.mem_cons.mp hx with rfl | hx
    · exact h.mem_last hdrawn
    · exact h.given x hx

/-- The names after an entity, what is nested in it and what follows it have been drawn. -/
theorem names_draw (hxs : mid.Perm (xs.map Entity.name ++ e.name :: drawn))
    (hys : last.Perm (ys.map Entity.name ++ mid)) :
    last.Perm ((e :: (xs ++ ys)).map Entity.name ++ drawn) := by
  have hmid : (xs.map Entity.name ++ e.name :: drawn).Perm
      (e.name :: (xs.map Entity.name ++ drawn)) := List.perm_middle
  calc
    last.Perm (ys.map Entity.name ++ mid) := hys
    List.Perm _ (ys.map Entity.name ++ e.name :: (xs.map Entity.name ++ drawn)) :=
      (hxs.trans hmid).append_left _
    List.Perm _ (e.name :: (ys.map Entity.name ++ (xs.map Entity.name ++ drawn))) :=
      List.perm_middle
    List.Perm _ (e.name :: (xs.map Entity.name ++ (ys.map Entity.name ++ drawn))) :=
      List.Perm.cons _ (List.perm_append_comm_assoc _ _ _)
    List.Perm _ ((e :: (xs ++ ys)).map Entity.name ++ drawn) := by
      rw [List.map_cons, List.map_append, List.cons_append, List.append_assoc]

/-- An entity is covered with what is nested in it and with what follows it. An entity around it
that is drawable from it is no child of it, but has been drawn before. -/
theorem Covers.draw (he : e ∈ ctx.index.entities) (hnot : e.name ∉ drawn)
    (henc : ∀ name ∈ enclosing, name ∈ drawn)
    (hnone : children ctx facets e enclosing = [] → nested = [])
    (hxs : Covers ctx facets (children ctx facets e enclosing) (e.name :: drawn) nested mid xs)
    (hys : Covers ctx facets es mid blocks last ys) :
    Covers ctx facets (e :: es) drawn (enclose ctx facets e enclosing nested :: blocks) last
      (e :: (xs ++ ys)) where
  classes := by
    rw [Block.classesAll, classes_enclose hnone, hxs.classes, hys.classes, List.map_cons,
      List.map_append, List.cons_append]
  names := names_draw hxs.names hys.names
  unique hdrawn := hys.unique (hxs.unique (List.nodup_cons.mpr ⟨hnot, hdrawn⟩))
  reached x hx := by
    rcases List.mem_cons.mp hx with rfl | hx
    · exact ⟨x, List.mem_cons_self, .refl⟩
    rcases List.mem_append.mp hx with hx | hx
    · obtain ⟨c, hc, hreach⟩ := hxs.reached x hx
      exact ⟨e, List.mem_cons_self, .head ((mem_children_iff he).mp hc).1 hreach⟩
    · obtain ⟨y, hy, hreach⟩ := hys.reached x hx
      exact ⟨y, List.mem_cons_of_mem e hy, hreach⟩
  closed x hx c hc := by
    rcases List.mem_cons.mp hx with rfl | hx
    · by_cases hin : c.name ∈ enclosing
      · exact hys.mem_last (hxs.mem_last (List.mem_cons_of_mem _ (henc _ hin)))
      · exact hys.mem_last (hxs.given c ((mem_children_iff he).mpr ⟨hc, hin⟩))
    rcases List.mem_append.mp hx with hx | hx
    · exact hys.mem_last (hxs.closed x hx c hc)
    · exact hys.closed x hx c hc
  given x hx := by
    rcases List.mem_cons.mp hx with rfl | hx
    · exact hys.mem_last (hxs.mem_last List.mem_cons_self)
    · exact hys.given x hx

/-- A traversal covers the entities that it is given, if everything around them is drawn already.
The induction is on the rules. -/
theorem Traversal.covers (h : Traversal ctx facets es enclosing drawn blocks last)
    (hes : ∀ e ∈ es, e ∈ ctx.index.entities) (henc : ∀ name ∈ enclosing, name ∈ drawn) :
    ∃ xs, Covers ctx facets es drawn blocks last xs := by
  induction h with
  | done => exact ⟨[], .done⟩
  | @skip e es enclosing drawn last blocks hdrawn _ ih =>
    obtain ⟨xs, hxs⟩ := ih (fun x hx => hes x (List.mem_cons_of_mem e hx)) henc
    exact ⟨xs, hxs.skip hdrawn⟩
  | @draw e es enclosing drawn mid last nested blocks hnot hnested _ ihnested ihrest =>
    have hinside : ∀ name ∈ e.name :: enclosing, name ∈ e.name :: drawn := by
      intro name hname
      rcases List.mem_cons.mp hname with rfl | hname
      · exact List.mem_cons_self
      · exact List.mem_cons_of_mem _ (henc name hname)
    obtain ⟨xs, hxs⟩ := ihnested (fun c hc => mem_of_mem_children hc) hinside
    obtain ⟨ys, hys⟩ := ihrest (fun x hx => hes x (List.mem_cons_of_mem e hx)) fun name hname =>
      hxs.mem_last (List.mem_cons_of_mem _ (henc name hname))
    have hnone : children ctx facets e enclosing = [] → nested = [] := fun h =>
      Traversal.nested_eq_nil (h ▸ hnested)
    exact ⟨e :: (xs ++ ys), .draw (hes e List.mem_cons_self) hnot henc hnone hxs hys⟩

/-- What an entity is drawn with: the entities of a diagram, in the order of their classes. -/
theorem exists_drawn (facets : List Facet) (he : e ∈ ctx.index.entities) :
    ∃ xs : List Entity,
      (e.diagram ctx facets).classes = xs.map (classBlock ctx facets) ∧
      (xs.map Entity.name).Nodup ∧ ∀ x, x ∈ xs ↔ Reaches ctx facets e x := by
  obtain ⟨last, htrav⟩ := traversal_iff.mpr (rfl : e.diagram ctx facets = _)
  obtain ⟨xs, hxs⟩ := htrav.covers (fun x hx => List.mem_singleton.mp hx ▸ he) (by simp)
  have hnames : last.Perm (xs.map Entity.name) := by
    simpa only [List.append_nil] using hxs.names
  have hin : ∀ x ∈ xs, Reaches ctx facets e x := by
    intro x hx
    obtain ⟨y, hy, hreach⟩ := hxs.reached x hx
    rwa [List.mem_singleton.mp hy] at hreach
  have hback : ∀ x ∈ ctx.index.entities, x.name ∈ last → x ∈ xs := by
    intro x hmem hx
    obtain ⟨y, hy, heq⟩ := List.mem_map.mp (hnames.mem_iff.mp hx)
    rwa [← EntityIndex.eq_of_name_eq ((hin y hy).mem he) hmem heq]
  refine ⟨xs, ?_, hnames.nodup_iff.mp (hxs.unique List.nodup_nil), fun x => ⟨hin x, fun h => ?_⟩⟩
  · simpa only [Block.classesAll, List.append_nil] using hxs.classes
  · induction h with
    | refl => exact hback e he (hxs.given e List.mem_cons_self)
    | tail _ hstep ih => exact hback _ hstep.mem (hxs.closed _ ih _ hstep)

/-! ## Two entities that refer to each other -/

namespace Cycle

/-- A game that has a map. -/
def game : Entity := ⟨.file "src/Game.cs", some ⟨"Game", .classType, "src/Game.cs", 1, [],
  [.property ⟨"Main", "IMap", 5, [], false⟩], none, []⟩, none, none⟩

def map : Entity := ⟨.file "src/Map.cs", some ⟨"Map", .classType, "src/Map.cs", 1, [],
  [.property ⟨"Owner", "Game", 3, [], false⟩], none, []⟩, none, none⟩

def project : DiagramContext :=
  ⟨((EntityIndex.empty 'I').insert game (by decide +kernel)).insert map (by decide +kernel), .empty,
    .standard, ⟨false, false, false⟩, .relative 1⟩

theorem game_mem : game ∈ project.index.entities := by decide +kernel

/-- The game is drawn with its map, and the map with its game. -/
theorem drawable : Drawable project (Facet.registry Facet.all) game map ∧
    Drawable project (Facet.registry Facet.all) map game := by
  have hfacet : Facet.properties ∈ Facet.registry Facet.all := List.mem_mergeSort.mpr (by decide)
  have hmain : ⟨some map, "IMap", some "Main", 5⟩ ∈ Facet.properties.items project game :=
    mem_ofDeclaration.mpr ⟨_, rfl, mem_sortByName.mpr (by decide +kernel)⟩
  have howner : ⟨some game, "Game", some "Owner", 3⟩ ∈ Facet.properties.items project map :=
    mem_ofDeclaration.mpr ⟨_, rfl, mem_sortByName.mpr (by decide +kernel)⟩
  constructor
  · exact ⟨by decide +kernel, _, hfacet, ⟨_, hmain, rfl⟩,
      .inr ⟨rfl, _, hfacet, List.ne_nil_of_mem howner⟩⟩
  · exact ⟨by decide +kernel, _, hfacet, ⟨_, howner, rfl⟩,
      .inr ⟨rfl, _, hfacet, List.ne_nil_of_mem hmain⟩⟩

end Cycle

/-! ## The entities of a diagram -/

/-- Drawing an entity is a traversal of what is drawable from it. It comes to an end with just one
diagram, whatever the references are. The classes written in the diagram are those of the entities
that are reached from the given one, itself included, and no class is written twice. -/
theorem diagram_shows_reachable (ctx : DiagramContext) (facets : List Facet) {r : Entity}
    (hr : r ∈ ctx.index.entities) :
    (∀ b, (∃ last, Traversal ctx facets [r] [] [] [b] last) ↔ b = r.diagram ctx facets) ∧
      (r.diagram ctx facets).text 0 =
        ((r.diagram ctx facets).pieces 0).flatMap (fun p => p.1.text p.2) ∧
      ∃ xs : List Entity,
        ((r.diagram ctx facets).pieces 0).filterMap (·.1.class?) =
          xs.map (classBlock ctx facets) ∧
        (xs.map Entity.name).Nodup ∧ ∀ x, x ∈ xs ↔ Reaches ctx facets r x := by
  refine ⟨fun b => traversal_iff, Block.text_eq_pieces _ 0, ?_⟩
  rw [← Block.classes_eq_pieces]
  exact exists_drawn facets hr

/-- Drawing the game ends, with the game and its map in it, each once. -/
theorem diagram_shows_reachable_cycle :
    Cycle.game ∈ Cycle.project.index.entities ∧
      ∃ xs : List Entity,
        ((Cycle.game.diagram Cycle.project (Facet.registry Facet.all)).pieces 0).filterMap
            (·.1.class?) = xs.map (classBlock Cycle.project (Facet.registry Facet.all)) ∧
        (xs.map Entity.name).Nodup ∧ Cycle.game ∈ xs ∧ Cycle.map ∈ xs := by
  obtain ⟨_, _, xs, hclasses, hunique, hxs⟩ :=
    diagram_shows_reachable Cycle.project (Facet.registry Facet.all) Cycle.game_mem
  exact ⟨Cycle.game_mem, xs, hclasses, hunique, (hxs Cycle.game).mpr .refl,
    (hxs Cycle.map).mpr (.single Cycle.drawable.1)⟩

end SceneDiagram.Drawing
