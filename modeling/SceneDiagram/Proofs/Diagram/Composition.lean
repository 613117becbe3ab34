import SceneDiagram.Proofs.Diagram.Coverage
import SceneDiagram.Proofs.Keyed

/-!
# Which arrows a diagram draws

The block of every entity of a diagram is `enclose` at some place, and there is one for each entity
(`exists_placed`). So all arrows that leave from an entity stand in its own package, at the end, and
lead to the drawable entities that do not enclose it: one arrow for each, whether the block of the
other entity is nested there, was drawn before, or is referred to by several facets.
-/

namespace SceneDiagram.Drawing

variable {ctx : DiagramContext} {facets : List Facet} {r x c e : Entity} {es : List Entity}
  {enclosing drawn last : List String} {blocks nested : List Block}

/-! ## The block of an entity -/

theorem arrows_enclose : (enclose ctx facets e enclosing nested).arrows =
    (children ctx facets e enclosing).map (arrow ctx facets e enclosing) := by
  unfold enclose
  split
  · next h => rw [h]; rfl
  · rfl

theorem isPackage_enclose : (enclose ctx facets e enclosing nested).isPackage = true ↔
    (enclose ctx facets e enclosing nested).arrows ≠ [] := by
  rw [arrows_enclose]
  unfold enclose
  split
  · next h => simp [h, Block.isPackage]
  · next h => simpa [Block.isPackage] using h

theorem parent_of_mem_arrows {a : Arrow}
    (h : a ∈ (enclose ctx facets e enclosing nested).arrows) : a.parent = e.name := by
  rw [arrows_enclose] at h
  obtain ⟨c, _, rfl⟩ := List.mem_map.mp h
  rfl

/-- The blocks of an entity's block: those nested in it, then the block itself. -/
theorem placed_enclose (hnested : children ctx facets e enclosing = [] → nested = []) :
    (enclose ctx facets e enclosing nested).placed enclosing =
      Block.placedAll nested (e.name :: enclosing) ++
        [(enclosing, enclose ctx facets e enclosing nested)] := by
  unfold enclose
  split
  · next h =>
    rw [hnested h]
    rfl
  · rfl

/-- Every block that a traversal draws is the block of an entity at its place. -/
theorem Traversal.exists_enclose (h : Traversal ctx facets es enclosing drawn blocks last)
    (hes : ∀ e ∈ es, e ∈ ctx.index.entities) {p : List String × Block}
    (hp : p ∈ Block.placedAll blocks enclosing) :
    ∃ x ∈ ctx.index.entities, ∃ nested, p.2 = enclose ctx facets x p.1 nested := by
  induction h with
  | done => exact absurd hp List.not_mem_nil
  | skip _ _ ih => exact ih (fun x hx => hes x (List.mem_cons_of_mem _ hx)) hp
  | @draw e es enclosing drawn mid last nested blocks _ hnested _ ihnested ihrest =>
    have hnone : children ctx facets e enclosing = [] → nested = [] := fun h =>
      Traversal.nested_eq_nil (h ▸ hnested)
    rw [Block.placedAll, placed_enclose hnone, List.mem_append, List.mem_append,
      List.mem_singleton] at hp
    rcases hp with (hp | rfl) | hp
    · exact ihnested (fun c hc => mem_of_mem_children hc) hp
    · exact ⟨e, hes e List.mem_cons_self, nested, rfl⟩
    · exact ihrest (fun x hx => hes x (List.mem_cons_of_mem _ hx)) hp

/-! ## The blocks of a diagram -/

/-- Every block of a diagram is the block of an entity that is reached from its own. -/
theorem exists_reached (hr : r ∈ ctx.index.entities) {p : List String × Block}
    (hp : p ∈ (r.diagram ctx facets).placed []) :
    ∃ x, Reaches ctx facets r x ∧ ∃ nested, p.2 = enclose ctx facets x p.1 nested := by
  obtain ⟨last, htrav⟩ := traversal_iff.mpr (rfl : r.diagram ctx facets = _)
  obtain ⟨x, hx, nested, heq⟩ := htrav.exists_enclose (p := p)
    (fun e he => List.mem_singleton.mp he ▸ hr)
    (by rwa [Block.placedAll, Block.placedAll, List.append_nil])
  obtain ⟨xs, hclasses, _, hxs⟩ := exists_drawn facets hr
  refine ⟨x, ?_, nested, heq⟩
  have hown : p.2.own ∈ (r.diagram ctx facets).classes :=
    (Block.placed_own_perm _ []).mem_iff.mp (List.mem_map_of_mem hp)
  rw [heq, own_enclose, hclasses] at hown
  obtain ⟨y, hy, hclass⟩ := List.mem_map.mp hown
  have hreach := (hxs y).mp hy
  rwa [EntityIndex.eq_of_name_eq (hreach.mem hr) hx (congrArg ClassBlock.name hclass)] at hreach

/-- Every arrow of a diagram leaves from the block of an entity, for one of its children there. -/
theorem exists_arrow (hr : r ∈ ctx.index.entities) {a : Arrow}
    (ha : a ∈ (r.diagram ctx facets).relationships) :
    ∃ x enclosing nested c, Reaches ctx facets r x ∧ c ∈ children ctx facets x enclosing ∧
      a = arrow ctx facets x enclosing c ∧
      (enclosing, enclose ctx facets x enclosing nested) ∈ (r.diagram ctx facets).placed [] := by
  rw [Block.relationships_eq_placed] at ha
  obtain ⟨p, hp, ha⟩ := List.mem_flatMap.mp ha
  obtain ⟨x, hx, nested, heq⟩ := exists_reached hr hp
  rw [heq, arrows_enclose] at ha
  obtain ⟨c, hc, rfl⟩ := List.mem_map.mp ha
  exact ⟨x, p.1, nested, c, hx, hc, rfl, heq ▸ hp⟩

/-- The arrows to the children of the entity of a diagram are in it. -/
theorem arrow_mem_relationships (h : c ∈ children ctx facets r []) :
    arrow ctx facets r [] c ∈ (r.diagram ctx facets).relationships := by
  rw [Block.relationships_eq_placed]
  refine List.mem_flatMap.mpr ⟨_, Block.mem_placed _ [], ?_⟩
  rw [Entity.diagram, (draw_eq ctx facets r [] _).1, arrows_enclose]
  exact List.mem_map_of_mem h

/-- The blocks of a diagram show the entities that are reached from its own, each once. -/
theorem placed_names (facets : List Facet) (hr : r ∈ ctx.index.entities) :
    (((r.diagram ctx facets).placed []).map (·.2.own.name)).Nodup ∧
      ∀ x, Reaches ctx facets r x →
        x.name ∈ ((r.diagram ctx facets).placed []).map (·.2.own.name) := by
  obtain ⟨xs, hclasses, hunique, hxs⟩ := exists_drawn facets hr
  have hperm : (((r.diagram ctx facets).placed []).map (·.2.own.name)).Perm
      (xs.map Entity.name) := by
    have := (Block.placed_own_perm (r.diagram ctx facets) []).map ClassBlock.name
    rw [hclasses, List.map_map, List.map_map] at this
    exact this
  exact ⟨hperm.nodup_iff.mpr hunique, fun x hx =>
    hperm.mem_iff.mpr (List.mem_map_of_mem ((hxs x).mpr hx))⟩

theorem exists_placed (hr : r ∈ ctx.index.entities) (hx : Reaches ctx facets r x) :
    ∃ enclosing nested,
      ((r.diagram ctx facets).placed []).filter (·.2.own.name == x.name) =
        [(enclosing, enclose ctx facets x enclosing nested)] := by
  obtain ⟨hunique, hnames⟩ := placed_names facets hr
  obtain ⟨⟨enclosing, b⟩, hp, hname⟩ := List.mem_map.mp (hnames x hx)
  obtain ⟨y, hy, nested, heq⟩ := exists_reached hr hp
  replace heq : b = enclose ctx facets y enclosing nested := heq
  replace hname : b.own.name = x.name := hname
  have hsame : y = x := by
    apply EntityIndex.eq_of_name_eq (hy.mem hr) (hx.mem hr)
    rw [← hname, heq, own_enclose]
    rfl
  rw [hsame] at heq
  refine ⟨enclosing, nested, ?_⟩
  rw [← heq, ← hname]
  exact Keyed.filter_eq_singleton hunique hp

/-- The arrows that leave from an entity are those of its block. -/
theorem relationships_filter (hr : r ∈ ctx.index.entities) {b : Block}
    (hb : ((r.diagram ctx facets).placed []).filter (·.2.own.name == x.name) =
      [(enclosing, b)]) :
    (r.diagram ctx facets).relationships.filter (·.parent == x.name) = b.arrows := by
  have hown : ∀ p ∈ (r.diagram ctx facets).placed [], p.2.arrows.filter (·.parent == x.name) =
      if p.2.own.name = x.name then p.2.arrows else [] := by
    intro p hp
    obtain ⟨y, _, nested, heq⟩ := exists_reached hr hp
    have hparent : ∀ a ∈ p.2.arrows, a.parent = p.2.own.name := by
      intro a ha
      rw [heq, own_enclose]
      exact parent_of_mem_arrows (heq ▸ ha)
    split
    · next h => exact List.filter_eq_self.mpr fun a ha => by rw [hparent a ha, h, BEq.rfl]
    · next h =>
      rw [List.filter_eq_nil_iff]
      intro a ha heq
      exact h ((hparent a ha).symm.trans (eq_of_beq heq))
  rw [Block.relationships_eq_placed, List.filter_flatMap, List.flatMap_congr hown,
    Keyed.flatMap_filter, hb, List.flatMap_singleton]

/-- The arrows of an entity to one that is drawable from it: one, unless the other encloses it. -/
theorem arrows_filter_child (hx : x ∈ ctx.index.entities) (hc : Drawable ctx facets x c) :
    (enclose ctx facets x enclosing nested).arrows.filter (·.child == c.name) =
      if c.name ∈ enclosing then [] else [arrow ctx facets x enclosing c] := by
  have hmap : ((children ctx facets x enclosing).map (arrow ctx facets x enclosing)).filter
      (·.child == c.name) = ((children ctx facets x enclosing).filter
        (·.name == c.name)).map (arrow ctx facets x enclosing) := List.filter_map
  rw [arrows_enclose, hmap]
  split
  · next hin =>
    rw [List.map_eq_nil_iff, List.filter_eq_nil_iff]
    intro y hy heq
    have hsame := EntityIndex.eq_of_name_eq (mem_of_mem_children hy) hc.mem (eq_of_beq heq)
    exact ((mem_children_iff hx).mp hy).2 (hsame ▸ hin)
  · next hnot =>
    have hchild := (mem_children_iff hx).mpr ⟨hc, hnot⟩
    rw [Keyed.filter_eq_singleton (children_nodup ctx facets x enclosing) hchild,
      List.map_singleton]

/-! ## The arrows of a diagram -/

/-- How a diagram shows an entity: by the block `b`, inside the packages named by `enclosing`. -/
structure Shows (ctx : DiagramContext) (facets : List Facet) (d : Block) (x : Entity)
    (enclosing : List String) (b : Block) : Prop where
  /-- The entity has this block and no other. -/
  placed : (d.placed []).filter (·.2.own.name == x.name) = [(enclosing, b)]
  /-- All arrows that leave from the entity are those of its block. -/
  leaving : d.relationships.filter (·.parent == x.name) = b.arrows
  /-- One arrow leads to each drawable entity, but none to those whose packages are around. -/
  joined : ∀ c, Drawable ctx facets x c → b.arrows.filter (·.child == c.name) =
    if c.name ∈ enclosing then [] else [arrow ctx facets x enclosing c]
  /-- The entity is a package if arrows leave from it. -/
  package : b.isPackage = true ↔ ∃ a ∈ d.relationships, a.parent = x.name
  /-- The arrows come in the order in which the facets first refer to the other entities with a
  reference that asks for drawing. -/
  ordered : (b.arrows.map (·.child)).Pairwise fun a b =>
    ((references ctx facets x).map Entity.name).idxOf a <
      ((references ctx facets x).map Entity.name).idxOf b
  /-- The arrows are written behind all that is nested, just before the package ends. -/
  trailing : b.isPackage = true → ∃ kind link nested, ∀ depth, b.pieces depth =
    (.opening x.name kind link, depth) :: (.shown b.own, depth + 1) ::
      (Block.piecesAll nested (depth + 1) ++
        b.arrows.map (fun a => (.relationship a, depth + 1)) ++ [(.closing, depth)])
  /-- The block is written as one part of the diagram. -/
  written : b.pieces enclosing.length <:+: d.pieces 0

/-- The arrows of a diagram lead from the entities that it shows to those that are drawable from
them and do not enclose them: one arrow for each such pair and no other arrows. They stand at the
end of the package of the entity that they leave from, in the order of the references. -/
theorem diagram_joins_drawable (ctx : DiagramContext) (facets : List Facet) {r : Entity}
    (hr : r ∈ ctx.index.entities) :
    (r.diagram ctx facets).text 0 =
      ((r.diagram ctx facets).pieces 0).flatMap (fun p => p.1.text p.2) ∧
    (∀ a ∈ (r.diagram ctx facets).relationships, ∃ x c, Reaches ctx facets r x ∧
      Drawable ctx facets x c ∧ a.parent = x.name ∧ a.child = c.name) ∧
    ∀ x, Reaches ctx facets r x →
      ∃ enclosing b, Shows ctx facets (r.diagram ctx facets) x enclosing b := by
  refine ⟨Block.text_eq_pieces _ 0, fun a ha => ?_, fun x hx => ?_⟩
  · rw [Block.relationships_eq_placed] at ha
    obtain ⟨p, hp, ha⟩ := List.mem_flatMap.mp ha
    obtain ⟨x, hx, nested, heq⟩ := exists_reached hr hp
    rw [heq, arrows_enclose] at ha
    obtain ⟨c, hc, rfl⟩ := List.mem_map.mp ha
    exact ⟨x, c, hx, ((mem_children_iff (hx.mem hr)).mp hc).1, rfl, rfl⟩
  · obtain ⟨enclosing, nested, hplaced⟩ := exists_placed hr hx
    have hleaving := relationships_filter hr hplaced
    have hmem := List.mem_of_mem_filter (hplaced ▸ List.mem_singleton_self _)
    refine ⟨enclosing, _, hplaced, hleaving, fun c hc => arrows_filter_child (hx.mem hr) hc, ?_, ?_,
      ?_, Block.pieces_infix_of_mem_placed _ [] hmem⟩
    · rw [isPackage_enclose, ← hleaving, ne_eq, List.filter_eq_nil_iff]
      simp only [beq_iff_eq, not_forall, not_not, exists_prop]
    · rw [arrows_enclose, List.map_map]
      exact children_pairwise ctx facets x enclosing
    · unfold enclose
      intro hpackage
      split at hpackage
      · cases hpackage
      · exact ⟨_, _, nested, fun depth => rfl⟩

/-- The diagram of the game shows both the game and its map with their arrows. -/
theorem diagram_joins_drawable_cycle :
    Cycle.game ∈ Cycle.project.index.entities ∧
      ∀ x ∈ [Cycle.game, Cycle.map], ∃ enclosing b, Shows Cycle.project (Facet.registry Facet.all)
        (Cycle.game.diagram Cycle.project (Facet.registry Facet.all)) x enclosing b := by
  refine ⟨Cycle.game_mem, fun x hx => ?_⟩
  apply (diagram_joins_drawable Cycle.project (Facet.registry Facet.all) Cycle.game_mem).2.2 x
  rcases List.mem_cons.mp hx with rfl | hx
  · exact .refl
  · rw [List.mem_singleton.mp hx]
    exact .single Cycle.drawable.1

end SceneDiagram.Drawing
