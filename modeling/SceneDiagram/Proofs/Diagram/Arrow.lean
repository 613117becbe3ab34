import SceneDiagram.Project
import SceneDiagram.Proofs.Diagram.Composition

/-!
# What an arrow tells of the block that it leads to

The blocks of a diagram end in an order: what is nested in a package ends before it, and the arrows
of a package lead to blocks that have ended (`placed_pairwise`). So whatever is nested in a package
has ended when an arrow leads there, and cannot be around the other end of the arrow: every arrow to
a package is long. The converse fails where all that a block could nest encloses it. Such a block is
a class alone, but an arrow from outside is long (`diagram_tells_package`).
-/

namespace SceneDiagram.Drawing

variable {ctx : DiagramContext} {facets : List Facet} {r x c e : Entity} {es : List Entity}
  {enclosing drawn mid last : List String} {blocks nested : List Block} {b : Block}

/-! ## The order in which blocks end -/

/-- A block may end before another: it is not around the other, and no arrow of it leads there. -/
def EndsBefore (p q : List String × Block) : Prop :=
  p.2.own.name ∉ q.1 ∧ ∀ a ∈ p.2.arrows, a.child ≠ q.2.own.name

/-- How the blocks that a traversal draws lie to what was drawn before: each is new, has nothing
new around it but blocks of this traversal, and leads to what is drawn and ended afterwards. -/
structure Ends (enclosing drawn : List String) (ps : List (List String × Block))
    (last : List String) : Prop where
  kept : ∀ name ∈ drawn, name ∈ last
  fresh : ∀ p ∈ ps, p.2.own.name ∈ last ∧ p.2.own.name ∉ drawn
  around : ∀ p ∈ ps, ∀ name ∈ p.1, name ∈ enclosing ∨ name ∉ drawn
  leads : ∀ p ∈ ps, ∀ a ∈ p.2.arrows, a.child ∈ last ∧ a.child ∉ enclosing
  order : ps.Pairwise EndsBefore

theorem Ends.done : Ends enclosing drawn [] drawn where
  kept := fun _ h => h
  fresh := by simp
  around := by simp
  leads := by simp
  order := List.Pairwise.nil

/-- A block ends after what is nested in it and before what is drawn next. -/
theorem Ends.draw {ps qs : List (List String × Block)} (hnot : b.own.name ∉ drawn)
    (henc : ∀ name ∈ enclosing, name ∈ drawn)
    (hleads : ∀ a ∈ b.arrows, a.child ∈ mid ∧ a.child ∉ enclosing)
    (hps : Ends (b.own.name :: enclosing) (b.own.name :: drawn) ps mid)
    (hqs : Ends enclosing mid qs last) :
    Ends enclosing drawn (ps ++ (enclosing, b) :: qs) last := by
  have hmid : ∀ name ∈ drawn, name ∈ mid := fun name h =>
    hps.kept name (List.mem_cons_of_mem _ h)
  -- what is nested in the block and the block itself, as what is drawn next sees them
  have hbefore : ∀ p ∈ ps ++ [(enclosing, b)], p.2.own.name ∈ mid ∧ p.2.own.name ∉ drawn ∧
      ∀ a ∈ p.2.arrows, a.child ∈ mid ∧ a.child ∉ enclosing := by
    intro p hp
    rcases List.mem_append.mp hp with hp | hp
    · have hfresh := hps.fresh p hp
      exact ⟨hfresh.1, fun h => hfresh.2 (List.mem_cons_of_mem _ h), fun a ha =>
        ⟨(hps.leads p hp a ha).1, fun h => (hps.leads p hp a ha).2 (List.mem_cons_of_mem _ h)⟩⟩
    · rw [List.mem_singleton.mp hp]
      exact ⟨hps.kept _ List.mem_cons_self, hnot, hleads⟩
  have hsplit : ps ++ (enclosing, b) :: qs = (ps ++ [(enclosing, b)]) ++ qs := by
    rw [List.append_assoc, List.singleton_append]
  rw [hsplit]
  refine { kept := fun name h => hqs.kept name (hmid name h), fresh := fun p hp => ?fresh,
           around := fun p hp name hname => ?around, leads := fun p hp a ha => ?leads,
           order := List.pairwise_append.mpr ⟨List.pairwise_append.mpr ⟨hps.order,
             List.pairwise_singleton _ _, fun p hp q hq => ?inside⟩, hqs.order,
             fun p hp q hq => ?next⟩ }
  case fresh =>
    rcases List.mem_append.mp hp with hp | hp
    · exact ⟨hqs.kept _ (hbefore p hp).1, (hbefore p hp).2.1⟩
    · exact ⟨(hqs.fresh p hp).1, fun h => (hqs.fresh p hp).2 (hmid _ h)⟩
  case around =>
    rw [← hsplit] at hp
    rcases List.mem_append.mp hp with hp | hp
    · rcases hps.around p hp name hname with h | h
      · rcases List.mem_cons.mp h with rfl | h
        · exact .inr hnot
        · exact .inl h
      · exact .inr fun hin => h (List.mem_cons_of_mem _ hin)
    · rcases List.mem_cons.mp hp with rfl | hp
      · exact .inl hname
      · exact (hqs.around p hp name hname).imp_right fun h hin => h (hmid name hin)
  case leads =>
    rcases List.mem_append.mp hp with hp | hp
    · obtain ⟨hin, hout⟩ := (hbefore p hp).2.2 a ha
      exact ⟨hqs.kept _ hin, hout⟩
    · exact hqs.leads p hp a ha
  case inside =>
    rw [List.mem_singleton.mp hq]
    refine ⟨fun h => (hps.fresh p hp).2 (List.mem_cons_of_mem _ (henc _ h)), fun a ha heq => ?_⟩
    exact (hps.leads p hp a ha).2 (heq ▸ List.mem_cons_self)
  case next =>
    obtain ⟨hin, hnew, hto⟩ := hbefore p hp
    refine ⟨fun h => ?_, fun a ha heq => (hqs.fresh q hq).2 (heq ▸ (hto a ha).1)⟩
    rcases hqs.around q hq _ h with h | h
    · exact hnew (henc _ h)
    · exact h hin

theorem name_own_enclose : (enclose ctx facets e enclosing nested).own.name = e.name := by
  rw [own_enclose]
  rfl

/-- What is around an entity, and the entity itself, are no children of it. -/
theorem name_notMem_of_mem_children (h : c ∈ children ctx facets e enclosing) :
    c.name ∉ e.name :: enclosing :=
  (mem_names_firstOfEachName.mp (List.mem_map_of_mem h)).2

/-- The induction is on the rules of drawing: when an entity ends, its children are drawn, and none
of them is around it. -/
theorem Traversal.ends (h : Traversal ctx facets es enclosing drawn blocks last)
    (hes : ∀ e ∈ es, e ∈ ctx.index.entities) (henc : ∀ name ∈ enclosing, name ∈ drawn) :
    Ends enclosing drawn (Block.placedAll blocks enclosing) last := by
  induction h with
  | done => exact .done
  | skip _ _ ih => exact ih (fun x hx => hes x (List.mem_cons_of_mem _ hx)) henc
  | @draw e es enclosing drawn mid last nested blocks hnot hnested _ ihnested ihrest =>
    have hinside : ∀ name ∈ e.name :: enclosing, name ∈ e.name :: drawn := by
      intro name hname
      rcases List.mem_cons.mp hname with rfl | hname
      · exact List.mem_cons_self
      · exact List.mem_cons_of_mem _ (henc name hname)
    have hchildren : ∀ c ∈ children ctx facets e enclosing, c ∈ ctx.index.entities :=
      fun c hc => mem_of_mem_children hc
    have hnone : children ctx facets e enclosing = [] → nested = [] := fun h =>
      Traversal.nested_eq_nil (h ▸ hnested)
    obtain ⟨xs, hxs⟩ := hnested.covers hchildren hinside
    have hps := ihnested hchildren hinside
    have hqs := ihrest (fun x hx => hes x (List.mem_cons_of_mem _ hx)) fun name hname =>
      hps.kept name (List.mem_cons_of_mem _ (henc name hname))
    have hleads : ∀ a ∈ (enclose ctx facets e enclosing nested).arrows,
        a.child ∈ mid ∧ a.child ∉ enclosing := by
      intro a ha
      rw [arrows_enclose] at ha
      obtain ⟨c, hc, rfl⟩ := List.mem_map.mp ha
      exact ⟨hxs.given c hc, fun h => name_notMem_of_mem_children hc (List.mem_cons_of_mem _ h)⟩
    rw [Block.placedAll, placed_enclose hnone, List.append_assoc, List.singleton_append]
    have hname : (enclose ctx facets e enclosing nested).own.name = e.name := name_own_enclose
    rw [← hname] at hnot hps ⊢
    exact .draw hnot henc hleads hps hqs

/-- The blocks of a diagram stand in an order in which they end. -/
theorem placed_pairwise (facets : List Facet) (hr : r ∈ ctx.index.entities) :
    ((r.diagram ctx facets).placed []).Pairwise EndsBefore := by
  obtain ⟨last, htrav⟩ := traversal_iff.mpr (rfl : r.diagram ctx facets = _)
  have hends := htrav.ends (fun e he => List.mem_singleton.mp he ▸ hr) (by simp)
  simpa only [Block.placedAll, List.append_nil] using hends.order

/-! ## What has ended when an arrow leads there -/

/-- Of two blocks, the one that the other leads to comes first. -/
theorem lt_of_leads {ps : List (List String × Block)} (h : ps.Pairwise EndsBefore) {i j : Nat}
    {hi : i < ps.length} {hj : j < ps.length} (hne : i ≠ j) {a : Arrow} (ha : a ∈ ps[i].2.arrows)
    (hlead : a.child = ps[j].2.own.name) : j < i := by
  refine (Nat.lt_or_gt_of_ne hne).resolve_left fun hlt => ?_
  exact (List.pairwise_iff_getElem.mp h i j hi hj hlt).2 a ha hlead

/-- An arrow leads from `p` to a package that holds an arrow in turn. The block at the end of that
neither is `p` nor is around `p`: it has ended before the package, which has ended before `p`. -/
theorem name_notMem_of_leads {ps : List (List String × Block)} (h : ps.Pairwise EndsBefore)
    (unique : (ps.map (·.2.own.name)).Nodup) {p q s : List String × Block} (hp : p ∈ ps)
    (hq : q ∈ ps) (hs : s ∈ ps) {a a' : Arrow} (ha : a ∈ p.2.arrows)
    (hpq : a.child = q.2.own.name) (hne : q.2.own.name ≠ p.2.own.name) (ha' : a' ∈ q.2.arrows)
    (hqs : a'.child = s.2.own.name) (hne' : s.2.own.name ≠ q.2.own.name) :
    s.2.own.name ∉ p.2.own.name :: p.1 := by
  obtain ⟨i, hi, rfl⟩ := List.mem_iff_getElem.mp hp
  obtain ⟨j, hj, rfl⟩ := List.mem_iff_getElem.mp hq
  obtain ⟨k, hk, rfl⟩ := List.mem_iff_getElem.mp hs
  have hji : j < i := lt_of_leads h (fun heq => hne (by subst heq; rfl)) ha hpq
  have hkj : k < j := lt_of_leads h (fun heq => hne' (by subst heq; rfl)) ha' hqs
  have hki : k < i := Nat.lt_trans hkj hji
  rw [List.mem_cons, not_or]
  exact ⟨List.pairwise_iff_getElem.mp (List.pairwise_map.mp unique) k i hk hi hki,
    (List.pairwise_iff_getElem.mp h k i hk hi hki).1⟩

/-! ## The arrow and the block -/

theorem children_ne_nil_iff (hx : x ∈ ctx.index.entities) :
    children ctx facets x enclosing ≠ [] ↔
      ∃ t, Drawable ctx facets x t ∧ t.name ∉ enclosing := by
  constructor
  · intro h
    obtain ⟨t, ht⟩ := List.exists_mem_of_ne_nil _ h
    exact ⟨t, (mem_children_iff hx).mp ht⟩
  · rintro ⟨t, ht⟩
    exact List.ne_nil_of_mem ((mem_children_iff hx).mpr ht)

theorem isPackage_enclose_iff (hx : x ∈ ctx.index.entities) :
    (enclose ctx facets x enclosing nested).isPackage = true ↔
      ∃ t, Drawable ctx facets x t ∧ t.name ∉ enclosing := by
  rw [isPackage_enclose, arrows_enclose, ne_eq, List.map_eq_nil_iff, ← children_ne_nil_iff hx]

theorem long_arrow_iff (hc : c ∈ ctx.index.entities) :
    (arrow ctx facets x enclosing c).long = true ↔
      ∃ t, Drawable ctx facets c t ∧ t.name ∉ x.name :: enclosing := by
  rw [← children_ne_nil_iff hc]
  simp [arrow]

/-- Where an arrow leads from `x` to a package, something drawable from the entity of the package is
neither `x` nor around `x`. -/
theorem exists_outside_of_isPackage {outer : List String} {nestedx : List Block}
    (hr : r ∈ ctx.index.entities) (hx : Reaches ctx facets r x)
    (hp : (enclosing, enclose ctx facets x enclosing nestedx) ∈ (r.diagram ctx facets).placed [])
    (hc : c ∈ children ctx facets x enclosing)
    (hq : (outer, enclose ctx facets c outer nested) ∈ (r.diagram ctx facets).placed [])
    (hb : (enclose ctx facets c outer nested).isPackage = true) :
    ∃ t, Drawable ctx facets c t ∧ t.name ∉ x.name :: enclosing := by
  have hxc := ((mem_children_iff (hx.mem hr)).mp hc).1
  obtain ⟨t, hct, hout⟩ := (isPackage_enclose_iff hxc.mem).mp hb
  have ht : t ∈ children ctx facets c outer := (mem_children_iff hxc.mem).mpr ⟨hct, hout⟩
  obtain ⟨outer', nested', hplaced⟩ := exists_placed hr ((hx.tail hxc).tail hct)
  have hs := List.mem_of_mem_filter (hplaced ▸ List.mem_singleton_self _)
  have hfromx : arrow ctx facets x enclosing c ∈ (enclose ctx facets x enclosing nestedx).arrows :=
    arrows_enclose ▸ List.mem_map_of_mem hc
  have hfromc : arrow ctx facets c outer t ∈ (enclose ctx facets c outer nested).arrows :=
    arrows_enclose ▸ List.mem_map_of_mem ht
  have hcx : c.name ≠ x.name := fun heq =>
    name_notMem_of_mem_children hc (heq ▸ List.mem_cons_self)
  have htc : t.name ≠ c.name := fun heq =>
    name_notMem_of_mem_children ht (heq ▸ List.mem_cons_self)
  have hended := name_notMem_of_leads (placed_pairwise facets hr) (placed_names facets hr).1 hp hq hs
    hfromx name_own_enclose.symm (by rwa [name_own_enclose, name_own_enclose])
    hfromc name_own_enclose.symm (by rwa [name_own_enclose, name_own_enclose])
  rw [name_own_enclose, name_own_enclose] at hended
  exact ⟨t, hct, hended⟩

/-- What an arrow of a diagram tells. It leads from `x`, which is drawn inside `enclosing`, to `c`,
which the block `b` shows inside `outer`. -/
structure Tells (ctx : DiagramContext) (facets : List Facet) (d : Block) (a : Arrow) (x c : Entity)
    (enclosing outer : List String) (b : Block) : Prop where
  parent : a.parent = x.name
  child : a.child = c.name
  drawable : Drawable ctx facets x c
  /-- The arrow leaves from the block of `x`. -/
  leaving : ∃ p, (d.placed []).filter (·.2.own.name == x.name) = [(enclosing, p)] ∧ a ∈ p.arrows
  /-- The block is the one of `c`. -/
  placed : (d.placed []).filter (·.2.own.name == c.name) = [(outer, b)]
  /-- An arrow to a package is long. -/
  package : b.isPackage = true → a.long = true
  /-- Where the block is nested in that of `x`, a long arrow leads to a package. -/
  inside : outer = x.name :: enclosing → (a.long = true ↔ b.isPackage = true)
  /-- An arrow to a class alone is long only if all that is drawable from `c` encloses the block,
  and some of it is neither `x` nor around `x`. -/
  alone : b.isPackage = false → (∀ t, Drawable ctx facets c t → t.name ∈ outer) ∧
    (a.long = true ↔ ∃ t, Drawable ctx facets c t ∧ t.name ∉ x.name :: enclosing)

/-- Every arrow to a package is long. An arrow to a class alone is short, except where references
in a cycle are cut for the block and not for the arrow: where the entity could only nest what
encloses it, and the arrow comes from outside of that. -/
theorem diagram_tells_package (ctx : DiagramContext) (facets : List Facet) {r : Entity}
    (hr : r ∈ ctx.index.entities) :
    ∀ a ∈ (r.diagram ctx facets).relationships, ∃ x c enclosing outer b,
      Tells ctx facets (r.diagram ctx facets) a x c enclosing outer b := by
  intro a ha
  obtain ⟨x, enclosing, nestedx, c, hx, hc, rfl, hp⟩ := exists_arrow hr ha
  have hxc := ((mem_children_iff (hx.mem hr)).mp hc).1
  have hleave : arrow ctx facets x enclosing c ∈ (enclose ctx facets x enclosing nestedx).arrows :=
    arrows_enclose ▸ List.mem_map_of_mem hc
  obtain ⟨outer, nested, hplaced⟩ := exists_placed hr (hx.tail hxc)
  have hq := List.mem_of_mem_filter (hplaced ▸ List.mem_singleton_self _)
  refine ⟨x, c, enclosing, outer, enclose ctx facets c outer nested,
    { parent := rfl, child := rfl, drawable := hxc, placed := hplaced,
      leaving := ⟨enclose ctx facets x enclosing nestedx, ?leaving, hleave⟩,
      package := fun hb => ?package, inside := fun houter => ?inside,
      alone := fun hb => ⟨fun t hct => ?alone, long_arrow_iff hxc.mem⟩ }⟩
  case leaving =>
    have hname : (enclose ctx facets x enclosing nestedx).own.name = x.name := name_own_enclose
    rw [← hname]
    exact Keyed.filter_eq_singleton (placed_names facets hr).1 hp
  case package =>
    exact (long_arrow_iff hxc.mem).mpr (exists_outside_of_isPackage hr hx hp hc hq hb)
  case inside => rw [houter, long_arrow_iff hxc.mem, isPackage_enclose_iff hxc.mem]
  case alone =>
    by_contra hout
    rw [(isPackage_enclose_iff hxc.mem).mpr ⟨t, hct, hout⟩] at hb
    cases hb

/-! ## A hall and a garden that lead to each other -/

namespace House

def node (name typeName : String) (line : Nat) : Scene.Node :=
  ⟨name, some typeName, some ".", none, line⟩

def tree (name : String) (nodes : List Scene.Node) : Scene.Tree :=
  ⟨"scenes/" ++ name ++ ".tscn", ⟨name, some "Node3D", none, none, 3⟩, nodes⟩

/-- A house has a hall and a garden. -/
def houseTree : Scene.Tree := tree "House" [node "hall" "Hall" 6, node "garden" "Garden" 9]

def hallTree : Scene.Tree := tree "Hall" [node "garden" "Garden" 6]

def gardenTree : Scene.Tree := tree "Garden" [node "hall" "Hall" 6]

def house : Entity := .ofScene houseTree

def hall : Entity := .ofScene hallTree

def garden : Entity := .ofScene gardenTree

def model : Project.Model := Project.Model.build .standard [houseTree, hallTree, gardenTree] []

def context : DiagramContext :=
  ⟨model.index, model.graph, .standard, ⟨false, false, false⟩, .relative 1⟩

theorem house_mem : house ∈ model.index.entities := by decide

/-- The diagram of the house: the garden is reached first from the hall, which encloses it. -/
def diagram : Block :=
  enclose context Facet.all house [] [enclose context Facet.all hall ["House"]
    [enclose context Facet.all garden ["Hall", "House"] []]]

theorem diagram_eq : house.diagram context (Facet.registry Facet.all) = diagram := by
  have hhouse : children context Facet.all house [] = [hall, garden] := by decide
  have hhall : children context Facet.all hall ["House"] = [garden] := by decide
  have hgarden : children context Facet.all garden ["Hall", "House"] = [] := by decide
  have htrav : Traversal context Facet.all [house] [] [] [diagram] ["Garden", "Hall", "House"] := by
    refine .draw (by decide) (hhouse ▸ ?_) .done
    refine .draw (by decide) (hhall ▸ ?_) (.skip (by decide) .done)
    exact .draw (by decide) (hgarden ▸ .done) .done
  rw [registry_all]
  exact (traversal_iff.mp ⟨_, htrav⟩).symm

end House

/-- The arrow from the house to the hall tells of a package inside the house. -/
theorem diagram_tells_package_hall :
    House.house ∈ House.context.index.entities ∧
      ∃ a ∈ (House.house.diagram House.context (Facet.registry Facet.all)).relationships,
        a.text = "House::hall ---> Hall" ∧
          ∃ x c enclosing outer b, Tells House.context (Facet.registry Facet.all)
            (House.house.diagram House.context (Facet.registry Facet.all)) a x c enclosing outer
              b := by
  have ha : (⟨"House", "hall", true, "Hall"⟩ : Arrow) ∈
      (House.house.diagram House.context (Facet.registry Facet.all)).relationships := by
    rw [House.diagram_eq]
    decide +kernel
  exact ⟨House.house_mem, _, ha, by decide,
    diagram_tells_package House.context (Facet.registry Facet.all) House.house_mem _ ha⟩

/-- The garden is a class alone, since it could only nest the hall, which encloses it; but the arrow
from the house to the garden is long. -/
theorem long_arrow_to_class :
    (House.house.diagram House.context (Facet.registry Facet.all)).relationships.map Arrow.text =
        ["Hall::garden --> Garden", "House::hall ---> Hall", "House::garden ---> Garden"] ∧
      ((House.house.diagram House.context (Facet.registry Facet.all)).placed []).map
          (fun p => (p.2.own.name, p.2.isPackage)) =
        [("Garden", false), ("Hall", true), ("House", true)] := by
  rw [House.diagram_eq]
  constructor
  · decide +kernel
  · decide +kernel

end SceneDiagram.Drawing
