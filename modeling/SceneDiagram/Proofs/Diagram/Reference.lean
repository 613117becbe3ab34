import Mathlib.Data.List.Nodup
import SceneDiagram.Diagram.Drawing
import SceneDiagram.Proofs.Entity.Lookup

/-!
# Which entities an entity is drawn with

`Drawable x c` says that the facets of `x` ask for `c` to be drawn, apart from any diagram. The
children of `x` inside some entities are just the drawable ones that do not enclose it
(`mem_children_iff`), each once, in the order in which the facets first refer to them
(`children_pairwise`).
-/

namespace SceneDiagram.Drawing

variable {ctx : DiagramContext} {facets : List Facet} {e x c t : Entity} {item : FacetItem}

/-! ## References of facets -/

/-- The facets of a class are listed in the order of their tiers. -/
theorem registry_all : Facet.registry Facet.all = Facet.all :=
  List.mergeSort_of_pairwise (by decide)

theorem mem_ofDeclaration {items : Declaration → List FacetItem} :
    item ∈ Facet.ofDeclaration e items ↔ ∃ d, e.declaration = some d ∧ item ∈ items d := by
  unfold Facet.ofDeclaration
  cases e.declaration <;> simp

theorem mem_sortByName {items : List FacetItem} : item ∈ Facet.sortByName items ↔ item ∈ items :=
  List.mem_mergeSort

/-- The nodes that are listed are those whose type is the name of another entity. -/
theorem mem_items_nodes : item ∈ Facet.nodes.items ctx e ↔
    ∃ tree, e.scene? = some tree ∧ ∃ node ∈ tree.nodes, ∃ typeName,
      node.typeName = some typeName ∧ ∃ t, ctx.index.lookup? typeName = some t ∧
        t.name ≠ e.name ∧ item = ⟨some t, typeName, some node.name, node.line⟩ := by
  simp only [Facet.items]
  cases e.scene? with
  | none => simp
  | some tree =>
    simp only [Option.map_some, Option.getD_some, Facet.nodeItems, List.mem_filterMap,
      Option.bind_eq_some_iff, Option.map_eq_some_iff, Mention.other?, Option.filter_eq_some_iff,
      bne_iff_ne, Option.some.injEq, exists_eq_left', and_assoc, eq_comm (a := item)]

/-- A facet refers to a related entity only if the type name means it. -/
theorem eq_some_of_related? {relation : Relation} {target : Option Entity}
    (h : Facet.related? ctx e relation target = some t) : target = some t :=
  (Option.filter_eq_some_iff.mp h).1

/-- The items of every facet refer to entities of the index only. -/
theorem mem_of_target {f : Facet} (hitem : item ∈ f.items ctx e) (ht : item.target = some t) :
    t ∈ ctx.index.entities := by
  cases f with
  | dependencies =>
    obtain ⟨d, _, hitem⟩ := mem_ofDeclaration.mp hitem
    obtain ⟨p, _, rfl⟩ := List.mem_map.mp hitem
    exact EntityIndex.mem_of_resolve? (eq_some_of_related? ht)
  | provisions =>
    obtain ⟨d, _, hitem⟩ := mem_ofDeclaration.mp hitem
    obtain ⟨m, _, hm⟩ := List.mem_filterMap.mp hitem
    obtain ⟨provided, _, rfl⟩ := Option.map_eq_some_iff.mp hm
    exact EntityIndex.mem_of_resolve? (eq_some_of_related? ht)
  | interfaceProperties =>
    obtain ⟨d, _, hitem⟩ := mem_ofDeclaration.mp hitem
    obtain ⟨p, _, rfl⟩ := List.mem_map.mp (mem_sortByName.mp hitem)
    have htype : ctx.index.resolve? p.typeName = some t := ht
    exact EntityIndex.mem_of_resolve? htype
  | properties =>
    obtain ⟨d, _, hitem⟩ := mem_ofDeclaration.mp hitem
    obtain ⟨p, _, rfl⟩ := List.mem_map.mp (List.mem_of_mem_filter (mem_sortByName.mp hitem))
    have htype : ctx.index.resolve? p.typeName = some t := ht
    exact EntityIndex.mem_of_resolve? htype
  | constructors =>
    obtain ⟨d, _, hitem⟩ := mem_ofDeclaration.mp hitem
    obtain ⟨l, _, hitem⟩ := List.mem_flatMap.mp hitem
    unfold Facet.parameterItems at hitem
    split at hitem
    · rw [List.mem_singleton.mp hitem] at ht
      cases ht
    · obtain ⟨q, _, rfl⟩ := List.mem_map.mp hitem
      have htype : ctx.index.resolve? q.typeName = some t := ht
      exact EntityIndex.mem_of_resolve? htype
  | nodes =>
    obtain ⟨_, _, _, _, _, _, target, hfound, _, rfl⟩ := mem_items_nodes.mp hitem
    cases ht
    exact (EntityIndex.mem_of_lookup? hfound).1
  | interfaceMethods =>
    obtain ⟨d, _, hitem⟩ := mem_ofDeclaration.mp hitem
    obtain ⟨m, _, rfl⟩ := List.mem_map.mp (mem_sortByName.mp hitem)
    cases ht
  | methods =>
    obtain ⟨d, _, hitem⟩ := mem_ofDeclaration.mp hitem
    unfold Facet.methodItems at hitem
    split at hitem
    · obtain ⟨m, _, rfl⟩ := List.mem_map.mp (mem_sortByName.mp hitem)
      cases ht
    · cases hitem

/-- The facets of `x` ask for another entity `c` to be drawn: a facet that always nests refers to
it, or one that nests what has content does and some facet lists an item of `c`. -/
def Drawable (ctx : DiagramContext) (facets : List Facet) (x c : Entity) : Prop :=
  c ≠ x ∧ ∃ f ∈ facets, (∃ item ∈ f.items ctx x, item.target = some c) ∧
    (f.nesting = .always ∨
      f.nesting = .withContent ∧ ∃ g ∈ facets, g.items ctx c ≠ [])

theorem draws_iff {f : Facet} : draws ctx facets f c = true ↔
    f.nesting = .always ∨ f.nesting = .withContent ∧ ∃ g ∈ facets, g.items ctx c ≠ [] := by
  unfold draws hasContent
  cases f.nesting <;> simp

theorem mem_references_iff : c ∈ references ctx facets x ↔
    ∃ f ∈ facets, (∃ item ∈ f.items ctx x, item.target = some c) ∧
      (f.nesting = .always ∨
        f.nesting = .withContent ∧ ∃ g ∈ facets, g.items ctx c ≠ []) := by
  simp only [references, List.mem_flatMap, List.mem_filter, List.mem_filterMap, draws_iff]

theorem mem_of_mem_references (h : c ∈ references ctx facets x) : c ∈ ctx.index.entities := by
  obtain ⟨f, _, ⟨item, hitem, ht⟩, _⟩ := mem_references_iff.mp h
  exact mem_of_target hitem ht

theorem Drawable.mem (h : Drawable ctx facets x c) : c ∈ ctx.index.entities := by
  obtain ⟨_, f, _, ⟨item, hitem, ht⟩, _⟩ := h
  exact mem_of_target hitem ht

/-! ## The first of each name -/

variable {seen : List String} {es : List Entity}

theorem firstOfEachName_sublist (seen : List String) (es : List Entity) :
    (firstOfEachName seen es).Sublist es := by
  induction es generalizing seen with
  | nil => exact List.nil_sublist _
  | cons e es ih =>
    unfold firstOfEachName
    split
    · exact (ih seen).cons e
    · exact (ih (e.name :: seen)).cons_cons e

/-- A name stays if it occurs and was not there before. -/
theorem mem_names_firstOfEachName {name : String} :
    name ∈ (firstOfEachName seen es).map Entity.name ↔
      name ∈ es.map Entity.name ∧ name ∉ seen := by
  induction es generalizing seen with
  | nil => simp [firstOfEachName]
  | cons e es ih =>
    unfold firstOfEachName
    split
    · next h =>
      rw [ih, List.map_cons, List.mem_cons]
      constructor
      · rintro ⟨hmem, hnot⟩
        exact ⟨.inr hmem, hnot⟩
      · rintro ⟨rfl | hmem, hnot⟩
        · exact absurd (List.mem_of_elem_eq_true h) hnot
        · exact ⟨hmem, hnot⟩
    · next h =>
      rw [List.map_cons, List.mem_cons, ih, List.map_cons, List.mem_cons, List.mem_cons, not_or]
      constructor
      · rintro (rfl | ⟨hmem, _, hnot⟩)
        · exact ⟨.inl rfl, fun hseen => h (List.elem_eq_true_of_mem hseen)⟩
        · exact ⟨.inr hmem, hnot⟩
      · rintro ⟨rfl | hmem, hnot⟩
        · exact .inl rfl
        · by_cases heq : name = e.name
          · exact .inl heq
          · exact .inr ⟨hmem, heq, hnot⟩

/-- What stays comes in the order in which each name occurs first. -/
theorem firstOfEachName_pairwise (seen : List String) (es : List Entity) :
    ((firstOfEachName seen es).map Entity.name).Pairwise fun a b =>
      (es.map Entity.name).idxOf a < (es.map Entity.name).idxOf b := by
  induction es generalizing seen with
  | nil => exact List.Pairwise.nil
  | cons e es ih =>
    -- behind `e`, a name that stays and is not its own stands one place further back
    have hback : ∀ {seen : List String}, e.name ∈ seen →
        ∀ a ∈ (firstOfEachName seen es).map Entity.name,
          ((e :: es).map Entity.name).idxOf a = (es.map Entity.name).idxOf a + 1 := by
      intro seen hseen a ha
      have hne : e.name ≠ a := fun heq => (mem_names_firstOfEachName.mp ha).2 (heq ▸ hseen)
      rw [List.map_cons, List.idxOf_cons_ne _ hne]
    have hkeep : ∀ {seen : List String}, e.name ∈ seen →
        ((firstOfEachName seen es).map Entity.name).Pairwise fun a b =>
          ((e :: es).map Entity.name).idxOf a < ((e :: es).map Entity.name).idxOf b := by
      intro seen hseen
      refine (ih seen).imp_of_mem fun {a b} ha hb hlt => ?_
      rw [hback hseen a ha, hback hseen b hb]
      exact Nat.succ_lt_succ hlt
    unfold firstOfEachName
    split
    · next h => exact hkeep (List.mem_of_elem_eq_true h)
    · refine List.pairwise_cons.mpr ⟨fun b hb => ?_, hkeep List.mem_cons_self⟩
      rw [hback List.mem_cons_self b hb, List.map_cons, List.idxOf_cons_self]
      exact Nat.succ_pos _

/-! ## Children -/

variable {enclosing : List String}

/-- The children of an entity are the drawable ones that do not enclose it. -/
theorem mem_children_iff (hx : x ∈ ctx.index.entities) :
    c ∈ children ctx facets x enclosing ↔ Drawable ctx facets x c ∧ c.name ∉ enclosing := by
  unfold children Drawable
  rw [← mem_references_iff]
  constructor
  · intro hc
    have hname := mem_names_firstOfEachName.mp (List.mem_map_of_mem (f := Entity.name) hc)
    rw [List.mem_cons, not_or] at hname
    refine ⟨⟨?_, (firstOfEachName_sublist _ _).subset hc⟩, hname.2.2⟩
    rintro rfl
    exact hname.2.1 rfl
  · rintro ⟨⟨hne, href⟩, hnot⟩
    have hc := mem_of_mem_references href
    have hname : c.name ∉ x.name :: enclosing := by
      rw [List.mem_cons, not_or]
      exact ⟨fun h => hne (EntityIndex.eq_of_name_eq hc hx h), hnot⟩
    obtain ⟨c', hc', heq⟩ := List.mem_map.mp
      (mem_names_firstOfEachName.mpr ⟨List.mem_map_of_mem href, hname⟩)
    have hmem := mem_of_mem_references ((firstOfEachName_sublist _ _).subset hc')
    rw [← EntityIndex.eq_of_name_eq hmem hc heq]
    exact hc'

theorem mem_of_mem_children (h : c ∈ children ctx facets x enclosing) :
    c ∈ ctx.index.entities :=
  mem_of_mem_references ((firstOfEachName_sublist _ _).subset h)

/-- The children come in the order in which the facets first refer to them. -/
theorem children_pairwise (ctx : DiagramContext) (facets : List Facet) (x : Entity)
    (enclosing : List String) :
    ((children ctx facets x enclosing).map Entity.name).Pairwise fun a b =>
      ((references ctx facets x).map Entity.name).idxOf a <
        ((references ctx facets x).map Entity.name).idxOf b :=
  firstOfEachName_pairwise _ _

theorem children_nodup (ctx : DiagramContext) (facets : List Facet) (x : Entity)
    (enclosing : List String) :
    ((children ctx facets x enclosing).map Entity.name).Nodup := by
  refine (children_pairwise ctx facets x enclosing).imp fun {a b} hlt heq => ?_
  rw [heq] at hlt
  exact Nat.lt_irrefl _ hlt

end SceneDiagram.Drawing
