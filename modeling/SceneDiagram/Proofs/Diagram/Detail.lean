import Mathlib.Data.List.Basic
import SceneDiagram.Proofs.Diagram.Coverage

/-!
# Showing more

Two options ask a diagram to show what it leaves out otherwise: properties whose type is no entity,
and plain methods. They only ever add. The items that a facet lists without them come in the same
order with them (`items_sublist`), so whatever has something to show still has, and what is reached
through drawable entities is still reached. Nothing that is drawn disappears (`diagram_grows`).
-/

namespace SceneDiagram

/-! ## Sorting more -/

section Sorting

variable {α : Type} {le : α → α → Bool} {l l' : List α}
  (trans : ∀ a b c, le a b = true → le b c = true → le a c = true)
  (total : ∀ a b, (le a b || le b a) = true)

include trans total in
/-- Sorting with one element more at the front puts it before those that it is not above. -/
theorem mergeSort_cons_eq (a : α) (l : List α) :
    (a :: l).mergeSort le =
      (l.mergeSort le).filter (! le a ·) ++ a :: (l.mergeSort le).filter (le a ·) := by
  obtain ⟨before, after, hcons, hold, hbefore⟩ := List.mergeSort_cons trans total a l
  have hsorted := List.pairwise_mergeSort trans total (a :: l)
  rw [hcons, List.pairwise_append, List.pairwise_cons] at hsorted
  have hafter : ∀ b ∈ after, le a b = true := hsorted.2.1.1
  have hbelow : before.filter (le a ·) = [] := by
    simpa [List.filter_eq_nil_iff] using hbefore
  have habove : after.filter (! le a ·) = [] := by
    simpa [List.filter_eq_nil_iff] using hafter
  rw [hcons, hold, List.filter_append, List.filter_append, List.filter_eq_self.mpr hbefore,
    List.filter_eq_self.mpr hafter, hbelow, habove, List.append_nil, List.nil_append]

include trans total in
/-- Sorting keeps the elements of a shorter list in their order among more. -/
theorem mergeSort_sublist (h : l.Sublist l') : (l.mergeSort le).Sublist (l'.mergeSort le) := by
  induction h with
  | slnil => exact List.Sublist.refl _
  | @cons l l' a _ ih =>
    obtain ⟨before, after, hcons, hold, -⟩ := List.mergeSort_cons trans total a l'
    rw [hold] at ih
    rw [hcons]
    exact ih.trans ((List.sublist_cons_self a after).append_left before)
  | @cons_cons l l' a _ ih =>
    rw [mergeSort_cons_eq trans total, mergeSort_cons_eq trans total]
    exact (ih.filter _).append ((ih.filter _).cons_cons a)

end Sorting

theorem Facet.sortByName_sublist {items items' : List FacetItem} (h : items.Sublist items') :
    (sortByName items).Sublist (sortByName items') := by
  refine mergeSort_sublist ?_ ?_ h
  · intro a b c hab hbc
    simp only [decide_eq_true_eq] at hab hbc ⊢
    exact String.le_trans hab hbc
  · intro a b
    simpa using String.le_total _ _

/-- Options that ask for nothing that others do not ask for. -/
structure Options.Within (o o' : Options) : Prop where
  members : o.showAllMembers = true → o'.showAllMembers = true
  methods : o.showAllMethods = true → o'.showAllMethods = true

/-- A context with other options. -/
def DiagramContext.withOptions (ctx : DiagramContext) (options : Options) : DiagramContext :=
  { ctx with options }

namespace Drawing

variable (ctx : DiagramContext) {facets : List Facet} {o o' : Options} {x c e r : Entity}

/-! ## What facets list -/

theorem propertyItems_sublist (h : o.Within o') (d : Declaration) :
    (Facet.propertyItems (ctx.withOptions o) e d).Sublist
      (Facet.propertyItems (ctx.withOptions o') e d) := by
  refine Facet.sortByName_sublist (List.monotone_filter_right _ fun item => ?_)
  simp only [Bool.or_eq_true]
  exact Or.imp_left h.members

theorem methodItems_sublist (h : o.Within o') (d : Declaration) :
    (Facet.methodItems (ctx.withOptions o) e d).Sublist
      (Facet.methodItems (ctx.withOptions o') e d) := by
  unfold Facet.methodItems
  split
  · next hshown =>
    have hshown' : (ctx.withOptions o').options.showAllMethods = true := h.methods hshown
    rw [if_pos hshown']
    exact List.Sublist.refl _
  · exact List.nil_sublist _

theorem ofDeclaration_sublist {items items' : Declaration → List FacetItem}
    (h : ∀ d, (items d).Sublist (items' d)) :
    (Facet.ofDeclaration e items).Sublist (Facet.ofDeclaration e items') := by
  unfold Facet.ofDeclaration
  cases e.declaration with
  | none => exact List.Sublist.refl _
  | some d => exact h d

/-- With more options every facet lists what it listed before, in the same order. -/
theorem items_sublist (h : o.Within o') (f : Facet) (e : Entity) :
    (f.items (ctx.withOptions o) e).Sublist (f.items (ctx.withOptions o') e) := by
  cases f with
  | properties => exact ofDeclaration_sublist (propertyItems_sublist ctx h)
  | methods => exact ofDeclaration_sublist (methodItems_sublist ctx h)
  | _ => exact List.Sublist.refl _

/-! ## What is drawn -/

variable {ctx}

theorem Drawable.grows (h : o.Within o') (hc : Drawable (ctx.withOptions o) facets x c) :
    Drawable (ctx.withOptions o') facets x c := by
  obtain ⟨hne, f, hf, ⟨item, hitem, htarget⟩, hdraws⟩ := hc
  refine ⟨hne, f, hf, ⟨item, (items_sublist ctx h f x).subset hitem, htarget⟩, ?_⟩
  refine hdraws.imp_right fun ⟨hnesting, g, hg, hcontent⟩ => ⟨hnesting, g, hg, fun hnone => ?_⟩
  exact hcontent (List.sublist_nil.mp (hnone ▸ items_sublist ctx h g c))

theorem Reaches.grows (h : o.Within o') (hx : Reaches (ctx.withOptions o) facets e x) :
    Reaches (ctx.withOptions o') facets e x :=
  Relation.ReflTransGen.mono (fun _ _ => Drawable.grows h) _ _ hx

/-- A diagram shows the entities that are reached from its own. -/
theorem mem_names_diagram_iff (hr : r ∈ ctx.index.entities) {name : String} :
    name ∈ (r.diagram ctx facets).classes.map (·.name) ↔
      ∃ x, Reaches ctx facets r x ∧ x.name = name := by
  obtain ⟨xs, hclasses, -, hxs⟩ := exists_drawn facets hr
  rw [hclasses, List.map_map]
  simp only [List.mem_map, hxs]
  rfl

/-- With options that show more, no facet lists less: the items that it listed stay, with what they
refer to and in their order. And no diagram shows fewer entities. -/
theorem diagram_grows (ctx : DiagramContext) (facets : List Facet) {o o' : Options}
    (h : o.Within o') :
    (∀ (f : Facet) e, (f.items (ctx.withOptions o) e).Sublist (f.items (ctx.withOptions o') e)) ∧
    ∀ r ∈ ctx.index.entities,
      (r.diagram (ctx.withOptions o) facets).classes.map (·.name) ⊆
        (r.diagram (ctx.withOptions o') facets).classes.map (·.name) := by
  refine ⟨items_sublist ctx h, fun r hr name hname => ?_⟩
  have hless : r ∈ (ctx.withOptions o).index.entities := hr
  have hmore : r ∈ (ctx.withOptions o').index.entities := hr
  obtain ⟨x, hx, rfl⟩ := (mem_names_diagram_iff hless).mp hname
  exact (mem_names_diagram_iff hmore).mpr ⟨x, hx.grows h, rfl⟩

/-- A game is drawn with its map, and still is when every member is shown. -/
theorem diagram_grows_map :
    let less := Cycle.project.withOptions ⟨false, false, false⟩
    let more := Cycle.project.withOptions ⟨false, true, true⟩
    let facets := Facet.registry Facet.all
    (Options.mk false false false).Within ⟨false, true, true⟩ ∧
      Cycle.game ∈ Cycle.project.index.entities ∧
      (Facet.properties.items less Cycle.game).Sublist (Facet.properties.items more Cycle.game) ∧
      "Map" ∈ (Cycle.game.diagram less facets).classes.map (·.name) ∧
      "Map" ∈ (Cycle.game.diagram more facets).classes.map (·.name) := by
  intro less more facets
  have hwithin : (Options.mk false false false).Within ⟨false, true, true⟩ := ⟨nofun, nofun⟩
  have hgame : Cycle.game ∈ less.index.entities := Cycle.game_mem
  have hmap : "Map" ∈ (Cycle.game.diagram less facets).classes.map (·.name) :=
    (mem_names_diagram_iff hgame).mpr ⟨Cycle.map, .single Cycle.drawable.1, by decide⟩
  obtain ⟨hitems, hnames⟩ := diagram_grows Cycle.project facets hwithin
  exact ⟨hwithin, Cycle.game_mem, hitems .properties Cycle.game, hmap,
    hnames Cycle.game Cycle.game_mem hmap⟩

end Drawing

end SceneDiagram
