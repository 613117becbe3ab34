import Mathlib.Data.List.Count
import Mathlib.Data.List.Perm.Basic
import SceneDiagram.Proofs.Diagram.Containment

/-!
# Which members a class lists

Three sections list properties, and three list methods. Each has conditions of its own: whether a
property is injected, whether the interface names it, whether it overrides another. With everything
shown, the items of the sections come from the members of the declaration place by place
(`ComeFrom`), and each member that overrides nothing is listed once: the conditions leave no gap and
overlap only in an injected property that the interface names as well, which two sections list
(`members_listed`).
-/

namespace SceneDiagram

namespace Facet

/-! ## Items and the places of their members -/

section Places

variable {α : Type} {ms : List α} {lists : α → FacetItem → Prop} {items : List FacetItem}

/-- Items come from the members at the given places, one by one. -/
def ComeFrom (ms : List α) (lists : α → FacetItem → Prop) (items : List FacetItem)
    (places : List Nat) : Prop :=
  List.Forall₂ (fun item i => ∃ m, ms[i]? = some m ∧ lists m item) items places

theorem ComeFrom.exists_place {places : List Nat} (h : ComeFrom ms lists items places)
    {item : FacetItem} (hitem : item ∈ items) :
    ∃ i ∈ places, ∃ m, ms[i]? = some m ∧ lists m item := by
  induction h with
  | nil => cases hitem
  | @cons _ j _ places hhead _ ih =>
    rcases List.mem_cons.mp hitem with rfl | hitem
    · exact ⟨j, List.mem_cons_self, hhead⟩
    · obtain ⟨i, hi, hfrom⟩ := ih hitem
      exact ⟨i, List.mem_cons_of_mem j hi, hfrom⟩

/-- Items made of members in their order come from the places of those that make one. -/
theorem exists_places_filterMap (ms : List α) {entry : α → Option FacetItem}
    (hentry : ∀ m item, entry m = some item → lists m item) :
    ∃ places, ComeFrom ms lists (ms.filterMap entry) places ∧
      ∀ i m, ms[i]? = some m → places.count i = (entry m).isSome.toNat := by
  induction ms with
  | nil => exact ⟨[], .nil, nofun⟩
  | cons m ms ih =>
    obtain ⟨places, hitems, hcount⟩ := ih
    -- the places of the other members are one further on
    have hnext : ComeFrom (m :: ms) lists (ms.filterMap entry) (places.map (· + 1)) :=
      List.forall₂_map_right_iff.mpr hitems
    have hlater : ∀ i, (places.map (· + 1)).count (i + 1) = places.count i := fun i =>
      List.count_map_of_injective places (· + 1) Nat.succ_injective i
    have hzero : (places.map (· + 1)).count 0 = 0 := by simp [List.count_eq_zero]
    cases hm : entry m with
    | none =>
      refine ⟨places.map (· + 1), by rwa [List.filterMap_cons_none hm], fun i m' hm' => ?_⟩
      cases i with
      | zero =>
        obtain rfl : m = m' := Option.some.inj hm'
        rw [hzero, hm]
        rfl
      | succ i => rw [hlater, hcount i m' hm']
    | some item =>
      refine ⟨0 :: places.map (· + 1), ?_, fun i m' hm' => ?_⟩
      · rw [List.filterMap_cons_some hm]
        exact .cons ⟨m, rfl, hentry m item hm⟩ hnext
      cases i with
      | zero =>
        obtain rfl : m = m' := Option.some.inj hm'
        rw [List.count_cons_self, hzero, hm]
        rfl
      | succ i => rw [List.count_cons_of_ne (Nat.zero_ne_add_one i), hlater, hcount i m' hm']

/-- The order of the items does not matter. -/
theorem exists_places_perm (lists : α → FacetItem → Prop) {entry : α → Option FacetItem}
    (h : items.Perm (ms.filterMap entry))
    (hentry : ∀ m item, entry m = some item → lists m item) :
    ∃ places, ComeFrom ms lists items places ∧
      ∀ i m, ms[i]? = some m → places.count i = (entry m).isSome.toNat := by
  obtain ⟨places, hitems, hcount⟩ := exists_places_filterMap ms hentry
  obtain ⟨places', hitems', hperm⟩ := List.perm_comp_forall₂ h hitems
  exact ⟨places', hitems', fun i m hm => (hperm.count_eq i).trans (hcount i m hm)⟩

/-- Members that a section selects have one item each. -/
theorem exists_places_filter {keep : α → Bool} {item : α → FacetItem}
    (h : items.Perm ((ms.filter keep).map item)) (hitem : ∀ m, keep m = true → lists m (item m)) :
    ∃ places, ComeFrom ms lists items places ∧
      ∀ i m, ms[i]? = some m → places.count i = (keep m).toNat := by
  have hentries : (ms.filter keep).map item =
      ms.filterMap fun m => if keep m then some (item m) else none := by
    rw [← List.filterMap_eq_map, List.filterMap_filter]
    rfl
  have hlists : ∀ m it, (if keep m then some (item m) else none) = some it → lists m it := by
    intro m it hm
    obtain ⟨hkeep, hitem'⟩ := Option.ite_none_right_eq_some.mp hm
    exact Option.some.inj hitem' ▸ hitem m hkeep
  rw [hentries] at h
  obtain ⟨places, hitems, hcount⟩ := exists_places_perm lists h hlists
  refine ⟨places, hitems, fun i m hm => (hcount i m hm).trans ?_⟩
  cases keep m <;> rfl

end Places

/-! ## Sections -/

/-- The sections of a class that list properties. -/
def propertySections : List Facet := [dependencies, interfaceProperties, properties]

/-- The sections of a class that list methods. -/
def methodSections : List Facet := [provisions, interfaceMethods, methods]

/-- What the item of a property says. -/
def ListsProperty (p : DataMember) (item : FacetItem) : Prop :=
  item.typeName = p.typeName ∧ item.name = some p.name ∧ item.line = p.line

/-- What the item of a method says: the type that the method provides, or else its name. -/
def ListsMethod (markers : Markers) (m : Method) (item : FacetItem) : Prop :=
  item.name = some ((markers.providedType? m).getD (methodName m)) ∧ item.line = m.line

/-- How many items of some sections come from the member at a place. -/
def timesListed (sections : List Facet) (places : Facet → List Nat) (i : Nat) : Nat :=
  (sections.flatMap places).count i

theorem timesListed_three (f g h : Facet) (places : Facet → List Nat) (i : Nat) :
    timesListed [f, g, h] places i =
      (places f).count i + (places g).count i + (places h).count i := by
  simp [timesListed, Nat.add_assoc]

variable {ctx : DiagramContext} {e : Entity} {d : Declaration}

variable (ctx e) in
/-- Whether a section lists a property. -/
def selectsProperty : Facet → DataMember → Bool
  | dependencies, p => p.hasAttribute ctx.markers.dependencyAttribute
  | interfaceProperties, p => e.interfaceProperties.contains p.name
  | properties, p => isPlainProperty ctx e p
  | _, _ => false

variable (ctx e) in
/-- Whether a section lists a method. -/
def selectsMethod : Facet → Method → Bool
  | provisions, m => (ctx.markers.providedType? m).isSome
  | interfaceMethods, m => isInterfaceMethod e m
  | methods, m => isPlainMethod ctx e m
  | _, _ => false

theorem sortByName_perm (items : List FacetItem) : (sortByName items).Perm items :=
  List.mergeSort_perm items _

theorem ofDeclaration_of_eq (hd : e.declaration = some d) (items : Declaration → List FacetItem) :
    ofDeclaration e items = items d := by
  rw [ofDeclaration, hd]
  rfl

theorem providedType?_of_isInterfaceMethod {m : Method} (h : isInterfaceMethod e m = true) :
    ctx.markers.providedType? m = none := by
  obtain ⟨hplain, -⟩ := Bool.and_eq_true_iff.mp h
  rw [Markers.providedType?, Option.isNone_iff_eq_none.mp hplain]

/-- A section lists the properties that it selects, once for each time that they are declared. -/
theorem exists_property_places (hd : e.declaration = some d)
    (hmembers : ctx.options.showAllMembers = true) {f : Facet} (hf : f ∈ propertySections) :
    ∃ places, ComeFrom d.properties ListsProperty (f.items ctx e) places ∧
      ∀ i p, d.properties[i]? = some p →
        places.count i = (f.selectsProperty ctx e p).toNat := by
  simp only [propertySections, List.mem_cons, List.not_mem_nil, or_false] at hf
  rcases hf with rfl | rfl | rfl
  · rw [items, ofDeclaration_of_eq hd]
    exact exists_places_filter (.refl _) fun p _ => ⟨rfl, rfl, rfl⟩
  · rw [items, ofDeclaration_of_eq hd]
    exact exists_places_filter (sortByName_perm _) fun p _ => ⟨rfl, rfl, rfl⟩
  · rw [items, ofDeclaration_of_eq hd, propertyItems, List.filter_eq_self.mpr]
    · exact exists_places_filter (sortByName_perm _) fun p _ => ⟨rfl, rfl, rfl⟩
    · intro item _
      rw [hmembers, Bool.true_or]

/-- A section lists the methods that it selects, once for each time that they are declared. -/
theorem exists_method_places (hd : e.declaration = some d)
    (hmethods : ctx.options.showAllMethods = true) {f : Facet} (hf : f ∈ methodSections) :
    ∃ places, ComeFrom d.methods (ListsMethod ctx.markers) (f.items ctx e) places ∧
      ∀ i m, d.methods[i]? = some m → places.count i = (f.selectsMethod ctx e m).toNat := by
  simp only [methodSections, List.mem_cons, List.not_mem_nil, or_false] at hf
  rcases hf with rfl | rfl | rfl
  · rw [items, ofDeclaration_of_eq hd]
    obtain ⟨places, hitems, hcount⟩ :=
      exists_places_perm (ListsMethod ctx.markers) (.refl (provisionItems ctx e d))
        fun m item hm => by
          obtain ⟨provided, hprovided, rfl⟩ := Option.map_eq_some_iff.mp hm
          exact ⟨by rw [hprovided]; rfl, rfl⟩
    exact ⟨places, hitems, fun i m hm => by rw [hcount i m hm, Option.isSome_map]; rfl⟩
  · rw [items, ofDeclaration_of_eq hd]
    refine exists_places_filter (sortByName_perm _) fun m hm => ⟨?_, rfl⟩
    obtain ⟨hplain, -⟩ := Bool.and_eq_true_iff.mp hm
    rw [providedType?_of_isInterfaceMethod hm, Option.getD_none, methodName,
      Option.isNone_iff_eq_none.mp hplain]
  · rw [items, ofDeclaration_of_eq hd, methodItems, if_pos hmethods]
    refine exists_places_filter (sortByName_perm _) fun m hm => ⟨?_, rfl⟩
    simp only [selectsMethod, isPlainMethod, Bool.and_eq_true, Option.isNone_iff_eq_none] at hm
    rw [hm.1.2, Option.getD_none]

/-! ## How many sections select a member -/

/-- A property that overrides none is selected once, unless it is injected and the interface names
it. -/
theorem propertySections_select {p : DataMember} (hp : p.isOverride = false)
    (hone : p.hasAttribute ctx.markers.dependencyAttribute = true →
      p.name ∉ e.interfaceProperties) :
    (dependencies.selectsProperty ctx e p).toNat +
      (interfaceProperties.selectsProperty ctx e p).toNat +
        (properties.selectsProperty ctx e p).toNat = 1 := by
  rw [← List.contains_iff_mem, Bool.not_eq_true] at hone
  simp only [selectsProperty, isPlainProperty, hp]
  cases hinjected : p.hasAttribute ctx.markers.dependencyAttribute with
  | true =>
    rw [hone hinjected]
    rfl
  | false => cases e.interfaceProperties.contains p.name <;> rfl

/-- A method that overrides none is selected once. One that provides a type implements an interface
explicitly, so it is not one that the interface of the entity names. -/
theorem methodSections_select {m : Method} (hm : m.isOverride = false) :
    (provisions.selectsMethod ctx e m).toNat + (interfaceMethods.selectsMethod ctx e m).toNat +
      (methods.selectsMethod ctx e m).toNat = 1 := by
  simp only [selectsMethod, isPlainMethod, hm]
  cases hnamed : isInterfaceMethod e m with
  | true =>
    rw [providedType?_of_isInterfaceMethod hnamed]
    rfl
  | false => cases ctx.markers.providedType? m <;> rfl

end Facet

namespace Drawing

open Facet

/-- With all members and methods shown, every item of the six sections for members comes from one
place of the declaration. A property that overrides none has one item in the three sections for
properties, but two if it is injected and the interface names it too: one as a dependency, one as a
property of the interface. A method that overrides none has one item in the three sections for
methods. -/
theorem members_listed (ctx : DiagramContext) {e : Entity} {d : Declaration}
    (hd : e.declaration = some d) (hmembers : ctx.options.showAllMembers = true)
    (hmethods : ctx.options.showAllMethods = true) :
    (∃ places : Facet → List Nat,
      (∀ f ∈ propertySections,
        ComeFrom d.properties ListsProperty (f.items ctx e) (places f)) ∧
      ∀ i p, d.properties[i]? = some p → p.isOverride = false →
        if p.hasAttribute ctx.markers.dependencyAttribute ∧ p.name ∈ e.interfaceProperties then
          (places .dependencies).count i = 1 ∧ (places .interfaceProperties).count i = 1 ∧
            (places .properties).count i = 0
        else timesListed propertySections places i = 1) ∧
    ∃ places : Facet → List Nat,
      (∀ f ∈ methodSections,
        ComeFrom d.methods (ListsMethod ctx.markers) (f.items ctx e) (places f)) ∧
      ∀ i m, d.methods[i]? = some m → m.isOverride = false →
        timesListed methodSections places i = 1 := by
  constructor
  · choose! places hplaces hcount using
      fun f (hf : f ∈ propertySections) => exists_property_places hd hmembers hf
    refine ⟨places, hplaces, fun i p hp hover => ?_⟩
    split
    · next hboth =>
      have hplain : selectsProperty ctx e .properties p = false := by
        simp [selectsProperty, isPlainProperty, hboth.1]
      rw [hcount _ (by decide) i p hp, hcount _ (by decide) i p hp, hcount _ (by decide) i p hp,
        hplain]
      simp [selectsProperty, hboth]
    · next hnot =>
      rw [propertySections, timesListed_three, hcount _ (by decide) i p hp,
        hcount _ (by decide) i p hp, hcount _ (by decide) i p hp]
      exact propertySections_select hover fun hinjected hnamed => hnot ⟨hinjected, hnamed⟩
  · choose! places hplaces hcount using
      fun f (hf : f ∈ methodSections) => exists_method_places hd hmethods hf
    refine ⟨places, hplaces, fun i m hm hover => ?_⟩
    rw [methodSections, timesListed_three, hcount _ (by decide) i m hm,
      hcount _ (by decide) i m hm, hcount _ (by decide) i m hm]
    exact methodSections_select hover

namespace Injected

/-- The service with everything shown. -/
def shown : DiagramContext := { context with options := ⟨false, true, true⟩ }

/-- The item of the repository. -/
def repoItem : FacetItem := propertyItem (some repo) repoProperty

/-- Only the first property of the service makes the item of the repository. -/
theorem place_repoItem {i : Nat}
    (h : ∃ p, declaration.properties[i]? = some p ∧ ListsProperty p repoItem) : i = 0 := by
  obtain ⟨p, hp, -, hname, -⟩ := h
  match i with
  | 0 => rfl
  | 1 =>
    obtain rfl : logProperty = p := Option.some.inj hp
    exact absurd hname (by decide)
  | _ + 2 => cases hp

end Injected

/-- With everything shown, the service lists its log once and its repository twice. -/
theorem members_listed_service :
    Injected.service.declaration = some Injected.declaration ∧
      ∃ places : Facet → List Nat,
        (∀ f ∈ propertySections, ComeFrom Injected.declaration.properties ListsProperty
          (f.items Injected.shown Injected.service) (places f)) ∧
        (places .dependencies).count 0 = 1 ∧ (places .interfaceProperties).count 0 = 1 ∧
        timesListed propertySections places 1 = 1 := by
  obtain ⟨⟨places, hplaces, honce⟩, -⟩ :=
    members_listed Injected.shown (e := Injected.service) (d := Injected.declaration) rfl rfl rfl
  have hrepo := honce 0 Injected.repoProperty rfl rfl
  have hlog := honce 1 Injected.logProperty rfl rfl
  rw [if_pos (by decide)] at hrepo
  rw [if_neg (by decide)] at hlog
  exact ⟨rfl, places, hplaces, hrepo.1, hrepo.2.1, hlog⟩

/-- The repository of the service, which is injected and named by the interface, is not listed just
once, in whatever way the items are traced back to the members. -/
theorem repo_listed_twice :
    ¬ ∃ places : Facet → List Nat,
      (∀ f ∈ propertySections, ComeFrom Injected.declaration.properties ListsProperty
        (f.items Injected.shown Injected.service) (places f)) ∧
      ∀ i p, Injected.declaration.properties[i]? = some p → p.isOverride = false →
        timesListed propertySections places i = 1 := by
  rintro ⟨places, hplaces, honce⟩
  have hplace : ∀ f ∈ propertySections,
      Injected.repoItem ∈ f.items Injected.shown Injected.service → 0 ∈ places f := by
    intro f hf hitem
    obtain ⟨i, hi, hfrom⟩ := (hplaces f hf).exists_place hitem
    rwa [Injected.place_repoItem hfrom] at hi
  have hinjected : Injected.repoItem ∈ dependencies.items Injected.shown Injected.service := by
    decide
  have hnamed : Injected.repoItem ∈ interfaceProperties.items Injected.shown Injected.service :=
    mem_ofDeclaration.mpr ⟨_, rfl, mem_sortByName.mpr (by decide)⟩
  have hfirst := List.count_pos_iff.mpr (hplace .dependencies (by decide) hinjected)
  have hsecond := List.count_pos_iff.mpr (hplace .interfaceProperties (by decide) hnamed)
  have htotal := honce 0 Injected.repoProperty rfl rfl
  rw [propertySections, timesListed_three] at htotal
  omega

end Drawing

end SceneDiagram
