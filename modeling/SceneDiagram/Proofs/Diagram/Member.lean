import SceneDiagram.Proofs.Diagram.Containment
import SceneDiagram.Proofs.Diagram.Composition

/-!
# Where arrows start

The graph names an arrow after the first place where the entity names its child: a scene node, then
a property that is not injected, then a constructor parameter (`member?_child`). The facets of the
entity choose by themselves what to list. So the arrow starts at a line of the class that refers to
the child, unless the first property is an override that is listed nowhere, or only an injected
property of the interface shows the child (`diagram_starts`).
-/

namespace SceneDiagram

open Text

/-! ## The first place that names an entity -/

namespace Entity

variable (ix : EntityIndex) (markers : Markers) (e t : Entity)

/-- The first node of the scene of `e` that has the name of `t` as its type. -/
def nodeNaming? : Option Scene.Node :=
  e.scene?.bind fun tree => tree.nodes.find? fun n => n.typeName.bind ix.lookup? = some t

/-- The first property of `e` that is not injected and has a type that denotes `t`. -/
def propertyNaming? : Option DataMember :=
  e.declaration.bind fun d => d.properties.find? fun p =>
    !p.hasAttribute markers.dependencyAttribute && ix.resolve? p.typeName = some t

/-- The first parameter of a constructor of `e` with a type that denotes `t`. -/
def parameterNaming? : Option Parameter :=
  e.declaration.bind fun d => (d.allConstructors.flatMap (·.parameters)).find? fun q =>
    ix.resolve? q.typeName = some t

variable {ix markers e t}

/-- The first occurrence of an entity among the places that name one is the first such place. -/
theorem find?_occurrence {α : Type} {names : α → Option Entity} (label : α → String) {l : List α}
    (hnames : ∀ a ∈ l, ∀ t, names a = some t → t ∈ ix.entities) (ht : t ∈ ix.entities) :
    (l.filterMap fun a => (names a).map (Occurrence.mk (label a))).find? (·.target.name = t.name) =
      (l.find? (names · = some t)).map fun a => ⟨label a, t⟩ := by
  induction l with
  | nil => rfl
  | cons a l ih =>
    have hrest := ih fun b hb => hnames b (List.mem_cons_of_mem a hb)
    cases ha : names a with
    | none =>
      rw [List.filterMap_cons_none (by rw [ha]; rfl), hrest, List.find?_cons_of_neg (by simp [ha])]
    | some s =>
      have hs := hnames a List.mem_cons_self s ha
      rw [List.filterMap_cons_some (by rw [ha]; rfl)]
      by_cases heq : s = t
      · rw [List.find?_cons_of_pos (by simp [heq]), List.find?_cons_of_pos (by simp [ha, heq]), heq]
        rfl
      · have hname : s.name ≠ t.name := fun h => heq (EntityIndex.eq_of_name_eq hs ht h)
        rw [List.find?_cons_of_neg (by simpa using hname),
          List.find?_cons_of_neg (by simpa [ha] using heq), hrest]

theorem find?_nodeOccurrences (ht : t ∈ ix.entities) :
    (e.nodeOccurrences ix).find? (·.target.name = t.name) =
      (e.nodeNaming? ix t).map fun n => ⟨n.name, t⟩ := by
  unfold nodeOccurrences nodeNaming?
  cases e.scene? with
  | none => rfl
  | some tree =>
    refine find?_occurrence Scene.Node.name (fun n _ s hs => ?_) ht
    obtain ⟨typeName, _, hl⟩ := Option.bind_eq_some_iff.mp hs
    exact (EntityIndex.mem_of_lookup? hl).1

theorem find?_propertyOccurrences (ht : t ∈ ix.entities) (d : Declaration) :
    (propertyOccurrences ix markers false d).find? (·.target.name = t.name) =
      (d.properties.find? fun p => !p.hasAttribute markers.dependencyAttribute &&
        ix.resolve? p.typeName = some t).map fun p => ⟨p.name, t⟩ := by
  unfold propertyOccurrences
  rw [find?_occurrence DataMember.name (fun p _ s hs => EntityIndex.mem_of_resolve? hs) ht,
    List.find?_filter]
  congr 2
  funext p
  cases p.hasAttribute markers.dependencyAttribute <;> simp

theorem find?_parameterOccurrences (ht : t ∈ ix.entities) (cs : List ParameterList) :
    (cs.flatMap (parameterOccurrences ix)).find? (·.target.name = t.name) =
      ((cs.flatMap (·.parameters)).find? (ix.resolve? ·.typeName = some t)).map fun q =>
        ⟨q.name, t⟩ := by
  rw [← find?_occurrence Parameter.name (fun q _ s hs => EntityIndex.mem_of_resolve? hs) ht,
    List.filterMap_flatMap]
  rfl

/-- The member of the edge to a child is the first node, or else the first property, or else the
first parameter that names the child. -/
theorem member?_child (he : e ∈ ix.entities) (ht : t ∈ ix.entities) (hne : t.name ≠ e.name) :
    (RelationGraph.ofIndex ix markers).1.member? e.name t.name .child =
      (((e.nodeNaming? ix t).map (·.name)).or ((e.propertyNaming? ix markers t).map (·.name))).or
        ((e.parameterNaming? ix t).map (·.name)) := by
  have hother : ∀ os : List Occurrence,
      (os.filter (·.target.name ≠ e.name)).find? (·.target.name = t.name) =
        os.find? (·.target.name = t.name) := by
    intro os
    rw [List.find?_filter]
    refine List.find?_congr fun o _ => ?_
    by_cases h : o.target.name = t.name <;> simp [h, hne]
  rw [RelationGraph.member?, RelationGraph.find?_ofIndex, EntityIndex.lookup?_name he,
    Option.bind_some, occurrences, hother, List.find?_append, find?_nodeOccurrences ht]
  unfold propertyNaming? parameterNaming?
  cases e.declaration with
  | none => cases e.nodeNaming? ix t <;> rfl
  | some d =>
    rw [Option.map_some, Option.getD_some, List.find?_append, find?_propertyOccurrences ht,
      find?_parameterOccurrences ht, Option.bind_some, Option.bind_some,
      Declaration.allConstructors]
    cases e.nodeNaming? ix t with
    | some n => rfl
    | none => cases d.properties.find? _ <;> cases List.find? _ _ <;> rfl

end Entity

namespace Drawing

variable {ctx : DiagramContext} {facets : List Facet} {r x c : Entity} {name : String}
  {f : Facet} {item : FacetItem}

/-! ## The line of a member -/

/-- A facet that draws what it refers to lists an item for `c` under a name, and the class of `x`
has a line for it, with a link to `c`. -/
structure Listed (ctx : DiagramContext) (facets : List Facet) (x c : Entity) (f : Facet)
    (name : String) : Prop where
  facet : f ∈ facets
  draws : f.nesting ≠ .never
  line : ∃ item ∈ f.items ctx x, item.target = some c ∧ item.name = some name ∧
    ∃ s ∈ (classBlock ctx facets x).sections, s.title = f.title ∧
      ∃ link, ctx.itemLine link item ∈ s.lines

/-- An item of a facet that draws what it refers to is written on a line of its own. -/
theorem Listed.of_mem (hf : f ∈ facets) (hdraws : f.nesting ≠ .never)
    (hitem : item ∈ f.items ctx x) (htarget : item.target = some c)
    (hname : item.name = some name) : Listed ctx facets x c f name where
  facet := hf
  draws := hdraws
  line := by
    refine ⟨item, hitem, htarget, hname, ⟨f.title, f.lines ctx x (f.items ctx x)⟩, ?_, rfl, ?_⟩
    · refine List.mem_filterMap.mpr ⟨f, hf, ?_⟩
      rw [if_neg]
      rw [List.isEmpty_iff]
      exact List.ne_nil_of_mem hitem
    · cases f with
      | nodes => exact ⟨_, List.mem_map_of_mem hitem⟩
      | interfaceProperties | properties => exact ⟨_, List.mem_map_of_mem hitem⟩
      | dependencies | provisions | constructors | interfaceMethods | methods =>
        exact absurd rfl hdraws

/-- The first node that names an entity is listed. -/
theorem listed_of_nodeNaming? {n : Scene.Node} (hf : .nodes ∈ facets) (hne : c.name ≠ x.name)
    (h : x.nodeNaming? ctx.index c = some n) : Listed ctx facets x c .nodes n.name := by
  obtain ⟨tree, hscene, hfind⟩ := Option.bind_eq_some_iff.mp h
  have htype : n.typeName.bind ctx.index.lookup? = some c := by simpa using List.find?_some hfind
  obtain ⟨typeName, htypeName, hl⟩ := Option.bind_eq_some_iff.mp htype
  have hitem : ⟨some c, typeName, some n.name, n.line⟩ ∈ Facet.nodes.items ctx x :=
    mem_items_nodes.mpr ⟨tree, hscene, n, List.mem_of_find?_eq_some hfind, typeName, htypeName, c,
      hl, hne, rfl⟩
  exact .of_mem hf (by decide) hitem rfl rfl

/-- The first property that names an entity is listed, unless it overrides another and the interface
does not name it. -/
theorem listed_of_propertyNaming? {p : DataMember} (hf : ∀ f ∈ Facet.all, f ∈ facets)
    (h : x.propertyNaming? ctx.index ctx.markers c = some p) :
    (p.isOverride = true ∧ p.name ∉ x.interfaceProperties) ∨
      ∃ f, Listed ctx facets x c f p.name := by
  obtain ⟨d, hd, hfind⟩ := Option.bind_eq_some_iff.mp h
  have hp := List.mem_of_find?_eq_some hfind
  have hplain := List.find?_some hfind
  simp only [Bool.and_eq_true, Bool.not_eq_true', decide_eq_true_eq] at hplain
  obtain ⟨hinjected, htype⟩ := hplain
  by_cases hsurfaced : p.name ∈ x.interfaceProperties
  · have hitem : Facet.propertyItem (ctx.index.resolve? p.typeName) p ∈
        Facet.interfaceProperties.items ctx x :=
      mem_ofDeclaration.mpr ⟨d, hd, mem_sortByName.mpr <| List.mem_map_of_mem <|
        List.mem_filter.mpr ⟨hp, by simpa using hsurfaced⟩⟩
    exact .inr ⟨.interfaceProperties, .of_mem (hf _ (by decide)) (by decide) hitem htype rfl⟩
  · cases hoverride : p.isOverride with
    | true => exact .inl ⟨rfl, hsurfaced⟩
    | false =>
      have hplain : Facet.isPlainProperty ctx x p = true := by
        simp [Facet.isPlainProperty, hoverride, hinjected, hsurfaced]
      have hitem : Facet.propertyItem (ctx.index.resolve? p.typeName) p ∈
          Facet.properties.items ctx x :=
        mem_ofDeclaration.mpr ⟨d, hd, mem_sortByName.mpr <| List.mem_filter.mpr
          ⟨List.mem_map_of_mem (List.mem_filter.mpr ⟨hp, hplain⟩),
            by simp [Facet.propertyItem, htype]⟩⟩
      exact .inr ⟨.properties, .of_mem (hf _ (by decide)) (by decide) hitem htype rfl⟩

/-- The first parameter that names an entity is an item of the constructors. -/
theorem exists_item_of_parameterNaming? {q : Parameter}
    (h : x.parameterNaming? ctx.index c = some q) :
    ∃ item ∈ Facet.constructors.items ctx x, item.target = some c ∧ item.name = some q.name := by
  obtain ⟨d, hd, hfind⟩ := Option.bind_eq_some_iff.mp h
  have htype : ctx.index.resolve? q.typeName = some c := by simpa using List.find?_some hfind
  obtain ⟨l, hl, hq⟩ := List.mem_flatMap.mp (List.mem_of_find?_eq_some hfind)
  refine ⟨⟨ctx.index.resolve? q.typeName, q.typeName, some q.name, l.line⟩, ?_, htype, rfl⟩
  refine mem_ofDeclaration.mpr ⟨d, hd, List.mem_flatMap.mpr ⟨l, hl, ?_⟩⟩
  have hsome : l.parameters.isEmpty = false := by
    rw [List.isEmpty_eq_false_iff]
    exact List.ne_nil_of_mem hq
  rw [Facet.parameterItems, if_neg (by simp [hsome])]
  exact List.mem_map_of_mem hq

/-! ## Where an arrow starts -/

/-- Where an arrow from `x` to `c` starts. -/
inductive Starts (ctx : DiagramContext) (facets : List Facet) (x c : Entity) : String → Prop
  /-- At the first node that names `c`, which is listed. -/
  | node {n : Scene.Node} : x.nodeNaming? ctx.index c = some n →
      Listed ctx facets x c .nodes n.name → Starts ctx facets x c n.name
  /-- At the first property that names `c`, which is listed. -/
  | property {p : DataMember} {f : Facet} : x.nodeNaming? ctx.index c = none →
      x.propertyNaming? ctx.index ctx.markers c = some p →
      Listed ctx facets x c f p.name → Starts ctx facets x c p.name
  /-- At the first property that names `c`, an override that the interface does not name. -/
  | override {p : DataMember} : x.nodeNaming? ctx.index c = none →
      x.propertyNaming? ctx.index ctx.markers c = some p →
      p.isOverride = true → p.name ∉ x.interfaceProperties → Starts ctx facets x c p.name
  /-- At the first parameter that names `c`, where only an injected property of the interface asks
  for `c` to be drawn. -/
  | parameter {q : Parameter} : x.nodeNaming? ctx.index c = none →
      x.propertyNaming? ctx.index ctx.markers c = none →
      x.SurfacesInjected ctx.index ctx.markers c → x.parameterNaming? ctx.index c = some q →
      (∃ item ∈ Facet.constructors.items ctx x, item.target = some c ∧ item.name = some q.name) →
      Starts ctx facets x c q.name
  /-- At the name of `c`, where no place but an injected property of the interface names it. -/
  | childName : x.nodeNaming? ctx.index c = none →
      x.propertyNaming? ctx.index ctx.markers c = none →
      x.SurfacesInjected ctx.index ctx.markers c → x.parameterNaming? ctx.index c = none →
      Starts ctx facets x c c.name

/-- An entity that no node and no plain property names is drawn for an injected property of the
interface. -/
theorem Drawable.surfacesInjected (h : Drawable ctx facets x c)
    (hnode : x.nodeNaming? ctx.index c = none)
    (hproperty : x.propertyNaming? ctx.index ctx.markers c = none) :
    x.SurfacesInjected ctx.index ctx.markers c := by
  rcases h.names with ⟨tree, hscene, n, hn, typeName, htype, hl⟩ | ⟨d, hd, p, hp, hplain, hden⟩ | h
  · rw [Entity.nodeNaming?, hscene, Option.bind_some] at hnode
    have := List.find?_eq_none.mp hnode n hn
    simp [htype, hl] at this
  · rw [Entity.propertyNaming?, hd, Option.bind_some] at hproperty
    have htype : ctx.index.resolve? p.typeName = some c :=
      EntityIndex.resolve?_eq_some_iff.mpr hden
    have := List.find?_eq_none.mp hproperty p hp
    simp [hplain, htype] at this
  · exact h

/-- The cases are the places in the order in which the graph looks for them. -/
theorem Drawable.starts (h : Drawable ctx facets x c) (hall : ∀ f ∈ Facet.all, f ∈ facets)
    (hne : c.name ≠ x.name) :
    Starts ctx facets x c
      (((((x.nodeNaming? ctx.index c).map (·.name)).or
        ((x.propertyNaming? ctx.index ctx.markers c).map (·.name))).or
          ((x.parameterNaming? ctx.index c).map (·.name))).getD c.name) := by
  cases hnode : x.nodeNaming? ctx.index c with
  | some n => exact .node hnode (listed_of_nodeNaming? (hall _ (by decide)) hne hnode)
  | none =>
    cases hproperty : x.propertyNaming? ctx.index ctx.markers c with
    | some p =>
      rcases listed_of_propertyNaming? hall hproperty with ⟨hover, hout⟩ | ⟨f, hf⟩
      · exact .override hnode hproperty hover hout
      · exact .property hnode hproperty hf
    | none =>
      have hinjected := h.surfacesInjected hnode hproperty
      cases hparameter : x.parameterNaming? ctx.index c with
      | some q =>
        exact .parameter hnode hproperty hinjected hparameter
          (exists_item_of_parameterNaming? hparameter)
      | none => exact .childName hnode hproperty hinjected hparameter

/-- Every arrow of a diagram starts at a member of its class that is listed for the entity that it
leads to, the first node if there is one. There are three exceptions: a property that overrides
another and that the interface does not name is listed nowhere, and an entity that is drawn for an
injected property only is called by a constructor parameter or else by its own name. -/
theorem diagram_starts (markers : Markers) (scenes : List Scene.Tree)
    (declarations : List Declaration) (options : Options) (linker : Linker) {r : Entity}
    (hr : r ∈ (Project.Model.build markers scenes declarations).index.entities) :
    let model := Project.Model.build markers scenes declarations
    let ctx : DiagramContext := ⟨model.index, model.graph, markers, options, linker⟩
    let facets := Facet.registry Facet.all
    ∀ a ∈ (r.diagram ctx facets).relationships, ∃ x c, Reaches ctx facets r x ∧
      Drawable ctx facets x c ∧ a.parent = x.name ∧ a.child = c.name ∧
      classBlock ctx facets x ∈ (r.diagram ctx facets).classes ∧
      Starts ctx facets x c a.member := by
  intro model ctx facets a ha
  obtain ⟨x, enclosing, nested, c, hx, hc, rfl, -⟩ := exists_arrow hr ha
  replace hr : r ∈ ctx.index.entities := hr
  have hxmem : x ∈ model.index.entities := hx.mem hr
  have hcmem : c ∈ model.index.entities := mem_of_mem_children hc
  have hdrawable := ((mem_children_iff (hx.mem hr)).mp hc).1
  have hne : c.name ≠ x.name := fun heq =>
    hdrawable.1 (EntityIndex.eq_of_name_eq hcmem hxmem heq)
  have hall : ∀ f ∈ Facet.all, f ∈ facets := fun f hf => List.mem_mergeSort.mpr hf
  obtain ⟨xs, hclasses, -, hxs⟩ := exists_drawn facets hr
  refine ⟨x, c, hx, hdrawable, rfl, rfl, hclasses ▸ List.mem_map_of_mem ((hxs x).mpr hx), ?_⟩
  have hmember : (arrow ctx facets x enclosing c).member =
      ((((x.nodeNaming? model.index c).map (·.name)).or
        ((x.propertyNaming? model.index markers c).map (·.name))).or
          ((x.parameterNaming? model.index c).map (·.name))).getD c.name :=
    congrArg (·.getD c.name) (Entity.member?_child hxmem hcmem hne)
  rw [hmember]
  exact hdrawable.starts hall hne

/-! ## A service that calls what it shows by other names -/

namespace Service

def interface : Declaration := ⟨"IService", .interfaceType, "src/Service.cs", 1, [],
  [.property ⟨"Store", "Repo", 2, [], false⟩, .property ⟨"Buffer", "Cache", 3, [], false⟩], none,
  []⟩

def injected (name typeName : String) (line : Nat) : Member :=
  .property ⟨name, typeName, line, [⟨"Dependency", []⟩], false⟩

/-- The first property for the log is an override, the cache is a parameter too, and the store is
injected only. -/
def declaration : Declaration := ⟨"Service", .classType, "src/Service.cs", 5, [],
  [.property ⟨"Base", "Log", 6, [], true⟩, .property ⟨"Sink", "Log", 7, [], false⟩,
    injected "Store" "Repo" 8, injected "Buffer" "Cache" 9], none,
  [⟨11, [⟨"memory", "ICache", 11⟩]⟩]⟩

def service : Entity := ⟨.file "src/Service.cs", some declaration, some interface, none⟩

def part (name file : String) : Entity :=
  ⟨.file file, some (Injected.constructed name file), none, none⟩

def repo : Entity := part "Repo" "src/Repo.cs"

def cache : Entity := part "Cache" "src/Cache.cs"

def log : Entity := part "Log" "src/Log.cs"

def declarations : List Declaration :=
  [interface, declaration, Injected.constructed "Repo" "src/Repo.cs",
    Injected.constructed "Cache" "src/Cache.cs", Injected.constructed "Log" "src/Log.cs"]

def model : Project.Model := Project.Model.build .standard [] declarations

def context : DiagramContext :=
  ⟨model.index, model.graph, .standard, ⟨false, false, false⟩, .relative 1⟩

theorem entities_model : model.index.entities = [service, repo, cache, log] := by decide

theorem service_mem : service ∈ model.index.entities := by simp [entities_model]

theorem interfaceProperties_items : Facet.interfaceProperties.items context service =
    Facet.sortByName
      [⟨some repo, "Repo", some "Store", 8⟩, ⟨some cache, "Cache", some "Buffer", 9⟩] :=
  congrArg Facet.sortByName (by decide)

theorem properties_items : Facet.properties.items context service =
    Facet.sortByName [⟨some log, "Log", some "Sink", 7⟩] :=
  congrArg Facet.sortByName (by decide)

/-- A part of the service is drawn inside it. -/
theorem part_mem_children {f : Facet} {name file : String} (hf : f ∈ Facet.all)
    (hdraws : f.nesting = .withContent) (hne : part name file ≠ service) {item : FacetItem}
    (hitem : item ∈ f.items context service) (htarget : item.target = some (part name file)) :
    part name file ∈ children context (Facet.registry Facet.all) service [] := by
  have hall : ∀ f ∈ Facet.all, f ∈ Facet.registry Facet.all := fun f hf =>
    List.mem_mergeSort.mpr hf
  have hcontent : Facet.constructors.items context (part name file) ≠ [] := List.cons_ne_nil _ _
  exact (mem_children_iff service_mem).mpr ⟨⟨hne, f, hall f hf, ⟨item, hitem, htarget⟩,
    .inr ⟨hdraws, .constructors, hall _ (by decide), hcontent⟩⟩, List.not_mem_nil⟩

theorem log_mem_children : log ∈ children context (Facet.registry Facet.all) service [] :=
  part_mem_children (f := .properties) (by decide) rfl (by decide)
    (properties_items ▸ mem_sortByName.mpr List.mem_cons_self) rfl

theorem repo_mem_children : repo ∈ children context (Facet.registry Facet.all) service [] :=
  part_mem_children (f := .interfaceProperties) (by decide) rfl (by decide)
    (interfaceProperties_items ▸ mem_sortByName.mpr List.mem_cons_self) rfl

theorem cache_mem_children : cache ∈ children context (Facet.registry Facet.all) service [] :=
  part_mem_children (f := .interfaceProperties) (by decide) rfl (by decide)
    (interfaceProperties_items ▸ mem_sortByName.mpr (List.mem_cons_of_mem _ List.mem_cons_self)) rfl

/-- The facets that draw list the parts under the names of properties. -/
theorem name_mem_of_drawn {f : Facet} (hdraws : f.nesting ≠ .never) {item : FacetItem}
    (hitem : item ∈ f.items context service) :
    item.name ∈ [some "Store", some "Buffer", some "Sink"] := by
  cases f with
  | nodes => cases hitem
  | interfaceProperties =>
    rw [interfaceProperties_items] at hitem
    revert item
    simp only [mem_sortByName]
    decide
  | properties =>
    rw [properties_items] at hitem
    revert item
    simp only [mem_sortByName]
    decide
  | dependencies | provisions | constructors | interfaceMethods | methods =>
    exact absurd rfl hdraws

end Service

/-- The arrow to the log starts at the override. -/
theorem diagram_starts_log :
    Service.service ∈ Service.model.index.entities ∧
      ∃ a ∈ (Service.service.diagram Service.context (Facet.registry Facet.all)).relationships,
        a.member = "Base" ∧ ∃ x c, a.parent = x.name ∧ a.child = c.name ∧
          Starts Service.context (Facet.registry Facet.all) x c a.member := by
  have ha := arrow_mem_relationships Service.log_mem_children
  obtain ⟨x, c, -, -, hparent, hchild, -, hstarts⟩ :=
    diagram_starts .standard [] Service.declarations ⟨false, false, false⟩ (.relative 1)
      Service.service_mem _ ha
  exact ⟨Service.service_mem, _, ha, by decide +kernel, x, c, hparent, hchild, hstarts⟩

/-- No arrow of the service starts at a name that a facet lists which draws what it refers to: one
starts at the override, one at the parameter and one at the name of the store itself. -/
theorem arrow_member_unlisted :
    (∀ t ∈ [("Base", "Log"), ("memory", "Cache"), ("Repo", "Repo")],
      ∃ a ∈ (Service.service.diagram Service.context (Facet.registry Facet.all)).relationships,
        a.parent = "Service" ∧ a.member = t.1 ∧ a.child = t.2) ∧
      ∀ f ∈ Facet.registry Facet.all, f.nesting ≠ .never →
        ∀ item ∈ f.items Service.context Service.service,
          item.name ∉ [some "Base", some "memory", some "Repo"] := by
  constructor
  · intro t ht
    simp only [List.mem_cons, List.not_mem_nil, or_false] at ht
    rcases ht with rfl | rfl | rfl
    · exact ⟨_, arrow_mem_relationships Service.log_mem_children, by decide +kernel⟩
    · exact ⟨_, arrow_mem_relationships Service.cache_mem_children, by decide +kernel⟩
    · exact ⟨_, arrow_mem_relationships Service.repo_mem_children, by decide +kernel⟩
  · intro f _ hdraws item hitem
    have hname := Service.name_mem_of_drawn hdraws hitem
    revert hname
    generalize item.name = name
    revert name
    decide

end Drawing

end SceneDiagram
