import SceneDiagram.Project
import SceneDiagram.Proofs.Diagram.Reference
import SceneDiagram.Proofs.Relation.Resolution

/-!
# What is drawn inside an entity

The graph and the facets look at the members of an entity one by one, each with conditions of its
own. Nodes and plain properties are children of the entity where they name another one, so what they
ask to be drawn is contained in it. A property that the interface of the entity names is listed
whether it is injected or not; an injected one is no child, but drawn like one
(`children_contained`).
-/

namespace SceneDiagram

/-- An injected property of `e` that the interface of `e` names has a type that denotes `t`. -/
def Entity.SurfacesInjected (ix : EntityIndex) (markers : Markers) (e t : Entity) : Prop :=
  ∃ d, e.declaration = some d ∧ ∃ p ∈ d.properties,
    p.hasAttribute markers.dependencyAttribute = true ∧ p.name ∈ e.interfaceProperties ∧
      ix.Denotes (Text.trim p.writtenType) t

theorem Entity.SurfacesInjected.propertyNames {ix : EntityIndex} {markers : Markers} {e t : Entity}
    (h : e.SurfacesInjected ix markers t) : e.PropertyNames ix markers true t := by
  obtain ⟨d, hd, p, hp, hinjected, -, hden⟩ := h
  exact ⟨d, hd, p, hp, hinjected, hden⟩

namespace Drawing

variable {ctx : DiagramContext} {facets : List Facet} {x c : Entity}

/-! ## What the items of a facet refer to -/

theorem exists_interfaceProperty_item_iff :
    (∃ item ∈ Facet.interfaceProperties.items ctx x, item.target = some c) ↔
      ∃ d, x.declaration = some d ∧ ∃ p ∈ d.properties, p.name ∈ x.interfaceProperties ∧
        ctx.index.Denotes (Text.trim p.writtenType) c := by
  simp only [Facet.items, mem_ofDeclaration, Facet.interfacePropertyItems, mem_sortByName,
    List.mem_map, List.mem_filter, List.contains_iff_mem]
  constructor
  · rintro ⟨_, ⟨d, hd, p, ⟨hp, hname⟩, rfl⟩, htarget⟩
    have htype : ctx.index.resolve? p.typeName = some c := htarget
    exact ⟨d, hd, p, hp, hname, EntityIndex.resolve?_eq_some_iff.mp htype⟩
  · rintro ⟨d, hd, p, hp, hname, hden⟩
    have htype : ctx.index.resolve? p.typeName = some c := EntityIndex.resolve?_eq_some_iff.mpr hden
    exact ⟨_, ⟨d, hd, p, ⟨hp, hname⟩, rfl⟩, htype⟩

/-- A plain property is listed with the entity that it names. -/
theorem propertyNames_of_item {item : FacetItem} (hitem : item ∈ Facet.properties.items ctx x)
    (htarget : item.target = some c) : x.PropertyNames ctx.index ctx.markers false c := by
  obtain ⟨d, hd, hitem⟩ := mem_ofDeclaration.mp hitem
  obtain ⟨p, hp, rfl⟩ := List.mem_map.mp (List.mem_of_mem_filter (mem_sortByName.mp hitem))
  obtain ⟨hp, hplain⟩ := List.mem_filter.mp hp
  simp only [Facet.isPlainProperty, Bool.and_eq_true, Bool.not_eq_true'] at hplain
  have htype : ctx.index.resolve? p.typeName = some c := htarget
  exact ⟨d, hd, p, hp, hplain.1.2, EntityIndex.resolve?_eq_some_iff.mp htype⟩

/-- A node is listed with the entity that has the name of its type. -/
theorem nodeNames_of_item {item : FacetItem} (hitem : item ∈ Facet.nodes.items ctx x)
    (htarget : item.target = some c) : x.NodeNames ctx.index c := by
  obtain ⟨tree, hscene, node, hnode, typeName, htype, target, hfound, _, rfl⟩ :=
    mem_items_nodes.mp hitem
  obtain rfl : target = c := Option.some.inj htarget
  exact ⟨tree, hscene, node, hnode, typeName, htype, hfound⟩

/-- An injected property is listed with the entity that it names, if the graph has the edge. -/
theorem exists_dependency_item (h : x.PropertyNames ctx.index ctx.markers true c)
    (hgraph : ctx.graph.contains x.name c.name .dependency = true) :
    ∃ item ∈ Facet.dependencies.items ctx x, item.target = some c := by
  obtain ⟨d, hd, p, hp, hinjected, hden⟩ := h
  refine ⟨_, mem_ofDeclaration.mpr ⟨d, hd, List.mem_map.mpr ⟨p, List.mem_filter.mpr
    ⟨hp, hinjected⟩, rfl⟩⟩, ?_⟩
  have htarget : ctx.index.resolve? p.typeName = some c := EntityIndex.resolve?_eq_some_iff.mpr hden
  simp only [Facet.propertyItem, Facet.related?, htarget, Option.filter_some, hgraph, if_true]

/-! ## Children in the graph -/

/-- What the facets of an entity ask to be drawn is named by a node, by a plain property, or by an
injected property that its interface names. -/
theorem Drawable.names (h : Drawable ctx facets x c) :
    x.NodeNames ctx.index c ∨ x.PropertyNames ctx.index ctx.markers false c ∨
      x.SurfacesInjected ctx.index ctx.markers c := by
  obtain ⟨-, f, -, ⟨item, hitem, htarget⟩, hdraws⟩ := h
  cases f with
  | nodes => exact .inl (nodeNames_of_item hitem htarget)
  | properties => exact .inr (.inl (propertyNames_of_item hitem htarget))
  | interfaceProperties =>
    obtain ⟨d, hd, p, hp, hname, hden⟩ :=
      exists_interfaceProperty_item_iff.mp ⟨item, hitem, htarget⟩
    cases hinjected : p.hasAttribute ctx.markers.dependencyAttribute with
    | false => exact .inr (.inl ⟨d, hd, p, hp, hinjected, hden⟩)
    | true => exact .inr (.inr ⟨d, hd, p, hp, hinjected, hname, hden⟩)
  | dependencies | provisions | constructors | interfaceMethods | methods =>
    rcases hdraws with hnesting | ⟨hnesting, -⟩ <;> cases hnesting

/-- What is drawn inside an entity, or joined to it by an arrow, is a child of it in the graph or an
injected property that its interface names, which is a dependency in the graph. An entity that is
named by other injected properties only is linked from the dependencies and never drawn inside. -/
theorem children_contained (markers : Markers) (scenes : List Scene.Tree)
    (declarations : List Declaration) (options : Options) (linker : Linker) {x : Entity}
    (hx : x ∈ (Project.Model.build markers scenes declarations).index.entities) (c : Entity) :
    let model := Project.Model.build markers scenes declarations
    let ctx : DiagramContext := ⟨model.index, model.graph, markers, options, linker⟩
    (∀ facets enclosing, c ∈ children ctx facets x enclosing →
      model.graph.contains x.name c.name .child = true ∨
        x.SurfacesInjected model.index markers c ∧
          model.graph.contains x.name c.name .dependency = true) ∧
    (x.PropertyNames model.index markers true c → ¬ x.SurfacesInjected model.index markers c →
      ¬ x.NodeNames model.index c → ¬ x.PropertyNames model.index markers false c →
      ¬ x.ParameterNames model.index c →
        model.graph.contains x.name c.name .dependency = true ∧
        model.graph.contains x.name c.name .child = false ∧
        (∃ item ∈ Facet.dependencies.items ctx x, item.target = some c) ∧
        ∀ facets enclosing, c ∉ children ctx facets x enclosing) := by
  intro model ctx
  have hdependency : c ∈ model.index.entities → x.PropertyNames model.index markers true c →
      model.graph.contains x.name c.name .dependency = true := fun hc hnames =>
    (RelationGraph.contains_ofIndex_iff hx hc .dependency).mpr
      (Entity.exists_dependency_occurrence_iff.mpr hnames)
  have hchild : c ∈ model.index.entities → (model.graph.contains x.name c.name .child = true ↔
      c.name ≠ x.name ∧ (x.NodeNames model.index c ∨ x.PropertyNames model.index markers false c ∨
        x.ParameterNames model.index c)) := fun hc =>
    (RelationGraph.contains_ofIndex_iff hx hc .child).trans Entity.exists_child_occurrence_iff
  constructor
  · intro facets enclosing hc
    have hmem : c ∈ model.index.entities := mem_of_mem_children hc
    have hdrawable : Drawable ctx facets x c := ((mem_children_iff hx).mp hc).1
    have hne : c.name ≠ x.name := fun h => hdrawable.1 (EntityIndex.eq_of_name_eq hmem hx h)
    rcases hdrawable.names with hnode | hproperty | hinjected
    · exact .inl ((hchild hmem).mpr ⟨hne, .inl hnode⟩)
    · exact .inl ((hchild hmem).mpr ⟨hne, .inr (.inl hproperty)⟩)
    · exact .inr ⟨hinjected, hdependency hmem hinjected.propertyNames⟩
  · intro hnames hsurfaced hnode hproperty hparameter
    have hmem : c ∈ model.index.entities := by
      obtain ⟨_, _, _, _, _, hden⟩ := hnames
      exact hden.mem
    have hgraph := hdependency hmem hnames
    refine ⟨hgraph, ?_, exists_dependency_item hnames hgraph, ?_⟩
    · rw [Bool.eq_false_iff, Ne, hchild hmem]
      rintro ⟨-, h | h | h⟩
      · exact hnode h
      · exact hproperty h
      · exact hparameter h
    · intro facets enclosing hc
      have hdrawable : Drawable ctx facets x c := ((mem_children_iff hx).mp hc).1
      rcases hdrawable.names with h | h | h
      · exact hnode h
      · exact hproperty h
      · exact hsurfaced h

/-! ## A service with two injected properties -/

namespace Injected

/-- The interface of the service names the repository and not the log. -/
def interface : Declaration := ⟨"IService", .interfaceType, "src/Service.cs", 1, [],
  [.property ⟨"Repo", "Repo", 2, [], false⟩], none, []⟩

def repoProperty : DataMember := ⟨"Repo", "Repo", 5, [⟨"Dependency", []⟩], false⟩

def logProperty : DataMember := ⟨"Log", "Log", 6, [⟨"Dependency", []⟩], false⟩

def declaration : Declaration := ⟨"Service", .classType, "src/Service.cs", 4, [],
  [.property repoProperty, .property logProperty], none, []⟩

/-- A type with a constructor, which is something to show. -/
def constructed (name file : String) : Declaration :=
  ⟨name, .classType, file, 1, [], [], none, [⟨3, []⟩]⟩

def service : Entity := ⟨.file "src/Service.cs", some declaration, some interface, none⟩

def repo : Entity := ⟨.file "src/Repo.cs", some (constructed "Repo" "src/Repo.cs"), none, none⟩

def log : Entity := ⟨.file "src/Log.cs", some (constructed "Log" "src/Log.cs"), none, none⟩

def declarations : List Declaration :=
  [interface, declaration, constructed "Repo" "src/Repo.cs", constructed "Log" "src/Log.cs"]

def model : Project.Model := Project.Model.build .standard [] declarations

def options : Options := ⟨false, false, false⟩

def context : DiagramContext := ⟨model.index, model.graph, .standard, options, .relative 1⟩

theorem entities_model : model.index.entities = [service, repo, log] := by decide

theorem service_mem : service ∈ model.index.entities := by simp [entities_model]

theorem repo_mem : repo ∈ model.index.entities := by simp [entities_model]

theorem log_mem : log ∈ model.index.entities := by simp [entities_model]

/-- The service is drawn with the repository. -/
theorem drawable : Drawable context (Facet.registry Facet.all) service repo := by
  have hfacet : ∀ f ∈ Facet.all, f ∈ Facet.registry Facet.all := fun f hf =>
    List.mem_mergeSort.mpr hf
  have htype : Text.trim repoProperty.writtenType = repo.name := by decide
  have hitem : ∃ item ∈ Facet.interfaceProperties.items context service, item.target = some repo :=
    exists_interfaceProperty_item_iff.mpr ⟨declaration, rfl, repoProperty, by decide, by decide,
      .exact repo_mem htype⟩
  have hcontent : Facet.constructors.items context repo ≠ [] := List.cons_ne_nil _ _
  exact ⟨by decide, .interfaceProperties, hfacet _ (by decide), hitem, .inr ⟨rfl,
    .constructors, hfacet _ (by decide), hcontent⟩⟩

/-- Only the property that the interface leaves out has the type of the log. -/
theorem eq_logProperty {p : DataMember} (hp : p ∈ declaration.properties)
    (h : model.index.Denotes (Text.trim p.writtenType) log) : p = logProperty := by
  have hproperties : declaration.properties = [repoProperty, logProperty] := rfl
  rw [hproperties, List.mem_pair] at hp
  rcases hp with rfl | rfl
  · have hrepo : model.index.resolve? (Text.trim repoProperty.writtenType) = some repo :=
      EntityIndex.resolve?_eq_some_iff.mpr (.exact repo_mem (by decide))
    rw [EntityIndex.resolve?_eq_some_iff.mpr h] at hrepo
    exact absurd hrepo (by decide)
  · rfl

end Injected

/-- The log is linked from the service and not drawn inside it. -/
theorem children_contained_log :
    Injected.service ∈ Injected.model.index.entities ∧
      Injected.model.graph.contains "Service" "Log" .dependency = true ∧
      ∀ facets enclosing,
        Injected.log ∉ children Injected.context facets Injected.service enclosing := by
  have hnames :
      Injected.service.PropertyNames Injected.model.index .standard true Injected.log := by
    have htype : Text.trim Injected.logProperty.writtenType = Injected.log.name := by decide +kernel
    exact ⟨Injected.declaration, rfl, Injected.logProperty, by decide, by decide,
      .exact Injected.log_mem htype⟩
  obtain ⟨hdependency, -, -, hchildren⟩ :=
    (children_contained .standard [] Injected.declarations Injected.options (.relative 1)
      Injected.service_mem Injected.log).2 hnames
      (by
        rintro ⟨_, ⟨⟩, p, hp, -, hname, hden⟩
        obtain rfl := Injected.eq_logProperty hp hden
        revert hname
        decide)
      (by
        rintro ⟨_, hscene, -⟩
        cases hscene)
      (by
        rintro ⟨_, ⟨⟩, p, hp, hplain, hden⟩
        obtain rfl := Injected.eq_logProperty hp hden
        cases hplain)
      (by
        rintro ⟨_, ⟨⟩, _, hconstructor, -⟩
        simp [Injected.declaration] at hconstructor)
  exact ⟨Injected.service_mem, hdependency, hchildren⟩

/-- The repository is drawn inside the service and is no child of it: it is injected, and named by
the interface. -/
theorem children_not_contained_repo :
    Injected.repo ∈ children Injected.context (Facet.registry Facet.all) Injected.service [] ∧
      Injected.model.graph.contains "Service" "Repo" .child = false := by
  refine ⟨(mem_children_iff Injected.service_mem).mpr ⟨Injected.drawable, List.not_mem_nil⟩, ?_⟩
  decide +kernel

end Drawing

end SceneDiagram
