import SceneDiagram.Proofs.Entity.Lookup
import SceneDiagram.Relation.Mention

/-!
# Where an entity names others

An entity names others in its scene nodes, its properties, its constructor parameters and the types
that its methods provide. `Entity.occurrences` lists these places for each relation, in the order of
the source. They are what the mentions in an entity stand for (`edgesOf_ofEntity`), and the
predicates at the end say of each kind of place what has to stand there.
-/

namespace SceneDiagram

/-- A place where an entity names another: the member that stands there and the entity that it
names. -/
structure Occurrence where
  member : String
  target : Entity

/-- The edge that a place stands for. -/
def Occurrence.edge (source : String) (relation : Relation) (o : Occurrence) : Edge String :=
  ⟨source, o.target.name, relation, some o.member⟩

namespace Entity

variable (ix : EntityIndex) (markers : Markers)

/-- The nodes of a scene that have the name of an entity as their type. -/
def nodeOccurrences (e : Entity) : List Occurrence :=
  ((e.scene?.map (·.nodes)).getD []).filterMap fun node =>
    (node.typeName.bind ix.lookup?).map (Occurrence.mk node.name)

/-- The properties whose type resolves, those that are injected or the others. -/
def propertyOccurrences (injected : Bool) (d : Declaration) : List Occurrence :=
  (d.properties.filter (·.hasAttribute markers.dependencyAttribute == injected)).filterMap fun p =>
    (ix.resolve? p.typeName).map (Occurrence.mk p.name)

/-- The parameters of a constructor whose type resolves. -/
def parameterOccurrences (c : ParameterList) : List Occurrence :=
  c.parameters.filterMap fun q => (ix.resolve? q.typeName).map (Occurrence.mk q.name)

/-- The methods that provide a type that resolves. -/
def methodOccurrences (d : Declaration) : List Occurrence :=
  d.methods.filterMap fun m =>
    ((markers.providedType? m).bind ix.resolve?).map (Occurrence.mk m.name)

/-- The places where an entity names what it is related to: for children scene nodes, then plain
properties, then the primary constructor and then the others, but no place that names the entity
itself. -/
def occurrences (e : Entity) : Relation → List Occurrence
  | .child =>
    (e.nodeOccurrences ix ++ (e.declaration.map fun d =>
      propertyOccurrences ix markers false d ++
        (d.primaryConstructor.toList ++ d.constructors).flatMap (parameterOccurrences ix)).getD
      []).filter (·.target.name ≠ e.name)
  | .dependency => (e.declaration.map (propertyOccurrences ix markers true)).getD []
  | .provision => (e.declaration.map (methodOccurrences ix markers)).getD []

/-- Where an entity names others depends on look-ups and on the prefix of interfaces only. -/
theorem occurrences_congr {ix ix' : EntityIndex} (h : ix.lookup? = ix'.lookup?)
    (hp : ix.interfacePrefix = ix'.interfacePrefix) (e : Entity) (relation : Relation) :
    e.occurrences ix markers relation = e.occurrences ix' markers relation := by
  have hresolve := EntityIndex.resolve?_congr h hp
  have hnodes : e.nodeOccurrences ix = e.nodeOccurrences ix' := by
    simp only [nodeOccurrences, h]
  have hproperties : propertyOccurrences ix markers = propertyOccurrences ix' markers := by
    funext injected d
    simp only [propertyOccurrences, hresolve]
  have hparameters : parameterOccurrences ix = parameterOccurrences ix' := by
    funext c
    simp only [parameterOccurrences, hresolve]
  have hmethods : methodOccurrences ix markers = methodOccurrences ix' markers := by
    funext d
    simp only [methodOccurrences, hresolve]
  cases relation <;> simp only [occurrences, hnodes, hproperties, hparameters, hmethods]

end Entity

namespace Mention

variable (ix : EntityIndex) (markers : Markers) (e : Entity) (relation : Relation)

/-- The edges of one relation that mentions stand for. -/
def edgesOf (ms : List Mention) : List (Edge String) :=
  (ms.map (edge e.name)).filter (·.relation = relation)

theorem edgesOf_append (ms ms' : List Mention) :
    edgesOf e relation (ms ++ ms') = edgesOf e relation ms ++ edgesOf e relation ms' := by
  simp only [edgesOf, List.map_append, List.filter_append]

theorem edgesOf_filterMap {α : Type} (f : α → Option Mention) (xs : List α) :
    edgesOf e relation (xs.filterMap f) =
      xs.filterMap fun x => ((f x).map (edge e.name)).filter (·.relation = relation) := by
  simp only [edgesOf, List.map_filterMap, List.filter_filterMap]

theorem edgesOf_flatMap {α : Type} (f : α → List Mention) (xs : List α) :
    edgesOf e relation (xs.flatMap f) = xs.flatMap fun x => edgesOf e relation (f x) := by
  simp only [edgesOf, List.map_flatMap, List.filter_flatMap]

/-- The edge for a place that may name the entity itself: no edge in that case. -/
theorem edge_other? (name : String) (target : Option Entity) (tacit : Bool) :
    (((other? e target).map fun t => Mention.mk t.name .child name tacit).map (edge e.name)).filter
        (·.relation = relation) =
      if relation = .child then
        ((target.map (Occurrence.mk name)).filter (·.target.name ≠ e.name)).map
          (·.edge e.name .child)
      else none := by
  cases target with
  | none => cases relation <;> rfl
  | some t =>
    by_cases h : t.name = e.name
    · cases relation <;> simp [other?, Option.filter_some, h]
    · cases relation <;> simp [other?, Option.filter_some, h, edge, Occurrence.edge]

theorem edgesOf_ofNodes : edgesOf e relation (ofNodes ix e) =
    if relation = .child then
      ((e.nodeOccurrences ix).filter (·.target.name ≠ e.name)).map (·.edge e.name .child)
    else [] := by
  unfold ofNodes Entity.nodeOccurrences
  cases e.scene? with
  | none => cases relation <;> rfl
  | some tree =>
    simp only [edgesOf_filterMap, edge_other?, Option.map_some, Option.getD_some,
      List.filter_filterMap, List.map_filterMap]
    split
    · rfl
    · exact List.filterMap_none tree.nodes

theorem edgesOf_ofParameters (c : ParameterList) :
    edgesOf e relation (c.parameters.filterMap (ofParameter? ix e)) =
      if relation = .child then
        ((Entity.parameterOccurrences ix c).filter (·.target.name ≠ e.name)).map
          (·.edge e.name .child)
      else [] := by
  unfold Entity.parameterOccurrences ofParameter?
  simp only [edgesOf_filterMap, edge_other?, List.filter_filterMap, List.map_filterMap]
  split
  · rfl
  · exact List.filterMap_none c.parameters

theorem edgesOf_ofMethods (d : Declaration) :
    edgesOf e relation (d.methods.filterMap (ofMethod? ix markers)) =
      if relation = .provision then
        (Entity.methodOccurrences ix markers d).map (·.edge e.name .provision)
      else [] := by
  unfold Entity.methodOccurrences ofMethod?
  simp only [edgesOf_filterMap, List.map_filterMap]
  split
  · next h =>
    subst h
    congr 1
    funext m
    cases (markers.providedType? m).bind ix.resolve? <;> rfl
  · next h =>
    have hnone : ∀ m : Method, Option.filter (fun x : Edge String => x.relation = relation)
        (Option.map (edge e.name) (Option.map (fun target : Entity =>
          Mention.mk target.name .provision m.name false)
            ((markers.providedType? m).bind ix.resolve?))) = none := by
      intro m
      cases (markers.providedType? m).bind ix.resolve? with
      | none => rfl
      | some t => simp [edge, Ne.symm h]
    simp only [hnone]
    exact List.filterMap_none d.methods

/-- The edge for a property: a dependency if the property is injected, a child otherwise. -/
theorem edge_ofProperty? (p : DataMember) :
    ((ofProperty? ix markers e p).map (edge e.name)).filter (·.relation = relation) =
      if p.hasAttribute markers.dependencyAttribute = true then
        if relation = .dependency then
          ((ix.resolve? p.typeName).map (Occurrence.mk p.name)).map (·.edge e.name .dependency)
        else none
      else if relation = .child then
        (((ix.resolve? p.typeName).map (Occurrence.mk p.name)).filter
          (·.target.name ≠ e.name)).map (·.edge e.name .child)
      else none := by
  unfold ofProperty?
  by_cases hp : p.hasAttribute markers.dependencyAttribute = true
  · rw [if_pos hp]
    cases ix.resolve? p.typeName with
    | none => cases relation <;> rfl
    | some t => cases relation <;> simp [hp, edge, Occurrence.edge, Option.filter_some]
  · rw [if_neg hp, ← edge_other? e relation p.name _ true]
    cases ix.resolve? p.typeName with
    | none => rfl
    | some t => simp only [hp, Bool.false_eq_true, ↓reduceIte]

theorem edgesOf_ofProperties (d : Declaration) :
    edgesOf e relation (d.properties.filterMap (ofProperty? ix markers e)) =
      match relation with
      | .child =>
        ((Entity.propertyOccurrences ix markers false d).filter (·.target.name ≠ e.name)).map
          (·.edge e.name .child)
      | .dependency =>
        (Entity.propertyOccurrences ix markers true d).map (·.edge e.name .dependency)
      | .provision => [] := by
  unfold Entity.propertyOccurrences
  simp only [edgesOf_filterMap, edge_ofProperty?, List.filter_filterMap, List.map_filterMap,
    List.filterMap_filter]
  cases relation with
  | child =>
    refine List.filterMap_congr fun p _ => ?_
    by_cases hp : p.hasAttribute markers.dependencyAttribute = true <;> simp [hp]
  | dependency =>
    refine List.filterMap_congr fun p _ => ?_
    by_cases hp : p.hasAttribute markers.dependencyAttribute = true <;> simp [hp]
  | provision =>
    simp only [reduceCtorEq, ↓reduceIte, ite_self]
    exact List.filterMap_none d.properties

/-- The mentions in an entity stand for one edge for each of its places, in their order. -/
theorem edgesOf_ofEntity : edgesOf e relation (ofEntity ix markers e) =
    (e.occurrences ix markers relation).map (·.edge e.name relation) := by
  unfold ofEntity
  rw [edgesOf_append, edgesOf_ofNodes]
  cases hd : e.declaration with
  | none => cases relation <;> simp [Entity.occurrences, hd, edgesOf]
  | some d =>
    simp only [Option.map_some, Option.getD_some, ofDeclaration, edgesOf_append, edgesOf_flatMap,
      edgesOf_ofProperties, edgesOf_ofMethods, edgesOf_ofParameters, Declaration.allConstructors]
    cases relation with
    | child =>
      simp [Entity.occurrences, hd, List.filter_append, List.filter_flatMap, List.map_flatMap]
    | dependency => simp [Entity.occurrences, hd]
    | provision => simp [Entity.occurrences, hd]

end Mention

/-! ## The places by what stands there -/

namespace Entity

variable {ix : EntityIndex} {markers : Markers} {e t : Entity} {o : Occurrence}

/-- A node of the scene of `e` has `t` as its type, by the exact name. -/
def NodeNames (ix : EntityIndex) (e t : Entity) : Prop :=
  ∃ tree, e.scene? = some tree ∧ ∃ node ∈ tree.nodes, ∃ typeName,
    node.typeName = some typeName ∧ ix.lookup? typeName = some t

/-- A property of `e`, injected or not, has a type that denotes `t`. -/
def PropertyNames (ix : EntityIndex) (markers : Markers) (injected : Bool) (e t : Entity) : Prop :=
  ∃ d, e.declaration = some d ∧ ∃ p ∈ d.properties,
    p.hasAttribute markers.dependencyAttribute = injected ∧
      ix.Denotes (Text.trim p.writtenType) t

/-- A parameter of a constructor of `e` has a type that denotes `t`. -/
def ParameterNames (ix : EntityIndex) (e t : Entity) : Prop :=
  ∃ d, e.declaration = some d ∧ ∃ c, (d.primaryConstructor = some c ∨ c ∈ d.constructors) ∧
    ∃ q ∈ c.parameters, ix.Denotes (Text.trim q.writtenType) t

/-- A method of `e` implements the provide interface explicitly, with one type argument, and that
denotes `t`. -/
def MethodProvides (ix : EntityIndex) (markers : Markers) (e t : Entity) : Prop :=
  ∃ d, e.declaration = some d ∧ ∃ m ∈ d.methods, ∃ i argument,
    m.explicitInterface = some i ∧ i.name = markers.provideInterface ∧
      i.typeArguments = [argument] ∧ ix.Denotes (Text.trim argument) t

theorem nodeNames_iff : e.NodeNames ix t ↔ ∃ o ∈ e.nodeOccurrences ix, o.target = t := by
  unfold NodeNames nodeOccurrences
  cases e.scene? with
  | none => simp
  | some tree =>
    simp only [Option.some.injEq, exists_eq_left', Option.map_some, Option.getD_some,
      List.mem_filterMap, Option.map_eq_some_iff, Option.bind_eq_some_iff]
    constructor
    · rintro ⟨node, hnode, typeName, htype, hl⟩
      exact ⟨⟨node.name, t⟩, ⟨node, hnode, t, ⟨typeName, htype, hl⟩, rfl⟩, rfl⟩
    · rintro ⟨_, ⟨node, hnode, t, ⟨typeName, htype, hl⟩, rfl⟩, rfl⟩
      exact ⟨node, hnode, typeName, htype, hl⟩

theorem propertyNames_iff {injected : Bool} : e.PropertyNames ix markers injected t ↔
    ∃ d, e.declaration = some d ∧
      ∃ o ∈ propertyOccurrences ix markers injected d, o.target = t := by
  unfold PropertyNames propertyOccurrences
  refine exists_congr fun d => and_congr_right fun _ => ?_
  simp only [List.mem_filterMap, List.mem_filter, beq_iff_eq, Option.map_eq_some_iff,
    EntityIndex.resolve?_eq_some_iff]
  constructor
  · rintro ⟨p, hp, hi, hden⟩
    exact ⟨⟨p.name, t⟩, ⟨p, ⟨hp, hi⟩, t, hden, rfl⟩, rfl⟩
  · rintro ⟨_, ⟨p, ⟨hp, hi⟩, t, hden, rfl⟩, rfl⟩
    exact ⟨p, hp, hi, hden⟩

theorem parameterNames_iff : e.ParameterNames ix t ↔
    ∃ d, e.declaration = some d ∧
      ∃ o ∈ (d.primaryConstructor.toList ++ d.constructors).flatMap (parameterOccurrences ix),
        o.target = t := by
  unfold ParameterNames parameterOccurrences
  refine exists_congr fun d => and_congr_right fun _ => ?_
  simp only [List.mem_flatMap, List.mem_append, Option.mem_toList, List.mem_filterMap,
    Option.map_eq_some_iff, EntityIndex.resolve?_eq_some_iff]
  constructor
  · rintro ⟨c, hc, q, hq, hden⟩
    exact ⟨⟨q.name, t⟩, ⟨c, hc, q, hq, t, hden, rfl⟩, rfl⟩
  · rintro ⟨_, ⟨c, hc, q, hq, t, hden, rfl⟩, rfl⟩
    exact ⟨c, hc, q, hq, hden⟩

theorem methodProvides_iff : e.MethodProvides ix markers t ↔
    ∃ d, e.declaration = some d ∧ ∃ o ∈ methodOccurrences ix markers d, o.target = t := by
  unfold MethodProvides methodOccurrences
  refine exists_congr fun d => and_congr_right fun _ => ?_
  simp only [List.mem_filterMap, Option.map_eq_some_iff, Option.bind_eq_some_iff,
    EntityIndex.resolve?_eq_some_iff]
  constructor
  · rintro ⟨m, hm, i, argument, hi, hname, hargs, hden⟩
    refine ⟨⟨m.name, t⟩, ⟨m, hm, t, ⟨_, ?_, hden⟩, rfl⟩, rfl⟩
    simp only [Markers.providedType?, hi, hname, ↓reduceIte, ExplicitInterface.singleArgument?,
      hargs]
  · rintro ⟨_, ⟨m, hm, t, ⟨provided, hprov, hden⟩, rfl⟩, rfl⟩
    unfold Markers.providedType? at hprov
    split at hprov
    · cases hprov
    · next i hi =>
      split at hprov
      · next hname =>
        unfold ExplicitInterface.singleArgument? at hprov
        split at hprov
        · next argument hargs =>
          cases hprov
          exact ⟨m, hm, i, argument, hi, hname, hargs, hden⟩
        · cases hprov
      · cases hprov

/-- The children that some place names: all other entities that nodes, plain properties or
constructor parameters name. -/
theorem exists_child_occurrence_iff :
    (∃ o ∈ e.occurrences ix markers .child, o.target = t) ↔
      t.name ≠ e.name ∧
        (e.NodeNames ix t ∨ e.PropertyNames ix markers false t ∨ e.ParameterNames ix t) := by
  simp only [nodeNames_iff, propertyNames_iff, parameterNames_iff, occurrences, List.mem_filter,
    List.mem_append, decide_eq_true_eq]
  cases e.declaration with
  | none =>
    simp only [Option.map_none, Option.getD_none, List.not_mem_nil, or_false, reduceCtorEq,
      false_and, exists_false]
    constructor
    · rintro ⟨o, ⟨ho, hne⟩, rfl⟩
      exact ⟨hne, o, ho, rfl⟩
    · rintro ⟨hne, o, ho, rfl⟩
      exact ⟨o, ⟨ho, hne⟩, rfl⟩
  | some d =>
    simp only [Option.map_some, Option.getD_some, List.mem_append, Option.some.injEq,
      exists_eq_left']
    constructor
    · rintro ⟨o, ⟨hnode | hproperty | hparameter, hne⟩, rfl⟩
      · exact ⟨hne, .inl ⟨o, hnode, rfl⟩⟩
      · exact ⟨hne, .inr (.inl ⟨o, hproperty, rfl⟩)⟩
      · exact ⟨hne, .inr (.inr ⟨o, hparameter, rfl⟩)⟩
    · rintro ⟨hne, ⟨o, ho, rfl⟩ | ⟨o, ho, rfl⟩ | ⟨o, ho, rfl⟩⟩
      · exact ⟨o, ⟨.inl ho, hne⟩, rfl⟩
      · exact ⟨o, ⟨.inr (.inl ho), hne⟩, rfl⟩
      · exact ⟨o, ⟨.inr (.inr ho), hne⟩, rfl⟩

/-- The dependencies that some place names. -/
theorem exists_dependency_occurrence_iff :
    (∃ o ∈ e.occurrences ix markers .dependency, o.target = t) ↔
      e.PropertyNames ix markers true t := by
  rw [propertyNames_iff, occurrences]
  cases e.declaration <;> simp

/-- The provisions that some place names. -/
theorem exists_provision_occurrence_iff :
    (∃ o ∈ e.occurrences ix markers .provision, o.target = t) ↔
      e.MethodProvides ix markers t := by
  rw [methodProvides_iff, occurrences]
  cases e.declaration <;> simp

/-- What a place names is an entity of the index. -/
theorem mem_of_mem_occurrences {relation : Relation} (h : o ∈ e.occurrences ix markers relation) :
    o.target ∈ ix.entities := by
  have named : ∃ p ∈ e.occurrences ix markers relation, p.target = o.target := ⟨o, h, rfl⟩
  cases relation with
  | child =>
    obtain ⟨_, ⟨_, _, _, _, _, _, hl⟩ | ⟨_, _, _, _, _, hden⟩ | ⟨_, _, _, _, _, _, hden⟩⟩ :=
      exists_child_occurrence_iff.mp named
    · exact (EntityIndex.lookup?_eq_some_iff.mp hl).1
    · exact hden.mem
    · exact hden.mem
  | dependency =>
    obtain ⟨_, _, _, _, _, hden⟩ := exists_dependency_occurrence_iff.mp named
    exact hden.mem
  | provision =>
    obtain ⟨_, _, _, _, _, _, _, _, _, hden⟩ := exists_provision_occurrence_iff.mp named
    exact hden.mem

end Entity

end SceneDiagram
