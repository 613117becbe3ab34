import Mathlib.Data.List.Find
import SceneDiagram.Proofs.Keyed
import SceneDiagram.Proofs.Relation.Adding
import SceneDiagram.Proofs.Relation.Occurrence

/-!
# Which entities the graph of an index relates

The entities of an index all add to one graph. Still the graph answers for each of them just what
its own places say (`Entity.occurrences`): no other entity adds to that or takes from it, and of
several places that name one entity the first gives the edge its member.
-/

namespace SceneDiagram

namespace RelationGraph

variable (ix : EntityIndex) (markers : Markers)

/-- The edges that all entities of an index stand for, entity by entity. -/
def mentioned : List (Edge String) :=
  ix.entities.flatMap fun e => (Mention.ofEntity ix markers e).map (Mention.edge e.name)

theorem foldl_addMention (source : String) (ms : List Mention)
    (found : RelationGraph String × List RepeatedMention) :
    (ms.foldl (addMention source) found).1 = found.1.addAll (ms.map (Mention.edge source)) := by
  induction ms generalizing found with
  | nil => rfl
  | cons m ms ih =>
    have hstep : (addMention source found m).1 = found.1.offer (m.edge source) := by
      unfold addMention offer
      cases found.1.add (m.edge source) <;> rfl
    rw [List.foldl_cons, ih, hstep]
    rfl

/-- The graph of an index is built by offering it all mentioned edges. -/
theorem ofIndex_eq_addAll : (ofIndex ix markers).1 = empty.addAll (mentioned ix markers) := by
  have hfold : ∀ (es : List Entity) (found : RelationGraph String × List RepeatedMention),
      (es.foldl (fun found e => (Mention.ofEntity ix markers e).foldl (addMention e.name) found)
        found).1 = found.1.addAll
          (es.flatMap fun e => (Mention.ofEntity ix markers e).map (Mention.edge e.name)) := by
    intro es
    induction es with
    | nil => exact fun _ => rfl
    | cons e es ih =>
      intro found
      rw [List.foldl_cons, ih, foldl_addMention, List.flatMap_cons, addAll, addAll, addAll,
        List.foldl_append]
  exact hfold ix.entities (empty, [])

/-- Only the entity of a name mentions others under that name. -/
theorem mentioned_filter (source : String) (relation : Relation) :
    (mentioned ix markers).filter (fun x => x.source = source && x.relation = relation) =
      ((ix.lookup? source).map fun e =>
        (e.occurrences ix markers relation).map (·.edge e.name relation)).getD [] := by
  have hsource : ∀ e : Entity, ((Mention.ofEntity ix markers e).map (Mention.edge e.name)).filter
      (fun x => x.source = source && x.relation = relation) =
        if e.name = source then
          (e.occurrences ix markers relation).map (·.edge e.name relation) else [] := by
    intro e
    rw [← Mention.edgesOf_ofEntity, Mention.edgesOf, ← List.filter_filter, List.filter_map,
      List.filter_map]
    by_cases h : e.name = source
    · simp [h, Mention.edge, Function.comp_def]
    · simp [h, Mention.edge, Function.comp_def]
  rw [mentioned, List.filter_flatMap]
  simp only [hsource]
  rw [Keyed.flatMap_filter, Keyed.filter_eq_toList ix.names_nodup, ← ix.inStep.lookup?_eq]
  cases ix.lookup? source with
  | none => rfl
  | some e => simp

/-- The edge between two ends comes from the first place where the source names the target. -/
theorem find?_ofIndex (source target : String) (relation : Relation) :
    (ofIndex ix markers).1.find? source target relation =
      (ix.lookup? source).bind fun e =>
        ((e.occurrences ix markers relation).find? (·.target.name = target)).map
          (·.edge e.name relation) := by
  have hsplit : (mentioned ix markers).find? (joins source target relation) =
      ((mentioned ix markers).filter fun x => x.source = source && x.relation = relation).find?
        (·.target = target) := by
    rw [List.find?_filter]
    congr 1
    funext x
    rw [Bool.eq_iff_iff, joins_iff]
    simp only [Bool.and_eq_true, decide_eq_true_eq]
    exact ⟨fun ⟨hs, ht, hr⟩ => ⟨⟨hs, hr⟩, ht⟩, fun ⟨⟨hs, hr⟩, ht⟩ => ⟨hs, ht, hr⟩⟩
  rw [ofIndex_eq_addAll, find?_addAll, hsplit, mentioned_filter]
  cases ix.lookup? source with
  | none => rfl
  | some e =>
    simp only [Option.map_some, Option.getD_some, Option.bind_some, List.find?_map]
    rfl

/-- The edges between entities do not depend on where the entities stand in the index. -/
theorem find?_ofIndex_congr {ix ix' : EntityIndex} (markers : Markers)
    (h : ix.lookup? = ix'.lookup?) (hp : ix.interfacePrefix = ix'.interfacePrefix) :
    (ofIndex ix markers).1.find? = (ofIndex ix' markers).1.find? := by
  funext source target relation
  simp only [find?_ofIndex, h, Entity.occurrences_congr markers h hp]

/-- An entity is related to those that it names, in the order in which it first names them. -/
theorem targets_ofIndex {e : Entity} (he : e ∈ ix.entities) (relation : Relation) :
    (ofIndex ix markers).1.targets e.name relation =
      ((e.occurrences ix markers relation).map (·.target.name)).eraseDups := by
  rw [ofIndex_eq_addAll, targets_addAll, mentioned_filter, EntityIndex.lookup?_name he,
    Option.map_some, Option.getD_some, List.map_map]
  rfl

variable {ix markers} {e t : Entity}

/-- An entity is related to those that a place of it names. -/
theorem contains_ofIndex_iff (he : e ∈ ix.entities) (ht : t ∈ ix.entities) (relation : Relation) :
    (ofIndex ix markers).1.contains e.name t.name relation = true ↔
      ∃ o ∈ e.occurrences ix markers relation, o.target = t := by
  rw [contains, find?_ofIndex, EntityIndex.lookup?_name he, Option.bind_some, Option.isSome_map,
    List.find?_isSome]
  refine exists_congr fun o => and_congr_right fun ho => ?_
  rw [decide_eq_true_eq]
  exact EntityIndex.name_eq_iff (Entity.mem_of_mem_occurrences ho) ht

/-- The graph of an index relates its entities just as their places say. A child is another entity
that a scene node names exactly, or a plain property or a constructor parameter by its type; a
dependency is named by an injected property, a provision by the type that a method provides. The
edge keeps the member of the first place that names the target, and the targets of an entity come
in the order in which its places first name them. -/
theorem ofIndex_relates (ix : EntityIndex) (markers : Markers) {e t : Entity}
    (he : e ∈ ix.entities) (ht : t ∈ ix.entities) :
    let graph := (ofIndex ix markers).1
    (graph.contains e.name t.name .child = true ↔
      t ≠ e ∧ (e.NodeNames ix t ∨ e.PropertyNames ix markers false t ∨ e.ParameterNames ix t)) ∧
    (graph.contains e.name t.name .dependency = true ↔ e.PropertyNames ix markers true t) ∧
    (graph.contains e.name t.name .provision = true ↔ e.MethodProvides ix markers t) ∧
    ∀ relation,
      graph.member? e.name t.name relation =
        ((e.occurrences ix markers relation).find? (·.target = t)).map (·.member) ∧
      (graph.outgoing e.name relation).map (·.target) =
        ((e.occurrences ix markers relation).map (·.target.name)).eraseDups := by
  have hname : t.name ≠ e.name ↔ t ≠ e :=
    not_congr (EntityIndex.name_eq_iff ht he)
  refine ⟨?_, ?_, ?_, fun relation => ⟨?_, targets_ofIndex ix markers he relation⟩⟩
  · rw [contains_ofIndex_iff he ht, Entity.exists_child_occurrence_iff, hname]
  · rw [contains_ofIndex_iff he ht, Entity.exists_dependency_occurrence_iff]
  · rw [contains_ofIndex_iff he ht, Entity.exists_provision_occurrence_iff]
  · have hfind : (e.occurrences ix markers relation).find? (·.target.name = t.name) =
        (e.occurrences ix markers relation).find? (·.target = t) := by
      refine List.find?_congr fun o ho => decide_eq_decide.mpr ?_
      exact EntityIndex.name_eq_iff (Entity.mem_of_mem_occurrences ho) ht
    rw [member?, find?_ofIndex, EntityIndex.lookup?_name he, Option.bind_some, hfind]
    cases (e.occurrences ix markers relation).find? (·.target = t) <;> rfl

/-- Two properties name the same entity, one of them by its interface: the first gives the edge its
member, and there is one edge. -/
theorem ofIndex_relates_twice_named :
    let main : DataMember := ⟨"Main", "Map", 5, [], false⟩
    let backup : DataMember := ⟨"Backup", " IMap ", 6, [], false⟩
    let game : Entity := ⟨.file "src/Game.cs", some ⟨"Game", .classType, "src/Game.cs", 1, [],
      [.property main, .property backup], none, []⟩, none, none⟩
    let map := Entity.ofFile "src/Map.cs"
    let one := (EntityIndex.empty 'I').insert game (by decide +kernel)
    let ix := one.insert map (by decide +kernel)
    let graph := (ofIndex ix .standard).1
    game ∈ ix.entities ∧ map ∈ ix.entities ∧
      graph.contains game.name map.name .child = true ∧
      graph.member? game.name map.name .child = some "Main" ∧
      (graph.outgoing game.name .child).map (·.target) = ["Map"] := by
  intro main backup game map one ix graph
  have hgame : game ∈ ix.entities := by decide +kernel
  have hmap : map ∈ ix.entities := by decide +kernel
  have hden : ix.Denotes (Text.trim main.writtenType) map := .exact hmap (by decide +kernel)
  obtain ⟨hchild, _, _, hfirst⟩ := ofIndex_relates ix .standard hgame hmap
  refine ⟨hgame, hmap, hchild.mpr ⟨by decide +kernel, .inr (.inl ?_)⟩, ?_, ?_⟩
  · exact ⟨_, rfl, main, by decide +kernel, by decide +kernel, hden⟩
  · exact (hfirst .child).1.trans (by decide +kernel)
  · exact (hfirst .child).2.trans (by decide +kernel)

end RelationGraph

end SceneDiagram
