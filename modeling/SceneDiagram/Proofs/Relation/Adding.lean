import SceneDiagram.Proofs.Keyed
import SceneDiagram.Proofs.Relation.Consistency

/-!
# Adding edges one after another

A graph that is built by adding edges in some order, each of which may be refused, holds the first
edge of every source, target and relation. So what it answers can be read off the list of all edges
that were offered, without following the graph through the additions: `find?_addAll` for the edge
between two ends and `targets_addAll` for the ends that a source is related to.
-/

namespace SceneDiagram.RelationGraph

variable {α : Type} [DecidableEq α]

/-- The graph after an edge is offered to it: a refused edge changes nothing. -/
def offer (g : RelationGraph α) (e : Edge α) : RelationGraph α :=
  (g.add e).toOption.getD g

/-- The graph after edges are offered to it one after another. -/
def addAll (g : RelationGraph α) (es : List (Edge α)) : RelationGraph α :=
  es.foldl offer g

theorem addAll_concat (g : RelationGraph α) (es : List (Edge α)) (e : Edge α) :
    g.addAll (es ++ [e]) = (g.addAll es).offer e := by
  simp only [addAll, List.foldl_append, List.foldl_cons, List.foldl_nil]

/-- An edge is found just if its place is. -/
theorem contains_eq_isSome_place? (g : RelationGraph α) (source target : α)
    (relation : Relation) :
    g.contains source target relation = (g.place? source target relation).isSome := by
  rw [contains, find?]
  cases h : g.place? source target relation with
  | none => rfl
  | some i =>
    obtain ⟨hany, -⟩ := List.find?_eq_some_iff_append.mp h
    rw [Option.bind_some, Option.isSome_of_any hany]
    rfl

/-- An edge is refused just if the graph has one between the same ends. -/
theorem edges_offer (g : RelationGraph α) (e : Edge α) :
    (g.offer e).edges =
      if g.contains e.source e.target e.relation then g.edges else g.edges ++ [e] := by
  rw [contains_eq_isSome_place?, offer]
  obtain ⟨hplace, hadd⟩ | ⟨existing, hplace, hadd⟩ := g.add_cases e
  · rw [hplace, hadd]
    rfl
  · rw [hplace, hadd]
    rfl

theorem Indexed.offer {g : RelationGraph α} (h : g.Indexed) (e : Edge α) : (g.offer e).Indexed := by
  unfold RelationGraph.offer
  cases hadd : g.add e with
  | ok next => exact h.add hadd
  | error _ => exact h

/-- However many edges are offered, the tables keep in step. -/
theorem Indexed.addAll {g : RelationGraph α} (h : g.Indexed) (es : List (Edge α)) :
    (g.addAll es).Indexed := by
  induction es generalizing g with
  | nil => exact h
  | cons e es ih => exact ih (h.offer e)

/-! ## One step -/

variable (source target : α) (relation : Relation) {g : RelationGraph α}

/-- After an edge is offered, the edge between two ends is the one that was there or else the new
one. -/
theorem Indexed.find?_offer (h : g.Indexed) (e : Edge α) :
    (g.offer e).find? source target relation =
      (g.find? source target relation).or ([e].find? (joins source target relation)) := by
  rw [(h.offer e).find?_eq, h.find?_eq, edges_offer]
  by_cases hc : g.contains e.source e.target e.relation = true
  · rw [if_pos hc]
    by_cases hj : joins source target relation e = true
    · obtain ⟨rfl, rfl, rfl⟩ := joins_iff.mp hj
      obtain ⟨found, hfound⟩ := Option.isSome_iff_exists.mp hc
      rw [← h.find?_eq, hfound, Option.some_or]
    · rw [List.find?_cons_of_neg hj, List.find?_nil, Option.or_none]
  · rw [if_neg hc, List.find?_append]

/-- What a source is related to, as a search through all edges tells. -/
theorem Indexed.targets_eq (h : g.Indexed) :
    g.targets source relation =
      (g.edges.filter fun e => e.source = source && e.relation = relation).map (·.target) := by
  rw [targets, h.outgoing_eq]

/-- A source is related to a target just if the graph has the edge. -/
theorem Indexed.mem_targets_iff (h : g.Indexed) :
    target ∈ g.targets source relation ↔ g.contains source target relation = true := by
  simp only [contains, h.find?_eq, h.targets_eq, List.find?_isSome, joins_iff, List.mem_map,
    List.mem_filter, Bool.and_eq_true, decide_eq_true_eq]
  constructor
  · rintro ⟨x, ⟨hx, hs, hr⟩, ht⟩
    exact ⟨x, hx, hs, ht, hr⟩
  · rintro ⟨x, hx, hs, ht, hr⟩
    exact ⟨x, ⟨hx, hs, hr⟩, ht⟩

/-- What a source is related to after an edge is offered: one target more, if the edge is a new one
of that source. -/
theorem Indexed.targets_offer (h : g.Indexed) (e : Edge α) :
    (g.offer e).targets source relation =
      if e.source = source ∧ e.relation = relation ∧ e.target ∉ g.targets source relation then
        g.targets source relation ++ [e.target]
      else g.targets source relation := by
  by_cases hsr : e.source = source ∧ e.relation = relation
  · obtain ⟨rfl, rfl⟩ := hsr
    have hmem := h.mem_targets_iff e.source e.target e.relation
    rw [(h.offer e).targets_eq, edges_offer]
    by_cases hc : g.contains e.source e.target e.relation = true
    · rw [if_pos hc, if_neg fun hnew => hnew.2.2 (hmem.mpr hc), h.targets_eq]
    · rw [if_neg hc, if_pos ⟨rfl, rfl, fun hin => hc (hmem.mp hin)⟩, h.targets_eq]
      simp only [List.filter_append, List.map_append, List.filter_cons, decide_true,
        Bool.and_self, ↓reduceIte, List.filter_nil, List.map_cons, List.map_nil]
  · rw [if_neg fun hnew => hsr ⟨hnew.1, hnew.2.1⟩, (h.offer e).targets_eq, edges_offer,
      h.targets_eq]
    split
    · rfl
    · have hout : (decide (e.source = source) && decide (e.relation = relation)) = false := by
        simpa only [Bool.and_eq_false_iff, decide_eq_false_iff_not, not_and_or] using hsr
      simp only [List.filter_append, List.filter_cons, hout,
        Bool.false_eq_true, ↓reduceIte, List.filter_nil, List.append_nil]

/-! ## All steps -/

/-- The edge between two ends is the first one that was offered. -/
theorem find?_addAll (es : List (Edge α)) :
    (empty.addAll es).find? source target relation = es.find? (joins source target relation) := by
  induction es using List.reverseRecOn with
  | nil => rfl
  | append_singleton es e ih =>
    rw [addAll_concat, (indexed_empty.addAll es).find?_offer, ih, List.find?_append]

/-- A source is related to the targets that were offered for it, in the order in which each was
offered first. -/
theorem targets_addAll (es : List (Edge α)) :
    (empty.addAll es).targets source relation =
      ((es.filter fun e => e.source = source && e.relation = relation).map
        (·.target)).eraseDups := by
  induction es using List.reverseRecOn with
  | nil => rfl
  | append_singleton es e ih =>
    rw [addAll_concat, (indexed_empty.addAll es).targets_offer, ih, List.filter_append,
      List.map_append]
    simp only [List.mem_eraseDups]
    by_cases hsr : e.source = source ∧ e.relation = relation
    · obtain ⟨hs, hr⟩ := hsr
      have hin : [e].filter (fun e => e.source = source && e.relation = relation) = [e] := by
        simp [hs, hr]
      rw [hin, List.map_singleton, Keyed.eraseDups_concat]
      simp only [hs, hr, true_and, ite_not]
    · have hout : [e].filter (fun e => e.source = source && e.relation = relation) = [] := by
        simpa using hsr
      rw [if_neg fun h => hsr ⟨h.1, h.2.1⟩, hout, List.map_nil, List.append_nil]

end SceneDiagram.RelationGraph
