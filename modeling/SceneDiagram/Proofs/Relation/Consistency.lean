import Mathlib.Data.List.Basic
import Mathlib.Data.List.Find
import Mathlib.Data.List.Induction
import SceneDiagram.Relation

/-!
# The tables of a graph agree with its edges

A graph keeps two tables beside its edges and asks only the tables who is related to whom; whether
an edge is already there is asked of one of them alone. So every answer depends on the tables saying
where the edges are, no more and no less, in order. This is `Indexed`. It holds of the graph without
edges and is kept by every edge that is added, and while it holds each question has the answer that
a search through all edges would give.
-/

namespace SceneDiagram

variable {α : Type}

/-- The places of the elements that have a property, in order. -/
def placesOf {β : Type} (p : β → Bool) (es : List β) : List Nat :=
  (List.range es.length).filter fun i => es[i]?.any p

section placesOf

variable {β : Type} (p q : β → Bool) (es : List β) (e : β)

theorem any_getElem?_concat {i : Nat} (hi : i ∈ List.range es.length) :
    (es ++ [e])[i]?.any p = es[i]?.any p := by
  rw [List.getElem?_append_left (List.mem_range.mp hi)]

theorem placesOf_concat :
    placesOf p (es ++ [e]) = placesOf p es ++ if p e then [es.length] else [] := by
  have hold : (List.range es.length).filter (fun i => (es ++ [e])[i]?.any p) = placesOf p es :=
    List.filter_congr fun i hi => any_getElem?_concat p es e hi
  have hnew : [es.length].filter (fun i => (es ++ [e])[i]?.any p) =
      if p e then [es.length] else [] := by
    rw [List.filter_cons, List.getElem?_concat_length, Option.any_some, List.filter_nil]
  rw [placesOf, List.length_append, List.length_singleton, List.range_succ, List.filter_append,
    hold, hnew]

/-- The elements at those places are the ones that have the property. -/
theorem filterMap_placesOf : (placesOf p es).filterMap (es[·]?) = es.filter p := by
  induction es using List.reverseRecOn with
  | nil => rfl
  | append_singleton es e ih =>
    have hold : (placesOf p es).filterMap ((es ++ [e])[·]?) = es.filter p := by
      rw [← ih]
      refine List.filterMap_congr fun i hi => ?_
      exact List.getElem?_append_left (List.mem_range.mp (List.mem_filter.mp hi).1)
    rw [placesOf_concat, List.filterMap_append, hold, List.filter_append, List.filter_cons,
      List.filter_nil]
    split
    · rw [List.filterMap_cons, List.getElem?_concat_length, List.filterMap_nil]
    · rfl

/-- The first of those places with another property is the first place that has both. -/
theorem find?_placesOf :
    (placesOf p es).find? (fun i => es[i]?.any q) = es.findIdx? fun e => p e && q e := by
  induction es using List.reverseRecOn with
  | nil => rfl
  | append_singleton es e ih =>
    have hold : (placesOf p es).find? (fun i => (es ++ [e])[i]?.any q) =
        es.findIdx? fun e => p e && q e := by
      rw [← ih]
      refine List.find?_congr fun i hi => ?_
      exact any_getElem?_concat q es e (List.mem_filter.mp hi).1
    rw [placesOf_concat, List.find?_append, hold, List.findIdx?_append]
    cases hp : p e <;> cases hq : q e <;> simp [hp, hq]

end placesOf

section Adjacency

variable [DecidableEq α]

/-- Only the row in which a place is filed changes, and only at its end. -/
theorem Adjacency.places_file (m : Adjacency α) (a b : α) (place : Nat) :
    (m.file a place).places b = m.places b ++ if a = b then [place] else [] := by
  induction m with
  | nil =>
    simp only [file, places]
    split <;> rfl
  | cons row m ih =>
    obtain ⟨key, row⟩ := row
    simp only [file]
    by_cases hkey : key = a
    · subst hkey
      rw [if_pos rfl]
      simp only [places]
      split
      · rfl
      · rw [List.append_nil]
    · rw [if_neg hkey]
      simp only [places, ih]
      split
      · next hb => rw [if_neg fun hab => hkey (hb.trans hab.symm), List.append_nil]
      · rfl

/-- A table tells for every end where the edges with that end are. -/
def Adjacency.Tells (m : Adjacency α) (endOf : Edge α → α) (es : List (Edge α)) : Prop :=
  ∀ a, m.places a = placesOf (endOf · = a) es

/-- A table that tells where the edges are still does when a new edge is filed. -/
theorem Adjacency.Tells.file {m : Adjacency α} {endOf : Edge α → α} {es : List (Edge α)}
    (h : m.Tells endOf es) (e : Edge α) :
    Adjacency.Tells (m.file (endOf e) es.length) endOf (es ++ [e]) := by
  intro a
  rw [places_file, h a, placesOf_concat]
  simp only [decide_eq_true_eq]

end Adjacency

namespace RelationGraph

variable [DecidableEq α] {g next : RelationGraph α} {e : Edge α}

/-- Both tables tell where the edges are. -/
structure Indexed (g : RelationGraph α) : Prop where
  leaving : g.leaving.Tells (·.source) g.edges
  arriving : g.arriving.Tells (·.target) g.edges

theorem indexed_empty : (empty : RelationGraph α).Indexed :=
  ⟨fun _ => rfl, fun _ => rfl⟩

/-- What an addition does: the edge is not found and goes to the end, or its place is told. -/
theorem add_cases (g : RelationGraph α) (e : Edge α) :
    (g.place? e.source e.target e.relation = none ∧
      g.add e = .ok ⟨g.edges ++ [e], g.leaving.file e.source g.size,
        g.arriving.file e.target g.size⟩) ∨
    ∃ existing, g.place? e.source e.target e.relation = some existing ∧
      g.add e = .error ⟨e.source, e.target, e.relation, existing⟩ := by
  unfold add
  cases h : g.place? e.source e.target e.relation with
  | none => exact .inl ⟨rfl, rfl⟩
  | some existing => exact .inr ⟨existing, rfl, rfl⟩

/-- The tables keep in step when an edge is added. -/
theorem Indexed.add (h : g.Indexed) (hadd : g.add e = .ok next) : next.Indexed := by
  obtain ⟨-, hok⟩ | ⟨_, -, herror⟩ := g.add_cases e
  · cases hok.symm.trans hadd
    exact ⟨h.leaving.file e, h.arriving.file e⟩
  · cases herror.symm.trans hadd

/-! ## What the tables answer -/

/-- Whether an edge relates two given ends in a given way. -/
def joins (source target : α) (relation : Relation) (e : Edge α) : Bool :=
  e.source = source && e.target = target && e.relation = relation

theorem joins_iff {source target : α} {relation : Relation} {e : Edge α} :
    joins source target relation e = true ↔
      e.source = source ∧ e.target = target ∧ e.relation = relation := by
  simp only [joins, Bool.and_eq_true, decide_eq_true_eq, and_assoc]

variable (source target : α) (relation : Relation)

/-- The edges that leave a source are all edges of that source. -/
theorem Indexed.outgoing_eq (h : g.Indexed) :
    g.outgoing source relation =
      g.edges.filter fun e => e.source = source && e.relation = relation := by
  rw [outgoing, stored, h.leaving source, filterMap_placesOf, List.filter_filter]
  exact List.filter_congr fun _ _ => Bool.and_comm _ _

/-- The edges that reach a target are all edges to that target. -/
theorem Indexed.incoming_eq (h : g.Indexed) :
    g.incoming target relation =
      g.edges.filter fun e => e.target = target && e.relation = relation := by
  rw [incoming, stored, h.arriving target, filterMap_placesOf, List.filter_filter]
  exact List.filter_congr fun _ _ => Bool.and_comm _ _

/-- The edges that leave a source are enough to find an edge among all. -/
theorem Indexed.place?_eq (h : g.Indexed) :
    g.place? source target relation = g.edges.findIdx? (joins source target relation) := by
  have hjoins : joins source target relation = fun e : Edge α => decide (e.source = source) &&
      (decide (e.target = target) && decide (e.relation = relation)) :=
    funext fun e => Bool.and_assoc _ _ _
  rw [place?, h.leaving source, find?_placesOf, hjoins]

theorem Indexed.find?_eq (h : g.Indexed) :
    g.find? source target relation = g.edges.find? (joins source target relation) := by
  rw [find?, h.place?_eq, List.find?_eq_bind_findIdx?_getElem?]

end RelationGraph

end SceneDiagram
