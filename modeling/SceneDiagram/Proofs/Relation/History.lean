import SceneDiagram.Proofs.Relation.Adding

/-!
# A graph records its history

A graph comes about by calls that add an edge each and may be refused. Whatever the calls were, the
graph is the record of the accepted ones: its edges are theirs, in the order of the calls, and every
question is answered from them. The place that an accepted call gets stays the place of its edge,
and a refused call is told the place of the call that was first with its ends and relation.
-/

namespace SceneDiagram.RelationGraph

variable {α : Type} [DecidableEq α]

/-- The edges of those calls, made one after another, that are accepted. -/
def accepted (g : RelationGraph α) : List (Edge α) → List (Edge α)
  | [] => []
  | e :: es =>
    match g.add e with
    | .ok next => e :: next.accepted es
    | .error _ => g.accepted es

/-- A graph holds just these edges, in this order, and answers accordingly. -/
structure Records (g : RelationGraph α) (es : List (Edge α)) : Prop where
  edges_eq : g.edges = es
  unique : es.Pairwise fun x y => joins x.source x.target x.relation y = false
  outgoing_eq : ∀ source relation,
    g.outgoing source relation = es.filter fun e => e.source = source && e.relation = relation
  incoming_eq : ∀ target relation,
    g.incoming target relation = es.filter fun e => e.target = target && e.relation = relation
  contains_iff : ∀ source target relation,
    g.contains source target relation = true ↔ ∃ e ∈ es, joins source target relation e = true
  mem_targets_iff : ∀ source target relation,
    target ∈ g.targets source relation ↔ g.contains source target relation = true
  mem_sources_iff : ∀ source target relation,
    source ∈ g.sources target relation ↔ g.contains source target relation = true

/-! ## One call -/

variable {g next : RelationGraph α} {e : Edge α}

theorem edges_of_add (h : g.add e = .ok next) : next.edges = g.edges ++ [e] := by
  obtain ⟨-, hadd⟩ | ⟨_, -, hadd⟩ := g.add_cases e
  · cases hadd.symm.trans h
    rfl
  · cases hadd.symm.trans h

theorem offer_of_add (h : g.add e = .ok next) : g.offer e = next := by
  rw [offer, h]
  rfl

theorem offer_of_refused {d : DuplicateEdge α} (h : g.add e = .error d) : g.offer e = g := by
  rw [offer, h]
  rfl

/-- A call is accepted just if no edge is there between the same ends. -/
theorem Indexed.forall_joins_eq_false (h : g.Indexed) (hadd : g.add e = .ok next) :
    ∀ x ∈ g.edges, joins e.source e.target e.relation x = false := by
  obtain ⟨hplace, -⟩ | ⟨_, -, herror⟩ := g.add_cases e
  · rwa [h.place?_eq, List.findIdx?_eq_none_iff] at hplace
  · cases herror.symm.trans hadd

/-- No two edges have the same ends and relation. -/
def Distinct (g : RelationGraph α) : Prop :=
  g.edges.Pairwise fun x y => joins x.source x.target x.relation y = false

theorem Distinct.offer (hd : g.Distinct) (h : g.Indexed) (e : Edge α) : (g.offer e).Distinct := by
  cases hadd : g.add e with
  | error d => rwa [offer_of_refused hadd]
  | ok next =>
    rw [offer_of_add hadd, Distinct, edges_of_add hadd, List.pairwise_append]
    refine ⟨hd, List.pairwise_singleton _ _, fun x hx y hy => ?_⟩
    obtain rfl := List.mem_singleton.mp hy
    have hfresh := h.forall_joins_eq_false hadd x hx
    rw [Bool.eq_false_iff, Ne, joins_iff] at hfresh ⊢
    exact fun heq => hfresh ⟨heq.1.symm, heq.2.1.symm, heq.2.2.symm⟩

/-! ## All calls -/

theorem addAll_append (es es' : List (Edge α)) :
    g.addAll (es ++ es') = (g.addAll es).addAll es' :=
  List.foldl_append

theorem distinct_addAll (es : List (Edge α)) : (empty.addAll es).Distinct := by
  induction es using List.reverseRecOn with
  | nil => exact List.Pairwise.nil
  | append_singleton es e ih =>
    rw [addAll_concat]
    exact ih.offer (indexed_empty.addAll es) e

/-- Each accepted call puts its edge behind those that are there. -/
theorem edges_addAll (g : RelationGraph α) (es : List (Edge α)) :
    (g.addAll es).edges = g.edges ++ g.accepted es := by
  induction es generalizing g with
  | nil => exact (List.append_nil _).symm
  | cons e es ih =>
    change ((g.offer e).addAll es).edges = _
    rw [ih, accepted]
    cases hadd : g.add e with
    | error d => rw [offer_of_refused hadd]
    | ok next => rw [offer_of_add hadd, edges_of_add hadd, List.append_assoc, List.singleton_append]

/-- A graph that is built from calls is the record of the accepted ones. -/
theorem records_addAll (es : List (Edge α)) : (empty.addAll es).Records (empty.accepted es) := by
  have hindexed : (empty.addAll es).Indexed := indexed_empty.addAll es
  have hedges : (empty.addAll es).edges = empty.accepted es := edges_addAll empty es
  rw [← hedges]
  exact {
    edges_eq := rfl
    unique := distinct_addAll es
    outgoing_eq := fun source relation => hindexed.outgoing_eq source relation
    incoming_eq := fun target relation => hindexed.incoming_eq target relation
    contains_iff := fun source target relation => by
      rw [contains, hindexed.find?_eq, List.find?_isSome]
    mem_targets_iff := fun source target relation => hindexed.mem_targets_iff source target relation
    mem_sources_iff := fun source target relation => by
      simp only [contains, hindexed.find?_eq, sources, hindexed.incoming_eq, List.find?_isSome,
        joins_iff, List.mem_map, List.mem_filter, Bool.and_eq_true, decide_eq_true_eq]
      constructor
      · rintro ⟨x, ⟨hx, ht, hr⟩, hs⟩
        exact ⟨x, hx, hs, ht, hr⟩
      · rintro ⟨x, hx, hs, ht, hr⟩
        exact ⟨x, ⟨hx, ht, hr⟩, hs⟩ }

/-- An edge stays where it is, whatever calls follow. -/
theorem getElem?_edges_addAll {k : Nat} (h : g.edges[k]? = some e) (later : List (Edge α)) :
    (g.addAll later).edges[k]? = some e := by
  rw [edges_addAll, List.getElem?_append_left (List.getElem?_eq_some_iff.mp h).1, h]

theorem getElem?_edges_of_add (h : g.add e = .ok next) : next.edges[g.size]? = some e := by
  rw [edges_of_add h, size, List.getElem?_concat_length]

variable {source target : α} {relation : Relation}

/-- No edge is found just if no call was made between the ends. -/
theorem place?_addAll_eq_none_iff {calls : List (Edge α)} :
    (empty.addAll calls).place? source target relation = none ↔
      ∀ x ∈ calls, joins source target relation x = false := by
  rw [← Option.not_isSome_iff_eq_none, ← contains_eq_isSome_place?, contains, find?_addAll,
    Option.not_isSome_iff_eq_none, List.find?_eq_none]
  simp only [Bool.not_eq_true]

/-- An edge that is found is found at the same place after more calls. -/
theorem Indexed.place?_addAll {k : Nat} (h : g.Indexed)
    (hk : g.place? source target relation = some k) (later : List (Edge α)) :
    (g.addAll later).place? source target relation = some k := by
  rw [(h.addAll later).place?_eq, edges_addAll, List.findIdx?_append, ← h.place?_eq, hk]
  rfl

/-- An added edge is found at the place that it was given. -/
theorem Indexed.place?_of_add (h : g.Indexed) (hadd : g.add e = .ok next) :
    next.place? e.source e.target e.relation = some g.size := by
  have hold : g.edges.findIdx? (joins e.source e.target e.relation) = none :=
    List.findIdx?_eq_none_iff.mpr (h.forall_joins_eq_false hadd)
  have hself : joins e.source e.target e.relation e = true := joins_iff.mpr ⟨rfl, rfl, rfl⟩
  rw [(h.add hadd).place?_eq, edges_of_add hadd, List.findIdx?_append, hold, List.findIdx?_cons,
    if_pos hself]
  simp only [size, Option.map_some, Option.none_or, Nat.zero_add]

/-- The edge that is found is that of the first call between its ends, at the place which that call
was given. -/
theorem exists_first_call {calls : List (Edge α)} {k : Nat}
    (h : (empty.addAll calls).place? source target relation = some k) :
    ∃ before first after, calls = before ++ first :: after ∧
      joins source target relation first = true ∧
      (∀ x ∈ before, joins source target relation x = false) ∧
      k = (empty.addAll before).size ∧ (empty.addAll calls).edges[k]? = some first := by
  have hsome : (calls.find? (joins source target relation)).isSome := by
    rw [← find?_addAll, ← contains, contains_eq_isSome_place?, h, Option.isSome_some]
  obtain ⟨first, hfirst⟩ := Option.isSome_iff_exists.mp hsome
  obtain ⟨hjoins, before, after, rfl, hbefore⟩ := List.find?_eq_some_iff_append.mp hfirst
  have hnone : ∀ x ∈ before, joins source target relation x = false := fun x hx => by
    simpa using hbefore x hx
  obtain ⟨rfl, rfl, rfl⟩ := joins_iff.mp hjoins
  have hindexed : (empty.addAll before).Indexed := indexed_empty.addAll before
  obtain ⟨-, hadd⟩ | ⟨_, hplace, -⟩ := (empty.addAll before).add_cases first
  · have hgraph : (empty.addAll (before ++ first :: after)) =
        ((empty.addAll before).offer first).addAll after := addAll_append before (first :: after)
    rw [hgraph, offer_of_add hadd] at h ⊢
    obtain rfl : (empty.addAll before).size = k := Option.some.inj
      (((hindexed.add hadd).place?_addAll (hindexed.place?_of_add hadd) after).symm.trans h)
    exact ⟨before, first, after, rfl, hjoins, hnone, rfl,
      getElem?_edges_addAll (getElem?_edges_of_add hadd) after⟩
  · rw [place?_addAll_eq_none_iff.mpr hnone] at hplace
    cases hplace

theorem addAll_concat_of_add {calls : List (Edge α)} (h : (empty.addAll calls).add e = .ok next) :
    empty.addAll (calls ++ [e]) = next := by
  rw [addAll_concat, offer_of_add h]

/-- What becomes of a call in a history of calls. The graph before it is the record of those calls
so far that were accepted. The call is accepted just if no edge with its ends and its relation is
there, that is, if none of the calls so far had them. Then its edge gets the next place and is
there, with its member, whatever calls follow. Otherwise the graph is as before, and the refusal
tells the place that the first call with these ends and this relation got. -/
theorem call_in_history (calls later : List (Edge α)) (e : Edge α) :
    (empty.addAll calls).Records (empty.accepted calls) ∧
    match (empty.addAll calls).add e with
    | .ok next =>
      (empty.addAll calls).contains e.source e.target e.relation = false ∧
      (∀ x ∈ calls, joins e.source e.target e.relation x = false) ∧
      empty.addAll (calls ++ [e]) = next ∧
      next.edges[(empty.addAll calls).size]? = some e ∧
      (empty.addAll (calls ++ e :: later)).edges[(empty.addAll calls).size]? = some e
    | .error d =>
      (empty.addAll calls).contains e.source e.target e.relation = true ∧
      empty.addAll (calls ++ [e]) = empty.addAll calls ∧
      ∃ before first after, calls = before ++ first :: after ∧
        joins e.source e.target e.relation first = true ∧
        (∀ x ∈ before, joins e.source e.target e.relation x = false) ∧
        d = ⟨e.source, e.target, e.relation, (empty.addAll before).size⟩ ∧
        (empty.addAll calls).edges[d.existing]? = some first := by
  refine ⟨records_addAll calls, ?_⟩
  rw [contains_eq_isSome_place?]
  obtain ⟨hplace, hadd⟩ | ⟨existing, hplace, hadd⟩ := (empty.addAll calls).add_cases e
  · simp only [hadd, hplace, Option.isSome_none]
    have hat := getElem?_edges_of_add hadd
    have hgraph : empty.addAll (calls ++ e :: later) = _ :=
      (addAll_append calls (e :: later)).trans (congrArg (·.addAll later) (offer_of_add hadd))
    refine ⟨trivial, place?_addAll_eq_none_iff.mp hplace, addAll_concat_of_add hadd, hat, ?_⟩
    rw [hgraph]
    exact getElem?_edges_addAll hat later
  · simp only [hadd, hplace, Option.isSome_some]
    obtain ⟨before, first, after, hcalls, hjoins, hbefore, rfl, hat⟩ := exists_first_call hplace
    refine ⟨trivial, ?_, before, first, after, hcalls, hjoins, hbefore, rfl, hat⟩
    rw [addAll_concat, offer_of_refused hadd]

end SceneDiagram.RelationGraph
