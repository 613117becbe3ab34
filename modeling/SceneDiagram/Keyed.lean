/-!
# Values by keys

A list of pairs in which a value is looked up by its key. What is put under a key takes the place of
what is there. A new key comes behind all others, so the keys stand in the order in which they first
come up.
-/

namespace SceneDiagram.Keyed

variable {κ α : Type} [DecidableEq κ]

/-- Puts a value in the place of its key, behind all others if the key is new. -/
def put (key : κ) (value : α) : List (κ × α) → List (κ × α)
  | [] => [(key, value)]
  | (k, old) :: rest => if k = key then (k, value) :: rest else (k, old) :: put key value rest

variable {key k : κ} {value : α} {l : List (κ × α)}

section Lookup

variable [BEq κ] [LawfulBEq κ]

theorem lookup_cons :
    List.lookup k ((key, value) :: l) = if k = key then some value else l.lookup k := by
  rw [List.lookup_cons]
  by_cases h : k = key
  · rw [if_pos h, beq_iff_eq.mpr h]
  · rw [if_neg h, beq_false_of_ne h]

theorem lookup_put :
    (put key value l).lookup k = if k = key then some value else l.lookup k := by
  induction l with
  | nil => rw [put, lookup_cons]
  | cons entry l ih =>
    obtain ⟨other, old⟩ := entry
    by_cases hother : other = key
    · subst hother
      rw [put, if_pos rfl, lookup_cons, lookup_cons]
      split <;> rfl
    · rw [put, if_neg hother, lookup_cons, lookup_cons, ih]
      by_cases h : k = other
      · subst h
        rw [if_pos rfl, if_pos rfl, if_neg hother]
      · rw [if_neg h, if_neg h]

/-- What is put under a new key comes last. -/
theorem put_of_lookup_eq_none (h : l.lookup key = none) :
    put key value l = l ++ [(key, value)] := by
  induction l with
  | nil => rfl
  | cons entry l ih =>
    obtain ⟨other, old⟩ := entry
    rw [lookup_cons] at h
    split at h
    · cases h
    · next hother => rw [put, if_neg (Ne.symm hother), ih h, List.cons_append]

end Lookup

theorem mem_put {entry : κ × α} (h : entry ∈ put key value l) :
    entry ∈ l ∨ entry = (key, value) := by
  induction l with
  | nil => exact .inr (List.mem_singleton.mp h)
  | cons first l ih =>
    obtain ⟨other, old⟩ := first
    rw [put] at h
    split at h
    · next hother =>
      subst hother
      rcases List.mem_cons.mp h with rfl | h
      · exact .inr rfl
      · exact .inl (List.mem_cons_of_mem _ h)
    · rcases List.mem_cons.mp h with rfl | h
      · exact .inl List.mem_cons_self
      · exact (ih h).imp_left (List.mem_cons_of_mem _)

/-- A key is found at the place of the first element that it belongs to. -/
theorem lookup_zipIdx {κ : Type} [BEq κ] (keys : List κ) (k : κ) (n : Nat) :
    (keys.zipIdx n).lookup k = (keys.findIdx? (k == ·)).map (· + n) := by
  induction keys generalizing n with
  | nil => rfl
  | cons key keys ih =>
    rw [List.zipIdx_cons, List.lookup_cons, List.findIdx?_cons, ih]
    cases k == key with
    | true => rw [if_pos rfl, Option.map_some, Nat.zero_add]
    | false =>
      have hnext : (fun i => i + n) ∘ (fun i => i + 1) = fun i => i + (n + 1) :=
        funext fun i => Nat.add_right_comm i 1 n
      rw [if_neg Bool.false_ne_true, Option.map_map, hnext]

end SceneDiagram.Keyed
