import Mathlib.Data.List.Induction
import Mathlib.Data.List.Nodup
import Mathlib.Data.List.Perm.Basic

/-!
# Lists without repeated keys

The entities of an index, the classes of a diagram and the files of a project all are lists in which
no two elements share a key. What such a list holds under a key is one element at most, wherever it
stands. The newcomers of any list are the elements that are the first of their key.
-/

namespace SceneDiagram.Keyed

variable {α β : Type} {key : α → String} {l l' : List α}

/-- The elements of a key are the one that a search finds. -/
theorem filter_eq_toList (unique : (l.map key).Nodup) (k : String) :
    l.filter (key · == k) = (l.find? (key · == k)).toList := by
  induction l with
  | nil => rfl
  | cons a l ih =>
    rw [List.map_cons, List.nodup_cons] at unique
    by_cases h : key a = k
    · have hrest : l.filter (key · == k) = [] := by
        rw [List.filter_eq_nil_iff]
        intro b hb heq
        exact unique.1 (h ▸ eq_of_beq heq ▸ List.mem_map_of_mem hb)
      simp [h, hrest]
    · simp [h, ih unique.2]

/-- The only element of a key is the one that is there. -/
theorem filter_eq_singleton (unique : (l.map key).Nodup) {a : α} (ha : a ∈ l) :
    l.filter (key · == key a) = [a] := by
  have hmem : a ∈ l.filter (key · == key a) := List.mem_filter.mpr ⟨ha, BEq.rfl⟩
  rw [filter_eq_toList unique] at hmem ⊢
  rw [Option.mem_toList.mp hmem, Option.toList_some]

/-- A search for a key finds the same in any order. -/
theorem find?_perm (h : l.Perm l') (unique : (l.map key).Nodup) (k : String) :
    l.find? (key · == k) = l'.find? (key · == k) := by
  have hfilter := h.filter (key · == k)
  rw [filter_eq_toList unique, filter_eq_toList ((h.map key).nodup_iff.mp unique)] at hfilter
  cases hfind : l.find? (key · == k) with
  | none =>
    rw [hfind, Option.toList_none, List.nil_perm, Option.toList_eq_nil_iff] at hfilter
    exact hfilter.symm
  | some a =>
    rw [hfind, Option.toList_some, List.singleton_perm] at hfilter
    exact (Option.toList_eq_singleton_iff.mp hfilter.symm).symm

theorem filter_perm (h : l.Perm l') (unique : (l.map key).Nodup) (k : String) :
    l.filter (key · == k) = l'.filter (key · == k) := by
  rw [filter_eq_toList unique, filter_eq_toList ((h.map key).nodup_iff.mp unique),
    find?_perm h unique]

/-- Elements of other keys add nothing to what those of one key stand for. -/
theorem flatMap_filter (k : String) (f : α → List β) :
    (l.flatMap fun a => if key a = k then f a else []) = (l.filter (key · == k)).flatMap f := by
  induction l with
  | nil => rfl
  | cons a l ih =>
    rw [List.flatMap_cons, ih]
    by_cases h : key a = k <;> simp [h]

/-! ## Newcomers -/

/-- The elements of a list whose key no earlier one has. -/
def newcomers (key : α → String) (l : List α) : List α :=
  (l.zipIdx.filter fun (a, i) => (l.take i).all (key · != key a)).map Prod.fst

theorem take_concat_of_mem_zipIdx {l : List α} {p : α × Nat} (hp : p ∈ l.zipIdx) (a : α) :
    (l ++ [a]).take p.2 = l.take p.2 :=
  List.take_append_of_le_length (Nat.le_of_lt (List.mem_zipIdx' hp).1)

/-- An element at the end of a list is a newcomer if its key is new. -/
theorem newcomers_concat (l : List α) (a : α) :
    newcomers key (l ++ [a]) = newcomers key l ++ if key a ∈ l.map key then [] else [a] := by
  have hold : ∀ p ∈ l.zipIdx,
      ((l ++ [a]).take p.2).all (key · != key p.1) = (l.take p.2).all (key · != key p.1) :=
    fun p hp => by rw [take_concat_of_mem_zipIdx hp]
  have hnew : l.all (key · != key a) = decide (key a ∉ l.map key) := by
    rw [Bool.eq_iff_iff]
    simp
  rw [newcomers, List.zipIdx_append, List.filter_append, List.map_append, List.filter_congr hold,
    newcomers]
  congr 1
  by_cases h : key a ∈ l.map key <;> simp_all

theorem mem_of_mem_newcomers {l : List α} {a : α} (h : a ∈ newcomers key l) : a ∈ l := by
  obtain ⟨⟨a, i⟩, hmem, rfl⟩ := List.mem_map.mp h
  exact (List.mem_zipIdx' (List.mem_of_mem_filter hmem)).2 ▸ List.getElem_mem _

/-- The newcomers of two lists are those of the first and then those of the second whose key the
first does not have. -/
theorem newcomers_append (l l' : List α) :
    newcomers key (l ++ l') =
      newcomers key l ++ (newcomers key l').filter (key · ∉ l.map key) := by
  induction l' using List.reverseRecOn with
  | nil => simp [newcomers]
  | append_singleton l' a ih =>
    rw [← List.append_assoc, newcomers_concat, newcomers_concat, ih, List.filter_append,
      List.append_assoc, List.map_append]
    congr 2
    by_cases hl : key a ∈ l.map key
    · rw [if_pos (List.mem_append_left _ hl)]
      split
      · rfl
      · exact (List.filter_eq_nil_iff.mpr (by simpa using hl)).symm
    · by_cases hl' : key a ∈ l'.map key
      · rw [if_pos (List.mem_append_right _ hl'), if_pos hl', List.filter_nil]
      · rw [if_neg (by rw [List.mem_append]; exact not_or.mpr ⟨hl, hl'⟩), if_neg hl']
        exact (List.filter_eq_self.mpr (by simpa using hl)).symm

theorem newcomers_map {f : β → α} (l : List β) :
    newcomers key (l.map f) = (newcomers (key ∘ f) l).map f := by
  induction l using List.reverseRecOn with
  | nil => rfl
  | append_singleton l b ih =>
    rw [List.map_append, List.map_singleton, newcomers_concat, newcomers_concat, ih,
      List.map_append, List.map_map]
    by_cases h : (key ∘ f) b ∈ l.map (key ∘ f)
    · rw [if_pos h, if_pos (show key (f b) ∈ l.map (key ∘ f) from h), List.map_nil]
    · rw [if_neg h, if_neg (show key (f b) ∉ l.map (key ∘ f) from h), List.map_singleton]

/-- Every key of a list is that of a newcomer. -/
theorem mem_map_newcomers {k : String} (l : List α) :
    k ∈ (newcomers key l).map key ↔ k ∈ l.map key := by
  induction l using List.reverseRecOn with
  | nil => rfl
  | append_singleton l a ih =>
    rw [newcomers_concat, List.map_append, List.mem_append, ih, List.map_append, List.mem_append]
    split
    · next h =>
      simp only [List.map_nil, List.not_mem_nil, or_false, List.map_cons, List.mem_singleton]
      exact ⟨.inl, fun hk => hk.elim id fun heq => heq ▸ h⟩
    · rfl

/-! ## Without repetitions -/

variable [BEq α] [LawfulBEq α]

/-- An element at the end of a list stays if it is new to the list. -/
theorem eraseDups_concat (l : List α) (a : α) [Decidable (a ∈ l)] :
    (l ++ [a]).eraseDups = if a ∈ l then l.eraseDups else l.eraseDups ++ [a] := by
  rw [List.eraseDups_append]
  by_cases h : a ∈ l
  · simp [h, List.removeAll]
  · simp [h, List.removeAll, List.eraseDups_cons]

theorem nodup_eraseDups (l : List α) : l.eraseDups.Nodup := by
  classical
  induction l using List.reverseRecOn with
  | nil => exact List.nodup_nil
  | append_singleton l a ih =>
    rw [eraseDups_concat]
    split
    · exact ih
    · next h =>
      rw [List.nodup_append]
      refine ⟨ih, List.nodup_singleton a, ?_⟩
      rintro b hb _ hc rfl
      rw [List.mem_singleton.mp hc] at hb
      exact h (List.mem_eraseDups.mp hb)

end SceneDiagram.Keyed
