import Mathlib.Data.List.Nodup
import SceneDiagram.Entity.Index

/-!
# What a look-up finds

Tables that are in step answer as a search through all entities would. No two entities of an index
share a name, so an index is known by its look-ups: the order of its entities does not show in them.
The number of an entity is that of its name. `Denotes` says what a written type name means without
mentioning a search, and `resolve?_eq_some_iff` that the search finds just that.
-/

namespace SceneDiagram

namespace EntityTables.InStep

variable {t : EntityTables}

/-- What is found through the table of names is the first entity of the name. -/
theorem lookup?_eq (h : t.InStep) (name : String) :
    t.lookup? name = t.entities.find? (·.name == name) := by
  rw [lookup?, h.position?_eq, List.find?_eq_bind_findIdx?_getElem?]

/-- The number of a name is the place of the entity that has it. -/
theorem position?_eq_some_iff (h : t.InStep) {name : String} {i : Nat} :
    t.position? name = some i ↔ ∃ e, t.entities[i]? = some e ∧ e.name = name := by
  rw [h.position?_eq, List.findIdx?_eq_some_iff_getElem]
  constructor
  · rintro ⟨hi, hname, -⟩
    exact ⟨t.entities[i], List.getElem?_eq_getElem hi, eq_of_beq hname⟩
  · rintro ⟨e, he, rfl⟩
    obtain ⟨hi, rfl⟩ := List.getElem?_eq_some_iff.mp he
    refine ⟨hi, BEq.rfl, fun j hj hname => ?_⟩
    have hj' : j < t.entities.length := Nat.lt_trans hj hi
    have hsame : (t.entities.map Entity.name)[j]? = (t.entities.map Entity.name)[i]? := by
      simpa [hi, hj'] using hname
    have hlength : j < t.names.length := by rwa [names, List.length_map]
    exact Nat.ne_of_lt hj ((List.getElem?_inj hlength h.names_nodup).mp hsame)

end EntityTables.InStep

namespace EntityIndex

variable {ix ix' : EntityIndex} {e e' : Entity} {name typeName : String}

/-- No entity has a name that a look-up does not find. -/
theorem not_mem_names_of_lookup?_eq_none (h : ix.lookup? name = none) : name ∉ ix.names := by
  rw [ix.inStep.lookup?_eq] at h
  simp only [List.find?_eq_none, beq_iff_eq] at h
  simp only [EntityTables.names, List.mem_map, not_exists, not_and]
  exact fun e he => h e he

/-- An entity that a look-up finds is in the index, and has the name that was looked up. -/
theorem mem_of_lookup? (h : ix.lookup? name = some e) : e ∈ ix.entities ∧ e.name = name := by
  rw [ix.inStep.lookup?_eq] at h
  exact ⟨List.mem_of_find?_eq_some h, by simpa using List.find?_some h⟩

/-- Entities of one index are told apart by their names. -/
theorem eq_of_name_eq (he : e ∈ ix.entities) (he' : e' ∈ ix.entities) (h : e.name = e'.name) :
    e = e' :=
  List.inj_on_of_nodup_map ix.names_nodup he he' h

theorem name_eq_iff (he : e ∈ ix.entities) (he' : e' ∈ ix.entities) : e.name = e'.name ↔ e = e' :=
  ⟨eq_of_name_eq he he', congrArg Entity.name⟩

/-- A look-up finds the entity of a name and nothing else. -/
theorem lookup?_eq_some_iff : ix.lookup? name = some e ↔ e ∈ ix.entities ∧ e.name = name := by
  constructor
  · exact mem_of_lookup?
  · rintro ⟨he, rfl⟩
    cases h : ix.lookup? e.name with
    | none => exact absurd (List.mem_map_of_mem he) (not_mem_names_of_lookup?_eq_none h)
    | some other =>
      obtain ⟨hother, hname⟩ := mem_of_lookup? h
      rw [eq_of_name_eq hother he hname]

theorem lookup?_name (he : e ∈ ix.entities) : ix.lookup? e.name = some e :=
  lookup?_eq_some_iff.mpr ⟨he, rfl⟩

theorem lookup?_eq_none_iff : ix.lookup? name = none ↔ name ∉ ix.names := by
  constructor
  · exact not_mem_names_of_lookup?_eq_none
  · intro h
    cases hl : ix.lookup? name with
    | none => rfl
    | some e =>
      obtain ⟨he, rfl⟩ := mem_of_lookup? hl
      exact absurd (List.mem_map_of_mem he) h

/-- Two indexes that answer every look-up alike hold the same entities, in some order. -/
theorem entities_perm (h : ix.lookup? = ix'.lookup?) : ix.entities.Perm ix'.entities := by
  rw [List.perm_ext_iff_of_nodup ix.names_nodup.of_map ix'.names_nodup.of_map]
  intro e
  constructor
  · intro he
    exact (mem_of_lookup? (h ▸ lookup?_name he)).1
  · intro he
    exact (mem_of_lookup? (h ▸ lookup?_name he)).1

/-! ## Type names -/

/-- What a type name means: the entity of that name or, where no entity has it, the one whose name
it is behind one interface prefix. A prefix alone means nothing. -/
inductive Denotes (ix : EntityIndex) : String → Entity → Prop
  | exact {typeName : String} {e : Entity} : e ∈ ix.entities → typeName = e.name →
      ix.Denotes typeName e
  | stripped {typeName : String} {e : Entity} : typeName ∉ ix.names → e ∈ ix.entities →
      e.name ≠ "" → typeName = ix.interfacePrefix.toString ++ e.name → ix.Denotes typeName e

theorem Denotes.mem (h : ix.Denotes typeName e) : e ∈ ix.entities := by
  cases h with
  | exact he => exact he
  | stripped _ he => exact he

private theorem eq_toString_append_iff {c : Char} {s t : String} :
    s = c.toString ++ t ↔ s.toList = c :: t.toList := by
  rw [← String.toList_inj, String.toList_append, Char.toString, String.toList_singleton,
    List.singleton_append]

/-- Resolving a type name finds the entity that it means. -/
theorem resolve?_eq_some_iff : ix.resolve? typeName = some e ↔ ix.Denotes typeName e := by
  cases hl : ix.lookup? typeName with
  | some found =>
    obtain ⟨hmem, rfl⟩ := mem_of_lookup? hl
    simp only [EntityTables.resolve?, hl, Option.some_or, Option.some.injEq]
    constructor
    · rintro rfl
      exact .exact hmem rfl
    · intro h
      cases h with
      | exact he heq => exact eq_of_name_eq hmem he heq
      | stripped hn => exact absurd (List.mem_map_of_mem hmem) hn
  | none =>
    have hnone := lookup?_eq_none_iff.mp hl
    simp only [EntityTables.resolve?, hl, Option.none_or]
    constructor
    · intro h
      split at h
      · cases h
      · next c rest hlist =>
        split at h
        · next hc =>
          obtain ⟨he, hname⟩ := mem_of_lookup? h
          refine .stripped hnone he ?_ ?_
          · rw [hname]
            simpa using hc.2
          · rw [eq_toString_append_iff, hlist, hname, ← hc.1, String.toList_ofList]
        · cases h
    · intro h
      cases h with
      | exact he heq => exact absurd (heq ▸ List.mem_map_of_mem he) hnone
      | stripped _ he hne heq =>
        rw [eq_toString_append_iff.mp heq]
        have hrest : e.name.toList ≠ [] := by simpa using hne
        simp only [hrest, ne_eq, not_false_eq_true, and_self, ↓reduceIte, String.ofList_toList]
        exact lookup?_name he

theorem mem_of_resolve? (h : ix.resolve? typeName = some e) : e ∈ ix.entities :=
  (resolve?_eq_some_iff.mp h).mem

/-- Resolving depends on look-ups and on the prefix only. -/
theorem resolve?_congr (h : ix.lookup? = ix'.lookup?)
    (hp : ix.interfacePrefix = ix'.interfacePrefix) : ix.resolve? = ix'.resolve? := by
  funext typeName
  simp only [EntityTables.resolve?, h, hp]

end EntityIndex

end SceneDiagram
