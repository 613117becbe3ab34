import SceneDiagram.Proofs.Entity.Lookup
import SceneDiagram.Proofs.Keyed

/-!
# How entities are found

The entity that an index holds under a name comes from the first scene of that name and from the
files that share the name as their stem, in their order (`lookup?_build`); other scenes and files
have no part in it. So where no two scenes and no two files share a stem, the order in which they
come does not matter (`lookup?_build_congr`).
-/

namespace SceneDiagram

open Text

namespace EntityTables

variable {t : EntityTables} {e : Entity} {markers : Markers} {name : String}

/-! ## One step -/

/-- An entity that is added is found under its name, and any other name finds what it found. -/
theorem InStep.lookup?_insert (h : t.InStep) (hnew : t.position? e.name = none) (name : String) :
    (t.insert e).lookup? name = if e.name = name then some e else t.lookup? name := by
  rw [(h.insert hnew).lookup?_eq, h.lookup?_eq]
  show (t.entities ++ [e]).find? (·.name == name) = _
  rw [List.find?_append]
  split
  · next hname =>
    have hnone : t.entities.find? (·.name == name) = none := by
      rw [← h.lookup?_eq, lookup?, ← hname, hnew, Option.bind_none]
    simp [hnone, hname]
  · next hname => simp [hname]

/-- The tables with an entity added, unless there is one of its name. -/
def ensure (t : EntityTables) (e : Entity) : EntityTables :=
  match t.position? e.name with
  | none => t.insert e
  | some _ => t

theorem addScene_eq_ensure (t : EntityTables) (tree : Scene.Tree) :
    (t.addScene tree).1 = t.ensure (.ofScene tree) := by
  rw [addScene, ensure]
  cases t.position? (Entity.ofScene tree).name <;> rfl

theorem enroll_eq_ensure (t : EntityTables) (file : String) :
    (t.enroll file).1 = t.ensure (.ofFile file) := by
  have hname : (Entity.ofFile file).name = Path.stem file := rfl
  rw [enroll, ensure, hname]
  cases t.position? (Path.stem file) <;> rfl

/-- A name whose number the table gives is that of the entity with this number. -/
theorem InStep.lookup?_of_position? (h : t.InStep) {number : Nat}
    (hnumber : t.position? name = some number) :
    ∃ e, t.entities[number]? = some e ∧ t.lookup? name = some e ∧ e.name = name := by
  obtain ⟨e, he, hname⟩ := h.position?_eq_some_iff.mp hnumber
  exact ⟨e, he, by rw [lookup?, hnumber, Option.bind_some, he], hname⟩

theorem InStep.lookup?_ensure (h : t.InStep) (e : Entity) (name : String) :
    (t.ensure e).lookup? name = (t.lookup? name).or (if e.name = name then some e else none) := by
  unfold ensure
  split
  · next hnew =>
    rw [h.lookup?_insert hnew]
    split
    · next hname => rw [lookup?, ← hname, hnew, Option.bind_none, Option.none_or]
    · rw [Option.or_none]
  · next number hnumber =>
    split
    · next hname =>
      obtain ⟨kept, -, hkept, -⟩ := h.lookup?_of_position? hnumber
      rw [← hname, hkept, Option.some_or]
    · rw [Option.or_none]

/-- The file of a stem is given the number of the entity of that name. -/
theorem position?_enroll (t : EntityTables) (file : String) :
    (t.enroll file).1.position? (Path.stem file) = some (t.enroll file).2 := by
  unfold enroll
  split
  · assumption
  · exact Keyed.lookup_put.trans (if_pos rfl)

/-- Absorbing fragments changes the entity with the given number only. -/
theorem InStep.lookup?_absorb (h : t.InStep) {number : Nat}
    (hnumber : t.position? name = some number) (fragments : List Declaration) (other : String) :
    (t.absorb markers number fragments).lookup? other =
      if name = other then (t.lookup? other).map (Entity.absorb markers fragments)
      else t.lookup? other := by
  have hposition : (t.absorb markers number fragments).position? other = t.position? other := rfl
  rw [lookup?, hposition, lookup?]
  cases hother : t.position? other with
  | none => simp only [Option.bind_none, Option.map_none, ite_self]
  | some i =>
    obtain ⟨e, he, -, hname⟩ := h.lookup?_of_position? hother
    have hentry : (t.absorb markers number fragments).entities[i]? =
        if number = i then some (e.absorb markers fragments) else some e := by
      rw [EntityTables.absorb, List.getElem?_modify, he]
      split <;> rfl
    rw [Option.bind_some, Option.bind_some, hentry, he, Option.map_some]
    by_cases hsame : name = other
    · subst hsame
      rw [if_pos rfl, if_pos (Option.some.inj (hnumber.symm.trans hother))]
    · rw [if_neg hsame, if_neg]
      rintro rfl
      obtain ⟨e', he', -, hname'⟩ := h.lookup?_of_position? hnumber
      obtain rfl := Option.some.inj (he'.symm.trans he)
      exact hsame (hname'.symm.trans hname)

/-- What the declarations of a file make of the entity that is found so far. -/
def absorbFile (markers : Markers) (found : Option Entity)
    (file : String × List Declaration) : Option Entity :=
  some ((found.getD (.ofFile file.1)).absorb markers file.2)

/-- A file changes the entity of its stem only. -/
theorem InStep.lookup?_addFile (h : t.InStep) (file : String × List Declaration) (name : String) :
    (t.addFile markers file.1 file.2).lookup? name =
      if Path.stem file.1 = name then absorbFile markers (t.lookup? name) file
      else t.lookup? name := by
  have hname : (Entity.ofFile file.1).name = Path.stem file.1 := rfl
  show ((t.enroll file.1).1.absorb markers (t.enroll file.1).2 file.2).lookup? name = _
  rw [(h.enroll file.1).lookup?_absorb (position?_enroll t file.1), enroll_eq_ensure,
    h.lookup?_ensure, hname]
  split
  · rw [absorbFile]
    cases t.lookup? name <;> rfl
  · rw [Option.or_none]

/-! ## All steps -/

/-- The first scene of a name is found, unless there was an entity of that name. -/
theorem InStep.lookup?_addScenes (h : t.InStep) (trees : List Scene.Tree) (name : String) :
    (t.addScenes trees).1.lookup? name =
      (t.lookup? name).or ((trees.find? (Path.stem ·.path == name)).map .ofScene) := by
  induction trees generalizing t with
  | nil =>
    show t.lookup? name = _
    rw [List.find?_nil, Option.map_none, Option.or_none]
  | cons tree trees ih =>
    have hname : (Entity.ofScene tree).name = Path.stem tree.path := rfl
    show ((t.addScene tree).1.addScenes trees).1.lookup? name = _
    rw [ih (h.addScene tree), addScene_eq_ensure, h.lookup?_ensure, Option.or_assoc, hname]
    by_cases h : Path.stem tree.path = name
    · simp [h]
    · simp [h]

/-- All files of a stem in their order make up the entity of that name. -/
theorem InStep.lookup?_addFiles (h : t.InStep) (files : List (String × List Declaration))
    (name : String) :
    (t.addFiles markers files).lookup? name =
      (files.filter (Path.stem ·.1 == name)).foldl (absorbFile markers) (t.lookup? name) := by
  induction files generalizing t with
  | nil => rfl
  | cons file files ih =>
    show ((t.addFile markers file.1 file.2).addFiles markers files).lookup? name = _
    rw [ih (h.addFile file.1 file.2), h.lookup?_addFile]
    by_cases h : Path.stem file.1 = name
    · simp [h]
    · simp [h]

theorem interfacePrefix_ensure (t : EntityTables) (e : Entity) :
    (t.ensure e).interfacePrefix = t.interfacePrefix := by
  unfold ensure
  split <;> rfl

theorem interfacePrefix_addScenes (t : EntityTables) (trees : List Scene.Tree) :
    (t.addScenes trees).1.interfacePrefix = t.interfacePrefix := by
  induction trees generalizing t with
  | nil => rfl
  | cons tree trees ih =>
    show ((t.addScene tree).1.addScenes trees).1.interfacePrefix = _
    rw [ih, addScene_eq_ensure, interfacePrefix_ensure]

theorem interfacePrefix_addFiles (t : EntityTables) (files : List (String × List Declaration)) :
    (t.addFiles markers files).interfacePrefix = t.interfacePrefix := by
  induction files generalizing t with
  | nil => rfl
  | cons file files ih =>
    show ((t.addFile markers file.1 file.2).addFiles markers files).interfacePrefix = _
    rw [ih]
    exact (congrArg interfacePrefix (enroll_eq_ensure t file.1)).trans (interfacePrefix_ensure t _)

end EntityTables

namespace EntityIndex

/-- The entity of a name comes from the first scene of the name and the files of that stem. -/
theorem lookup?_build (markers : Markers) (trees : List Scene.Tree) (ds : List Declaration)
    (name : String) :
    (build markers trees ds).1.lookup? name =
      ((EntityTables.byFile ds).filter (Path.stem ·.1 == name)).foldl
        (EntityTables.absorbFile markers)
        ((trees.find? (Path.stem ·.path == name)).map .ofScene) := by
  have hempty := EntityTables.inStep_empty markers.interfacePrefix
  refine ((hempty.addScenes trees).lookup?_addFiles _ name).trans ?_
  rw [hempty.lookup?_addScenes]
  rfl

theorem interfacePrefix_build (markers : Markers) (trees : List Scene.Tree)
    (ds : List Declaration) :
    (build markers trees ds).1.interfacePrefix = markers.interfacePrefix :=
  (EntityTables.interfacePrefix_addFiles _ _).trans (EntityTables.interfacePrefix_addScenes _ _)

/-! ## In another order -/

variable {trees trees' : List Scene.Tree} {ds ds' : List Declaration}

/-- Declarations that agree file by file make up the same files, in some order. -/
theorem byFile_perm (h : ∀ file, ds.filter (·.file == file) = ds'.filter (·.file == file)) :
    (EntityTables.byFile ds).Perm (EntityTables.byFile ds') := by
  have hmem : ∀ {ds : List Declaration} {file : String},
      file ∈ ds.map (·.file) ↔ ds.filter (·.file == file) ≠ [] := by
    intro ds file
    simp only [List.mem_map, ne_eq, List.filter_eq_nil_iff, not_forall, not_not, exists_prop,
      beq_iff_eq]
  have hfiles : ((ds.map (·.file)).eraseDups).Perm ((ds'.map (·.file)).eraseDups) := by
    rw [List.perm_ext_iff_of_nodup (Keyed.nodup_eraseDups _) (Keyed.nodup_eraseDups _)]
    intro file
    rw [List.mem_eraseDups, List.mem_eraseDups, hmem, hmem, h file]
  unfold EntityTables.byFile
  simp only [h]
  exact hfiles.map _

/-- Files with different stems are found under different names. -/
theorem byFile_stems_nodup
    (unique : ∀ d ∈ ds, ∀ d' ∈ ds, Path.stem d.file = Path.stem d'.file → d.file = d'.file) :
    ((EntityTables.byFile ds).map (Path.stem ·.1)).Nodup := by
  unfold EntityTables.byFile
  rw [List.map_map]
  refine List.Nodup.map_on ?_ (Keyed.nodup_eraseDups _)
  intro file hfile file' hfile' heq
  obtain ⟨d, hd, rfl⟩ := List.mem_map.mp (List.mem_eraseDups.mp hfile)
  obtain ⟨d', hd', rfl⟩ := List.mem_map.mp (List.mem_eraseDups.mp hfile')
  exact unique d hd d' hd' heq

/-- Scenes and files that are told apart by their stems are found alike in any order. -/
theorem lookup?_build_congr (markers : Markers) (hscenes : trees.Perm trees')
    (hstems : (trees.map (Path.stem ·.path)).Nodup)
    (hdecls : ∀ file, ds.filter (·.file == file) = ds'.filter (·.file == file))
    (unique : ∀ d ∈ ds, ∀ d' ∈ ds, Path.stem d.file = Path.stem d'.file → d.file = d'.file) :
    (build markers trees ds).1.lookup? = (build markers trees' ds').1.lookup? := by
  funext name
  have hfiles := Keyed.filter_perm (byFile_perm hdecls) (byFile_stems_nodup unique) name
  rw [lookup?_build, lookup?_build, hfiles, Keyed.find?_perm hscenes hstems]

end EntityIndex

end SceneDiagram
