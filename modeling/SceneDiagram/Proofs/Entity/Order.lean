import SceneDiagram.Proofs.Entity.Discovery

/-!
# The order of entities

The tables of entities are filled by one rule: what is found is added unless an entity of its name
is there (`InStep.origins_ensure`), and an entity that is told more stays what it was found as
(`origins_addFile`). So the entities of a project stand in the order in which their names first come
up, scenes before files, and the table of names gives each entity its number
(`build_orders_entities`).
-/

namespace SceneDiagram

open Text

/-! ## Adding what is found -/

/-- The name of what an entity is found as. -/
def Origin.name : Origin → String
  | .scene tree => Path.stem tree.path
  | .file path => Path.stem path

theorem Entity.name_eq (e : Entity) : e.name = e.origin.name := by
  rw [Entity.name, Entity.file]
  cases e.origin <;> rfl

namespace EntityTables

variable {t : EntityTables} {markers : Markers}

/-- What the entities were found as. -/
def origins (t : EntityTables) : List Origin := t.entities.map (·.origin)

theorem names_eq (t : EntityTables) : t.names = t.origins.map Origin.name := by
  rw [names, origins, List.map_map]
  exact List.map_congr_left fun e _ => e.name_eq

theorem InStep.origins_ensure (h : t.InStep) (e : Entity) :
    (t.ensure e).origins =
      t.origins ++ if e.name ∈ t.origins.map Origin.name then [] else [e.origin] := by
  rw [← names_eq]
  unfold ensure
  split
  · next hnew =>
    rw [if_neg (h.not_mem_names_of_position?_eq_none hnew)]
    exact List.map_append
  · next number hnumber =>
    obtain ⟨kept, hkept, -, hname⟩ := h.lookup?_of_position? hnumber
    rw [if_pos (hname ▸ List.mem_map_of_mem (List.mem_of_getElem? hkept)), List.append_nil]

/-- A file is added unless there is an entity of its stem, and changes none into another. -/
theorem origins_addFile (t : EntityTables) (file : String) (fragments : List Declaration) :
    (t.addFile markers file fragments).origins = (t.ensure (.ofFile file)).origins := by
  rw [← enroll_eq_ensure]
  exact map_entities_absorb Entity.origin (fun _ => rfl) (t.enroll file).1 (t.enroll file).2

/-- The tables hold the newcomers among what was offered to them. -/
def Holds (t : EntityTables) (found : List Origin) : Prop :=
  t.origins = Keyed.newcomers Origin.name found

theorem Holds.ensure {found : List Origin} (h : t.Holds found) (hstep : t.InStep) (e : Entity) :
    (t.ensure e).Holds (found ++ [e.origin]) := by
  rw [Holds, hstep.origins_ensure, Keyed.newcomers_concat, h, ← Entity.name_eq]
  simp only [Keyed.mem_map_newcomers]

theorem Holds.addScenes {found : List Origin} (h : t.Holds found) (hstep : t.InStep)
    (trees : List Scene.Tree) : (t.addScenes trees).1.Holds (found ++ trees.map .scene) := by
  induction trees generalizing t found with
  | nil => rwa [List.map_nil, List.append_nil]
  | cons tree trees ih =>
    have hnext : (t.addScene tree).1.Holds (found ++ [.scene tree]) := by
      rw [addScene_eq_ensure]
      exact h.ensure hstep (.ofScene tree)
    rw [List.map_cons, List.append_cons]
    exact ih hnext (hstep.addScene tree)

theorem Holds.addFiles {found : List Origin} (h : t.Holds found) (hstep : t.InStep)
    (markers : Markers) (files : List (String × List Declaration)) :
    (t.addFiles markers files).Holds (found ++ files.map (.file ·.1)) := by
  induction files generalizing t found with
  | nil => rwa [List.map_nil, List.append_nil]
  | cons file files ih =>
    have hnext : (t.addFile markers file.1 file.2).Holds (found ++ [.file file.1]) := by
      rw [Holds, origins_addFile]
      exact h.ensure hstep (.ofFile file.1)
    rw [List.map_cons, List.append_cons]
    exact ih hnext (hstep.addFile file.1 file.2)

/-- The entities of a project are the newcomers among its scenes and then its files. -/
theorem holds_build (markers : Markers) (trees : List Scene.Tree) (ds : List Declaration) :
    (build markers trees ds).1.Holds
      (trees.map .scene ++ ((ds.map (·.file)).eraseDups).map .file) := by
  have hempty : (empty markers.interfacePrefix).Holds [] := rfl
  have hstep := inStep_empty markers.interfacePrefix
  have h := (hempty.addScenes hstep trees).addFiles (hstep.addScenes trees) markers (byFile ds)
  rw [List.nil_append, byFile, List.map_map] at h
  exact h

/-! ## Scenes that are left out -/

/-- The scenes of whose stem there is an earlier one, each with the first that has the stem. -/
def leftOut (trees : List Scene.Tree) : List DuplicateScene :=
  trees.zipIdx.filterMap fun (tree, i) =>
    ((trees.take i).find? (Path.stem ·.path == Path.stem tree.path)).map fun kept =>
      ⟨Path.stem tree.path, kept.path, tree.path⟩

theorem leftOut_concat (trees : List Scene.Tree) (tree : Scene.Tree) :
    leftOut (trees ++ [tree]) = leftOut trees ++
      ((trees.find? (Path.stem ·.path == Path.stem tree.path)).map fun kept =>
        ⟨Path.stem tree.path, kept.path, tree.path⟩).toList := by
  rw [leftOut, List.zipIdx_append, List.filterMap_append, leftOut]
  congr 1
  · refine List.filterMap_congr fun p hp => ?_
    simp only [Keyed.take_concat_of_mem_zipIdx hp]
  · cases h : trees.find? (Path.stem ·.path == Path.stem tree.path) <;> simp [h]

theorem addScenes_concat (t : EntityTables) (trees : List Scene.Tree) (tree : Scene.Tree) :
    (t.addScenes (trees ++ [tree])).2 =
      (t.addScenes trees).2 ++ ((t.addScenes trees).1.addScene tree).2 := by
  induction trees generalizing t with
  | nil => exact List.append_nil _
  | cons first trees ih =>
    show (t.addScene first).2 ++ ((t.addScene first).1.addScenes (trees ++ [tree])).2 = _
    rw [ih, ← List.append_assoc]
    rfl

/-- A scene is reported with the entity that a look-up finds under its name. -/
theorem duplicates_addScene (t : EntityTables) (tree : Scene.Tree) :
    (t.addScene tree).2 = ((t.lookup? (Path.stem tree.path)).map fun kept =>
      ⟨Path.stem tree.path, kept.file, tree.path⟩).toList := by
  have hname : (Entity.ofScene tree).name = Path.stem tree.path := rfl
  rw [addScene, lookup?, hname]
  cases t.position? (Path.stem tree.path) <;> rfl

/-- Each scene that is left out is reported with the one that is kept for it. -/
theorem addScenes_reports (c : Char) (trees : List Scene.Tree) :
    ((empty c).addScenes trees).2 = leftOut trees := by
  induction trees using List.reverseRecOn with
  | nil => rfl
  | append_singleton trees tree ih =>
    have hfound : ((empty c).addScenes trees).1.lookup? (Path.stem tree.path) =
        (trees.find? (Path.stem ·.path == Path.stem tree.path)).map .ofScene :=
      (inStep_empty c).lookup?_addScenes trees _
    rw [addScenes_concat, leftOut_concat, ih, duplicates_addScene, hfound, Option.map_map]
    rfl

/-! ## All entities -/

/-- The entities of a project have different names, and these are the stems of their files. The
table gives a name the number of the entity that has it, and no number to any other name, so a
look-up finds the entity of a name and nothing else. First come the scenes whose stem no earlier
scene has; every other scene is reported with the one that was kept. Then come the declaration
files, in the order in which they first occur, whose stem neither a scene has nor an earlier
file. -/
theorem build_orders_entities (markers : Markers) (trees : List Scene.Tree)
    (ds : List Declaration) :
    let t := (build markers trees ds).1
    t.names.Nodup ∧
      (∀ name number, t.position? name = some number ↔
        ∃ e, t.entities[number]? = some e ∧ e.name = name) ∧
      (∀ name e, t.lookup? name = some e ↔ e ∈ t.entities ∧ e.name = name) ∧
      (∀ e ∈ t.entities, e.name = Path.stem e.file) ∧
      t.entities.map (·.origin) =
        (Keyed.newcomers (Path.stem ·.path) trees).map .scene ++
          ((Keyed.newcomers Path.stem (ds.map (·.file)).eraseDups).filter fun file =>
            ∀ tree ∈ trees, Path.stem tree.path ≠ Path.stem file).map .file ∧
      (build markers trees ds).2 = leftOut trees := by
  intro t
  have hstep : t.InStep := inStep_build markers trees ds
  let ix : EntityIndex := ⟨t, hstep⟩
  have hlookup : ∀ name e, ix.lookup? name = some e ↔ e ∈ ix.entities ∧ e.name = name :=
    fun _ _ => EntityIndex.lookup?_eq_some_iff
  have horder : t.origins = _ := holds_build markers trees ds
  refine ⟨hstep.names_nodup, fun _ _ => hstep.position?_eq_some_iff, hlookup, fun _ _ => rfl, ?_,
    addScenes_reports markers.interfacePrefix trees⟩
  rw [origins] at horder
  rw [horder, Keyed.newcomers_append, Keyed.newcomers_map, Keyed.newcomers_map, List.filter_map]
  congr 2
  refine List.filter_congr fun file _ => ?_
  rw [Bool.eq_iff_iff, List.map_map]
  simp [Origin.name]

end EntityTables

/-- The file of an entity is that of a scene or of a declaration. -/
theorem EntityIndex.file_of_mem_build {markers : Markers} {trees : List Scene.Tree}
    {ds : List Declaration} {e : Entity} (he : e ∈ (build markers trees ds).1.entities) :
    (∃ tree ∈ trees, e.file = tree.path) ∨ ∃ d ∈ ds, e.file = d.file := by
  have horigin : e.origin ∈ (EntityTables.build markers trees ds).1.origins :=
    List.mem_map_of_mem he
  rw [EntityTables.holds_build] at horigin
  rcases List.mem_append.mp (Keyed.mem_of_mem_newcomers horigin) with h | h
  · obtain ⟨tree, htree, heq⟩ := List.mem_map.mp h
    exact .inl ⟨tree, htree, by rw [Entity.file, ← heq]⟩
  · obtain ⟨file, hfile, heq⟩ := List.mem_map.mp h
    obtain ⟨d, hd, rfl⟩ := List.mem_map.mp (List.mem_eraseDups.mp hfile)
    exact .inr ⟨d, hd, by rw [Entity.file, ← heq]⟩

end SceneDiagram
