import SceneDiagram.Entity
import SceneDiagram.Keyed

/-!
# The tables of entities

The entities of a project in the order in which they were found, and beside them a table that gives
the number of each name. Scenes come first. Declarations are taken file by file: those of a file
that shares its stem with an entity belong to that entity, and any other file is an entity of its
own.

An entity is asked for by its name only through the table, and it is the table that tells whether
one of its name is there. `InStep` says that the two agree. The tables of a project without files
are in step, and each of the ways in which they are filled and changed leaves them so.
-/

namespace SceneDiagram

open Text

/-- A scene that is left out because an earlier one has its name. -/
structure DuplicateScene where
  name : String
  kept : String
  skipped : String
deriving Repr, DecidableEq

/-- The entities of a project with the table of their names. -/
structure EntityTables where
  /-- The character that interface names start with. -/
  interfacePrefix : Char
  entities : List Entity
  /-- The number of each name, counted from zero. -/
  byName : List (String × Nat)
deriving Repr

namespace EntityTables

/-- The tables of a project without files. -/
def empty (interfacePrefix : Char) : EntityTables := ⟨interfacePrefix, [], []⟩

/-- The number of entities. -/
def size (t : EntityTables) : Nat := t.entities.length

/-- The names of the entities. -/
def names (t : EntityTables) : List String := t.entities.map Entity.name

/-- The number that the table gives for a name. -/
def position? (t : EntityTables) (name : String) : Option Nat := t.byName.lookup name

/-- The entity whose number the table gives for a name. -/
def lookup? (t : EntityTables) (name : String) : Option Entity :=
  (t.position? name).bind (t.entities[·]?)

/-- The entity that a type name means: the one of that name or, if there is none, the one whose
name with an interface prefix it is. -/
def resolve? (t : EntityTables) (typeName : String) : Option Entity :=
  (t.lookup? typeName).or <|
    match typeName.toList with
    | [] => none
    | c :: rest =>
      if c = t.interfacePrefix ∧ rest ≠ [] then t.lookup? (String.ofList rest) else none

/-! ## Filling the tables -/

/-- Adds an entity, whose number is the size so far. -/
def insert (t : EntityTables) (e : Entity) : EntityTables where
  interfacePrefix := t.interfacePrefix
  entities := t.entities ++ [e]
  byName := Keyed.put e.name t.size t.byName

/-- Adds a scene, or says which earlier entity has its name. -/
def addScene (t : EntityTables) (tree : Scene.Tree) : EntityTables × List DuplicateScene :=
  let e := Entity.ofScene tree
  match t.position? e.name with
  | none => (t.insert e, [])
  | some existing =>
    (t, (t.entities[existing]?.map fun kept => ⟨e.name, kept.file, e.file⟩).toList)

/-- Adds scenes in their order. -/
def addScenes : EntityTables → List Scene.Tree → EntityTables × List DuplicateScene
  | t, [] => (t, [])
  | t, tree :: trees =>
    let (next, duplicates) := t.addScene tree
    let (last, later) := next.addScenes trees
    (last, duplicates ++ later)

/-- The number of the entity that a file belongs to, which is a new one if there is none of its
stem. -/
def enroll (t : EntityTables) (file : String) : EntityTables × Nat :=
  match t.position? (Path.stem file) with
  | some existing => (t, existing)
  | none => (t.insert (.ofFile file), t.size)

/-- Adds fragments to the entity with a given number. -/
def absorb (markers : Markers) (t : EntityTables) (number : Nat) (fragments : List Declaration) :
    EntityTables :=
  { t with entities := t.entities.modify number (Entity.absorb markers fragments) }

/-- Adds the declarations of a file. -/
def addFile (markers : Markers) (t : EntityTables) (file : String)
    (fragments : List Declaration) : EntityTables :=
  let (t, number) := t.enroll file
  t.absorb markers number fragments

/-- Adds the declarations of files in their order. -/
def addFiles (markers : Markers) (t : EntityTables) (files : List (String × List Declaration)) :
    EntityTables :=
  files.foldl (fun t (file, fragments) => t.addFile markers file fragments) t

/-- Declarations by their files, in the order in which the files first occur. -/
def byFile (declarations : List Declaration) : List (String × List Declaration) :=
  ((declarations.map (·.file)).eraseDups).map fun file =>
    (file, declarations.filter (·.file == file))

/-- The tables of a project, and the scenes that are left out of them. -/
def build (markers : Markers) (scenes : List Scene.Tree) (declarations : List Declaration) :
    EntityTables × List DuplicateScene :=
  let (t, duplicates) := (empty markers.interfacePrefix).addScenes scenes
  (t.addFiles markers (byFile declarations), duplicates)

/-! ## Tables in step -/

variable {t : EntityTables} {e : Entity} {markers : Markers}

/-- No two entities have one name, and the table gives for each name the number of the entity that
has it, in the order of the entities. -/
structure InStep (t : EntityTables) : Prop where
  names_nodup : t.names.Nodup
  byName : t.byName = t.names.zipIdx

theorem inStep_empty (interfacePrefix : Char) : (empty interfacePrefix).InStep :=
  ⟨List.nodup_nil, rfl⟩

/-- The table gives for a name the number of the first entity that has it. -/
theorem InStep.position?_eq (h : t.InStep) (name : String) :
    t.position? name = t.entities.findIdx? (·.name == name) := by
  have hsame : (name == ·) ∘ Entity.name = fun e => e.name == name :=
    funext fun e => BEq.comm
  rw [position?, h.byName, Keyed.lookup_zipIdx, names, List.findIdx?_map, hsame]
  exact Option.map_id'

theorem InStep.not_mem_names_of_position?_eq_none (h : t.InStep) {name : String}
    (hnone : t.position? name = none) : name ∉ t.names := by
  rw [h.position?_eq, List.findIdx?_eq_none_iff] at hnone
  rintro hmem
  obtain ⟨e, he, rfl⟩ := List.mem_map.mp hmem
  simpa using hnone e he

theorem names_insert (t : EntityTables) (e : Entity) : (t.insert e).names = t.names ++ [e.name] :=
  List.map_append

/-- An entity of a new name keeps the tables in step. -/
theorem InStep.insert (h : t.InStep) (hnew : t.position? e.name = none) : (t.insert e).InStep where
  names_nodup := by
    have hname := h.not_mem_names_of_position?_eq_none hnew
    rw [names_insert, List.nodup_append]
    refine ⟨h.names_nodup, List.nodup_cons.mpr ⟨List.not_mem_nil, List.nodup_nil⟩, ?_⟩
    rintro name hmem _ hsame rfl
    exact hname (List.mem_singleton.mp hsame ▸ hmem)
  byName := by
    have hlength : t.size = 0 + t.names.length := by rw [names, List.length_map, Nat.zero_add, size]
    rw [names_insert, List.zipIdx_append, ← h.byName, ← hlength]
    exact Keyed.put_of_lookup_eq_none hnew

theorem InStep.addScene (h : t.InStep) (tree : Scene.Tree) : (t.addScene tree).1.InStep := by
  unfold EntityTables.addScene
  dsimp only
  split
  · next hnew => exact h.insert hnew
  · exact h

theorem InStep.addScenes (h : t.InStep) (trees : List Scene.Tree) :
    (t.addScenes trees).1.InStep := by
  induction trees generalizing t with
  | nil => exact h
  | cons tree trees ih => exact ih (h.addScene tree)

theorem InStep.enroll (h : t.InStep) (file : String) : (t.enroll file).1.InStep := by
  unfold EntityTables.enroll
  split
  · exact h
  · next hnew => exact h.insert hnew

/-- What an entity keeps when it absorbs fragments, all entities keep. -/
theorem map_entities_absorb {α : Type} {fragments : List Declaration} (f : Entity → α)
    (keeps : ∀ e : Entity, f (e.absorb markers fragments) = f e) (t : EntityTables) (number : Nat) :
    (t.absorb markers number fragments).entities.map f = t.entities.map f := by
  refine List.ext_getElem? fun i => ?_
  rw [absorb, List.getElem?_map, List.getElem?_map, List.getElem?_modify]
  cases t.entities[i]? with
  | none => rfl
  | some e =>
    show some (f (if number = i then e.absorb markers fragments else e)) = some (f e)
    split
    · rw [keeps]
    · rfl

theorem names_absorb (t : EntityTables) (number : Nat) (fragments : List Declaration) :
    (t.absorb markers number fragments).names = t.names :=
  map_entities_absorb Entity.name (Entity.name_absorb markers fragments) t number

theorem InStep.absorb (h : t.InStep) (number : Nat) (fragments : List Declaration) :
    (t.absorb markers number fragments).InStep where
  names_nodup := by rw [names_absorb]; exact h.names_nodup
  byName := by rw [names_absorb]; exact h.byName

theorem InStep.addFile (h : t.InStep) (file : String) (fragments : List Declaration) :
    (t.addFile markers file fragments).InStep :=
  (h.enroll file).absorb _ fragments

theorem InStep.addFiles (h : t.InStep) (files : List (String × List Declaration)) :
    (t.addFiles markers files).InStep := by
  induction files generalizing t with
  | nil => exact h
  | cons file files ih => exact ih (h.addFile file.1 file.2)

/-- The tables of a project are in step. -/
theorem inStep_build (markers : Markers) (scenes : List Scene.Tree)
    (declarations : List Declaration) : (build markers scenes declarations).1.InStep :=
  ((inStep_empty markers.interfacePrefix).addScenes scenes).addFiles (byFile declarations)

end EntityTables

end SceneDiagram
