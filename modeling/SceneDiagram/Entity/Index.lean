import SceneDiagram.Entity.Tables

/-!
# The index of entities

Tables of entities that are in step. What is built from the files of a project is such an index.
-/

namespace SceneDiagram

/-- The entities of a project, found by their names. -/
structure EntityIndex extends EntityTables where
  inStep : toEntityTables.InStep

namespace EntityIndex

/-- No two entities of an index have one name. -/
theorem names_nodup (ix : EntityIndex) : ix.names.Nodup := ix.inStep.names_nodup

/-- The index of a project without files. -/
def empty (interfacePrefix : Char) : EntityIndex :=
  ⟨EntityTables.empty interfacePrefix, EntityTables.inStep_empty interfacePrefix⟩

/-- Adds an entity of a new name. -/
def insert (ix : EntityIndex) (e : Entity) (hnew : ix.position? e.name = none) : EntityIndex :=
  ⟨ix.toEntityTables.insert e, ix.inStep.insert hnew⟩

/-- The index of a project, and the scenes that are left out of it. -/
def build (markers : Markers) (scenes : List Scene.Tree) (declarations : List Declaration) :
    EntityIndex × List DuplicateScene :=
  let built := EntityTables.build markers scenes declarations
  (⟨built.1, EntityTables.inStep_build markers scenes declarations⟩, built.2)

end EntityIndex

end SceneDiagram
