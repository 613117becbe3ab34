import SceneDiagram.Diagnostic
import SceneDiagram.Relation.Mention

/-!
# Warnings

What a run tells its user besides its results: a message, and named details.
-/

namespace SceneDiagram

/-- Something that a run passes over. -/
inductive Warning where
  /-- A finding in a scene that could be read all the same. -/
  | sceneFinding (d : Diagnostic)
  /-- A scene that could not be read. -/
  | malformedScene (path : String) (e : ParseError)
  | duplicateScene (d : DuplicateScene)
  /-- A mention of a known relation; the ends are given by number and by name. -/
  | duplicateEdge (refused : DuplicateEdge Nat) (source target member : String)
deriving Repr, DecidableEq

/-- How an entity is called by its number. -/
def entityNumber (n : Nat) : String := "#" ++ toString n

namespace Warning

/-- The message of a warning. -/
def message : Warning → String
  | sceneFinding _ => "Scene parser warning"
  | malformedScene _ e => "Skipping malformed scene: " ++ e.render
  | duplicateScene _ => "Duplicate scene entity name"
  | duplicateEdge refused _ _ _ => refused.render entityNumber

/-- The details of a warning. -/
def details : Warning → List (String × String)
  | sceneFinding d => [("diagnostic", d.render)]
  | malformedScene path _ => [("path", path)]
  | duplicateScene d => [("name", d.name), ("kept", d.kept), ("skipped", d.skipped)]
  | duplicateEdge _ source target member =>
    [("entity", source), ("target", target), ("member", member)]

/-- A warning in one line: its message, then the details by name. -/
def render (w : Warning) : String :=
  w.message ++ String.join (w.details.map fun (name, value) => " " ++ name ++ "=" ++ value)

/-- The warning about a mention of a known relation. -/
def ofRepeated (ix : EntityIndex) (r : RepeatedMention) : Warning :=
  let number (name : String) : Nat := (ix.position? name).getD ix.size
  .duplicateEdge
    ⟨number r.refused.source, number r.refused.target, r.refused.relation, r.refused.existing⟩
    r.refused.source r.refused.target r.member

end Warning

end SceneDiagram
