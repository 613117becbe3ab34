import SceneDiagram.Keyed
import SceneDiagram.Scene
import SceneDiagram.Section.Reader
import SceneDiagram.Text.Path
import SceneDiagram.Token.Lexing

/-!
# Reading a scene

The sections tagged `ext_resource` declare the files that a scene uses, and the sections tagged
`node` are its nodes. A node refers to a declared file by an `ExtResource` call: as the script that
it runs, or as the scene that it is an instance of, whose file stem is then the node's type. A
scene needs exactly one root, and every file that it refers to has to be declared. Sections that
lack what they need are passed over with a warning.
-/

namespace SceneDiagram.Scene

open Text

/-! ## Findings -/

/-- A finding about the sections of a scene. -/
inductive Finding where
  /-- A resource section without an identifier or a path. -/
  | incompleteResource (header : Span)
  /-- A node section without a name. -/
  | unnamedNode (header : Span)
  /-- A reference to a resource that no section declares: its identifier, the span of the
  reference, the identifier as written, and the header of the first declared resource. -/
  | unknownResource (key : String) (reference : Span) (written : String) (first : Option Span)
  /-- A root after the first one. -/
  | secondRoot (name : String) (header : Span) (first : String) (firstHeader : Span)
  /-- A scene without a root. -/
  | missingRoot (place : Span)
deriving Repr, DecidableEq

namespace Finding

/-- Whether a finding prevents the scene. -/
def isError : Finding → Bool
  | incompleteResource _ | unnamedNode _ => false
  | unknownResource .. | secondRoot .. | missingRoot _ => true

/-- The diagnostic that tells a finding. -/
def diagnostic : Finding → Diagnostic
  | incompleteResource header =>
    { severity := .warning
      code := none
      message := "external resource without `id` or `path` is ignored"
      labels := [⟨true, header, "incomplete resource declaration"⟩]
      help := none }
  | unnamedNode header =>
    { severity := .warning
      code := none
      message := "node section without `name` is ignored"
      labels := [⟨true, header, "missing `name` attribute"⟩]
      help := none }
  | unknownResource key reference written first =>
    { severity := .error
      code := some .unknownResource
      message := "unknown external resource `" ++ key ++ "`"
      labels := ⟨true, reference, "`" ++ written ++ "` is not declared"⟩ ::
        (first.map (⟨false, ·, "resources are declared here"⟩)).toList
      help := none }
  | secondRoot name header first firstHeader =>
    { severity := .error
      code := some .duplicateRoot
      message := "scene declares a second root node `" ++ name ++ "`"
      labels := [⟨true, header, "second node without a parent"⟩,
        ⟨false, firstHeader, "`" ++ first ++ "` is already the root"⟩]
      help := some "give the node a `parent` attribute" }
  | missingRoot place =>
    { severity := .error
      code := some .missingRoot
      message := "scene has no root node"
      labels := [⟨true, place, "no `[node]` section without a `parent` attribute"⟩]
      help := some "declare the root as `[node name=\"Root\" type=\"Node\"]`" }

end Finding

/-! ## Resources -/

/-- A declared file: its path in the project, and the header of the section that declares it. -/
structure Resource where
  path : String
  header : Span
deriving Repr, DecidableEq

/-- The declared resources by identifier, in the order in which the identifiers first occur. -/
abbrev Resources := List (String × Resource)

namespace Resources

/-- The project path that a resource path means: the mark of the project root is left out. -/
def projectPath (path : String) : String :=
  match List.isPrefixOf? "res://".toList path.toList with
  | some rest => String.ofList rest
  | none => path

/-- The identifier and the resource that a section declares. -/
def ofSection? (s : Section) : Option (String × Resource) :=
  match (s.attribute? "id").bind (·.asKey?), s.stringAttribute? "path" with
  | some key, some path => some (key, ⟨projectPath path, s.headerSpan⟩)
  | _, _ => none

/-- The sections that declare resources. -/
def sections (ss : List Section) : List Section :=
  ss.filter (·.tag.text == "ext_resource")

/-- The resources that the sections of a scene declare. A second declaration of an identifier takes
the place of the first. -/
def ofSections (ss : List Section) : Resources :=
  ((sections ss).filterMap ofSection?).foldl (fun rs (key, r) => Keyed.put key r rs) []

/-- A finding for every resource section that declares nothing. -/
def findings (ss : List Section) : List Finding :=
  ((sections ss).filter fun s => (ofSection? s).isNone).map fun s =>
    .incompleteResource s.headerSpan

end Resources

/-! ## Nodes -/

/-- What a value refers to: nothing, a declared resource, or one that is missing. -/
inductive Reference where
  | none
  | found (r : Resource)
  | missing (finding : Finding)
deriving Repr, DecidableEq

namespace Reference

/-- Looks up the resource that a value of the source refers to. A value of any other shape refers
to nothing. -/
def ofValue (source : String) (rs : Resources) (v : Value) : Reference :=
  match v.resourceId? with
  | .none => .none
  | some id =>
    match id.asKey? with
    | .none => .none
    | some key =>
      match rs.lookup key with
      | some r => .found r
      | .none =>
        .missing (.unknownResource key v.span (id.span.text source) (rs.head?.map (·.2.header)))

/-- What an optional value refers to. -/
def ofValue? (source : String) (rs : Resources) : Option Value → Reference
  | .none => .none
  | some v => ofValue source rs v

/-- The path of the resource that was found. -/
def path? : Reference → Option String
  | found r => some r.path
  | _ => Option.none

/-- The finding about a missing resource. -/
def findings : Reference → List Finding
  | missing f => [f]
  | _ => []

end Reference

/-- A node as it was read, with the header of its section. -/
structure PlacedNode where
  node : Node
  header : Span
deriving Repr, DecidableEq

namespace PlacedNode

/-- The scene that a node is an instance of. Only a node that names no type is asked for it. -/
def instanced (source : String) (rs : Resources) (s : Section) : Reference :=
  match s.stringAttribute? "type" with
  | some _ => .none
  | none => .ofValue? source rs (s.attribute? "instance")

/-- The script that a node runs. -/
def scripted (source : String) (rs : Resources) (s : Section) : Reference :=
  .ofValue? source rs (s.property? "script")

/-- The node that a section describes, if the section has a name. -/
def ofSection? (source : String) (rs : Resources) (s : Section) : Option PlacedNode :=
  (s.stringAttribute? "name").map fun name =>
    { node :=
        { name
          typeName := (s.stringAttribute? "type").or
            ((instanced source rs s).path?.map Path.stem)
          parent := s.stringAttribute? "parent"
          script := (scripted source rs s).path?
          line := (s.headerSpan.location source).line }
      header := s.headerSpan }

/-- The findings about a node section. -/
def findings (source : String) (rs : Resources) (s : Section) : List Finding :=
  match s.stringAttribute? "name" with
  | none => [.unnamedNode s.headerSpan]
  | some _ => (instanced source rs s).findings ++ (scripted source rs s).findings

end PlacedNode

/-! ## The tree -/

/-- The nodes of a scene that have been read so far: the first root and the other nodes. -/
structure Draft where
  root : Option PlacedNode
  nodes : List Node
  findings : List Finding
deriving Repr

namespace Draft

/-- Adds the node of one more section. -/
def add (source : String) (rs : Resources) (d : Draft) (s : Section) : Draft :=
  let found := d.findings ++ PlacedNode.findings source rs s
  match PlacedNode.ofSection? source rs s with
  | none => { d with findings := found }
  | some p =>
    if p.node.isRoot then
      match d.root with
      | none => { d with root := some p, findings := found }
      | some first =>
        { d with
          findings :=
            found ++ [.secondRoot p.node.name p.header first.node.name first.header] }
    else { d with nodes := d.nodes ++ [p.node], findings := found }

/-- The draft of the sections of a scene. -/
def ofSections (source : String) (ss : List Section) : Draft :=
  let rs := Resources.ofSections ss
  let draft := (ss.filter (·.tag.text == "node")).foldl (add source rs) ⟨none, [], []⟩
  { draft with findings := Resources.findings ss ++ draft.findings }

end Draft

/-- A scene with the warnings that were found while it was read. -/
structure Reading where
  tree : Tree
  warnings : List Diagnostic
deriving Repr

/-- The scene that sections describe, or every finding if one of them is an error. -/
def ofSections (source path : String) (ss : List Section) : Except ParseError Reading :=
  let draft := Draft.ofSections source ss
  match draft.root with
  | none =>
    let place := (ss.head?.map (·.headerSpan)).getD .zero
    .error ⟨(draft.findings ++ [Finding.missingRoot place]).map Finding.diagnostic⟩
  | some root =>
    if draft.findings.any (·.isError) then .error ⟨draft.findings.map Finding.diagnostic⟩
    else .ok ⟨⟨path, root.node, draft.nodes⟩, draft.findings.map Finding.diagnostic⟩

/-- The sections of a source text. -/
def sections (source : String) : Except ParseError (List Section) := do
  let lexemes ← tokenize source
  match Section.ofLexemes lexemes with
  | .ok ss => .ok ss
  | .error e => .error ⟨[e.diagnostic]⟩

/-- Reads a scene from its source text. -/
def parse (source path : String) : Except ParseError Reading := do
  ofSections source path (← sections source)

end SceneDiagram.Scene
