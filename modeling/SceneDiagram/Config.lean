import SceneDiagram.Declaration

/-!
# Configuration

The settings of a run: how diagrams are drawn and linked, and which attributes and names mark what
a declaration means. The attribute that asks for a diagram can switch options on for it, but none
off.
-/

namespace SceneDiagram

open Document

/-- The options of one diagram. -/
structure Options where
  absoluteLinks : Bool
  showAllMembers : Bool
  showAllMethods : Bool
deriving Repr, DecidableEq

/-- The settings that all diagrams share. -/
structure DiagramSettings where
  useAbsoluteLinks : Bool
  showAllMembers : Bool
  showAllMethods : Bool
  /-- What stands before the project directory in absolute links. -/
  linkScheme : String
  /-- The entities that get a diagram without asking for it. -/
  included : List String
deriving Repr, DecidableEq

namespace DiagramSettings

/-- The settings of a run that has no configuration. -/
def standard : DiagramSettings where
  useAbsoluteLinks := false
  showAllMembers := false
  showAllMethods := false
  linkScheme := "vscode://file/"
  included := []

/-- The settings with one more entity that gets a diagram. -/
def withIncluded (s : DiagramSettings) (name : String) : DiagramSettings :=
  { s with included := s.included ++ [name] }

/-- The settings with absolute links on or off. -/
def withAbsoluteLinks (s : DiagramSettings) (enabled : Bool) : DiagramSettings :=
  { s with useAbsoluteLinks := enabled }

/-- Whether an entity gets a diagram without asking for it. -/
def includes (s : DiagramSettings) (name : String) : Bool :=
  s.included.contains name

/-- The options of the diagram that an attribute asks for. -/
def options (s : DiagramSettings) (request : Option Attribute) : Options :=
  let flag (names : List String) : Bool := request.any fun a => names.any a.flag
  { absoluteLinks := s.useAbsoluteLinks || flag ["UseVSCodePaths", "UseAbsoluteLinks"]
    showAllMembers := s.showAllMembers || flag ["ShowAllProperties", "ShowAllMembers"]
    showAllMethods := s.showAllMethods || flag ["ShowAllMethods"] }

/-- Reads the settings of a configuration. -/
def ofDocument? (s : Strictness) (d : Document) : Option DiagramSettings := do
  let fs ← d.fields? s ["use_absolute_links", "show_all_members", "show_all_methods",
    "link_scheme", "include"]
  let useAbsoluteLinks ← fieldD? fs "use_absolute_links" bool? standard.useAbsoluteLinks
  let showAllMembers ← fieldD? fs "show_all_members" bool? standard.showAllMembers
  let showAllMethods ← fieldD? fs "show_all_methods" bool? standard.showAllMethods
  let linkScheme ← fieldD? fs "link_scheme" string? standard.linkScheme
  let included ← fieldD? fs "include" (listOf? string?) standard.included
  some { useAbsoluteLinks, showAllMembers, showAllMethods, linkScheme, included }

end DiagramSettings

/-- The names that mark what a declaration means. -/
structure Markers where
  /-- The attribute of a type that asks for a diagram. -/
  diagramAttribute : String
  /-- The attribute of a property that is injected. -/
  dependencyAttribute : String
  /-- The interface whose explicit implementations provide a value. -/
  provideInterface : String
  /-- The character that interface names start with. -/
  interfacePrefix : Char
deriving Repr, DecidableEq

namespace Markers

/-- The names of a run that has no configuration. -/
def standard : Markers where
  diagramAttribute := "ClassDiagram"
  dependencyAttribute := "Dependency"
  provideInterface := "IProvide"
  interfacePrefix := 'I'

/-- The name of the interface that belongs to a type. -/
def interfaceName (m : Markers) (typeName : String) : String :=
  m.interfacePrefix.toString ++ typeName

/-- The type that a method provides: the argument of the provide interface, if the method
implements that explicitly. -/
def providedType? (m : Markers) (method : Method) : Option String :=
  match method.explicitInterface with
  | none => none
  | some i => if i.name = m.provideInterface then i.singleArgument? else none

/-- Reads the names of a configuration. -/
def ofDocument? (s : Strictness) (d : Document) : Option Markers := do
  let fs ← d.fields? s ["diagram_attribute", "dependency_attribute", "provide_interface",
    "interface_prefix"]
  let diagramAttribute ← fieldD? fs "diagram_attribute" string? standard.diagramAttribute
  let dependencyAttribute ←
    fieldD? fs "dependency_attribute" string? standard.dependencyAttribute
  let provideInterface ← fieldD? fs "provide_interface" string? standard.provideInterface
  let interfacePrefix ← fieldD? fs "interface_prefix" char? standard.interfacePrefix
  some { diagramAttribute, dependencyAttribute, provideInterface, interfacePrefix }

end Markers

/-- The configuration of a run. -/
structure Config where
  diagram : DiagramSettings
  markers : Markers
deriving Repr, DecidableEq

namespace Config

/-- The configuration of a run that is given none. -/
def standard : Config := ⟨.standard, .standard⟩

/-- Reads a configuration, of which either part may be left out. -/
def ofDocument? (s : Strictness) (d : Document) : Option Config := do
  let fs ← d.fields? s ["diagram", "markers"]
  let diagram ← fieldD? fs "diagram" (DiagramSettings.ofDocument? s) .standard
  let markers ← fieldD? fs "markers" (Markers.ofDocument? s) .standard
  some { diagram, markers }

end Config

end SceneDiagram
