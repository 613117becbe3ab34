import SceneDiagram.Document
import SceneDiagram.Text.Blank

/-!
# Type declarations

What a source file declares about a type, as far as a diagram shows it: attributes, properties,
methods and constructors with the names and types that are written in the source. A partial type
comes in several fragments, which `Declaration.merge` puts together.
-/

namespace SceneDiagram

open Text

/-- An argument of an attribute, with a name or without. -/
structure AttributeArgument where
  name : Option String
  value : String
deriving Repr, DecidableEq

/-- An attribute of a type or a member. -/
structure Attribute where
  name : String
  arguments : List AttributeArgument
deriving Repr, DecidableEq

namespace Attribute

/-- Whether an attribute is meant by a name. The name as written may end in `Attribute`. -/
def isNamed (a : Attribute) (name : String) : Bool :=
  a.name == name || a.name == name ++ "Attribute"

/-- Whether an argument with a given name is the word `true`. -/
def flag (a : Attribute) (name : String) : Bool :=
  a.arguments.any fun arg => arg.name == some name && arg.value == "true"

end Attribute

/-- What kind of type is declared. -/
inductive TypeKind where
  | classType
  | recordType
  | structType
  | interfaceType
deriving Repr, DecidableEq

/-- A property of a type. -/
structure DataMember where
  name : String
  writtenType : String
  line : Nat
  attributes : List Attribute
  isOverride : Bool
deriving Repr, DecidableEq

namespace DataMember

/-- The type of a property, without blanks around it. -/
def typeName (p : DataMember) : String := trim p.writtenType

/-- Whether a property carries an attribute. -/
def hasAttribute (p : DataMember) (name : String) : Bool :=
  p.attributes.any (·.isNamed name)

end DataMember

/-- The interface that a method implements explicitly, as in `IProvide<Repo>`. -/
structure ExplicitInterface where
  name : String
  typeArguments : List String
deriving Repr, DecidableEq

namespace ExplicitInterface

/-- The type argument of an interface that has exactly one, without blanks around it. -/
def singleArgument? (i : ExplicitInterface) : Option String :=
  match i.typeArguments with
  | [argument] => some (trim argument)
  | _ => none

/-- An interface with its type arguments. -/
def render (i : ExplicitInterface) : String :=
  if i.typeArguments.isEmpty then i.name
  else i.name ++ "<" ++ String.intercalate ", " i.typeArguments ++ ">"

end ExplicitInterface

/-- A method of a type. -/
structure Method where
  name : String
  line : Nat
  explicitInterface : Option ExplicitInterface
  attributes : List Attribute
  isOverride : Bool
deriving Repr, DecidableEq

/-- A member of a type. -/
inductive Member where
  | property (p : DataMember)
  | method (m : Method)
deriving Repr, DecidableEq

namespace Member

/-- A member that is a property. -/
def property? : Member → Option DataMember
  | property p => some p
  | method _ => none

/-- A member that is a method. -/
def method? : Member → Option Method
  | property _ => none
  | method m => some m

end Member

/-- A parameter of a constructor. -/
structure Parameter where
  name : String
  writtenType : String
  line : Nat
deriving Repr, DecidableEq

/-- The type of a parameter, without blanks around it. -/
def Parameter.typeName (p : Parameter) : String := trim p.writtenType

/-- The parameters of one constructor, and the line that declares it. -/
structure ParameterList where
  line : Nat
  parameters : List Parameter
deriving Repr, DecidableEq

/-- A fragment of a type declaration, or several put together. -/
structure Declaration where
  name : String
  kind : TypeKind
  file : String
  line : Nat
  attributes : List Attribute
  members : List Member
  primaryConstructor : Option ParameterList
  constructors : List ParameterList
deriving Repr, DecidableEq

namespace Declaration

/-- Whether a declaration is one of an interface. -/
def isInterface (d : Declaration) : Bool := d.kind == .interfaceType

/-- Adds what another fragment declares after what is there. The first primary constructor
stays. -/
def merge (d fragment : Declaration) : Declaration :=
  { d with
    attributes := d.attributes ++ fragment.attributes
    members := d.members ++ fragment.members
    primaryConstructor := d.primaryConstructor.or fragment.primaryConstructor
    constructors := d.constructors ++ fragment.constructors }

/-- Adds fragments to a declaration, of which the first fragment is the start if there is none. -/
def mergeAll : Option Declaration → List Declaration → Option Declaration
  | d, [] => d
  | none, fragment :: fragments => mergeAll (some fragment) fragments
  | some d, fragment :: fragments => mergeAll (some (d.merge fragment)) fragments

/-- The first attribute that a name means. -/
def attribute? (d : Declaration) (name : String) : Option Attribute :=
  d.attributes.find? (·.isNamed name)

/-- The properties in the order of declaration. -/
def properties (d : Declaration) : List DataMember :=
  d.members.filterMap Member.property?

/-- The methods in the order of declaration. -/
def methods (d : Declaration) : List Method :=
  d.members.filterMap Member.method?

/-- All constructors, the primary one first. -/
def allConstructors (d : Declaration) : List ParameterList :=
  d.primaryConstructor.toList ++ d.constructors

end Declaration

/-! ## Reading declarations from a document -/

open Document

/-- Reads an argument of an attribute. -/
def AttributeArgument.ofDocument? (s : Strictness) (d : Document) : Option AttributeArgument := do
  let fs ← d.fields? s ["name", "value"]
  let name ← fieldD? fs "name" (orNull? string?) none
  let value ← field? fs "value" string?
  some { name, value }

/-- Reads an attribute. -/
def Attribute.ofDocument? (s : Strictness) (d : Document) : Option Attribute := do
  let fs ← d.fields? s ["name", "arguments"]
  let name ← field? fs "name" string?
  let arguments ← fieldD? fs "arguments" (listOf? (AttributeArgument.ofDocument? s)) []
  some { name, arguments }

/-- The kind of type with a given name. -/
def TypeKind.ofName? (name : String) : Option TypeKind :=
  match name with
  | "class" => some .classType
  | "record" => some .recordType
  | "struct" => some .structType
  | "interface" => some .interfaceType
  | _ => none

/-- Reads a property from the fields of a member. -/
def DataMember.ofFields? (fs : List (String × Document)) : Option DataMember := do
  let name ← field? fs "name" string?
  let writtenType ← field? fs "type" string?
  let line ← field? fs "line" word?
  let attributes ← fieldD? fs "attributes" (listOf? (Attribute.ofDocument? .strict)) []
  let isOverride ← fieldD? fs "override" bool? false
  some { name, writtenType, line, attributes, isOverride }

/-- Reads an explicit interface. -/
def ExplicitInterface.ofDocument? (s : Strictness) (d : Document) : Option ExplicitInterface := do
  let fs ← d.fields? s ["name", "type_arguments"]
  let name ← field? fs "name" string?
  let typeArguments ← fieldD? fs "type_arguments" (listOf? string?) []
  some { name, typeArguments }

/-- Reads a method from the fields of a member. -/
def Method.ofFields? (fs : List (String × Document)) : Option Method := do
  let name ← field? fs "name" string?
  let line ← field? fs "line" word?
  let explicitInterface ←
    fieldD? fs "explicit_interface" (orNull? (ExplicitInterface.ofDocument? .strict)) none
  let attributes ← fieldD? fs "attributes" (listOf? (Attribute.ofDocument? .strict)) []
  let isOverride ← fieldD? fs "override" bool? false
  some { name, line, explicitInterface, attributes, isOverride }

/-- The kind of a member and the fields that it has besides. -/
def Member.kindAndRest? : Document → Option (String × Document)
  | .table fs => (field? fs "kind" string?).map (·, .table fs)
  | .list (kind :: rest) => kind.string?.map (·, .list rest)
  | _ => none

/-- Reads a member, whose kind says which fields it has. Since the kind may stand behind them, a
member is read strictly in every notation, and all of its numbers have to fit a word. -/
def Member.ofDocument? (d : Document) : Option Member := do
  guard (d.allIntegers isWord)
  let (kind, rest) ← kindAndRest? d
  match kind with
  | "property" =>
    let fs ← rest.fields? .strict ["name", "type", "line", "attributes", "override"]
    (DataMember.ofFields? fs).map .property
  | "method" =>
    let fs ← rest.fields? .strict ["name", "line", "explicit_interface", "attributes", "override"]
    (Method.ofFields? fs).map .method
  | _ => none

/-- Reads a parameter. -/
def Parameter.ofDocument? (s : Strictness) (d : Document) : Option Parameter := do
  let fs ← d.fields? s ["name", "type", "line"]
  let name ← field? fs "name" string?
  let writtenType ← field? fs "type" string?
  let line ← field? fs "line" word?
  some { name, writtenType, line }

/-- Reads the parameters of a constructor. -/
def ParameterList.ofDocument? (s : Strictness) (d : Document) : Option ParameterList := do
  let fs ← d.fields? s ["line", "parameters"]
  let line ← field? fs "line" word?
  let parameters ← fieldD? fs "parameters" (listOf? (Parameter.ofDocument? s)) []
  some { line, parameters }

/-- Reads a fragment of a declaration. -/
def Declaration.ofDocument? (s : Strictness) (d : Document) : Option Declaration := do
  let fs ← d.fields? s ["name", "kind", "file", "line", "attributes", "members",
    "primary_constructor", "constructors"]
  let name ← field? fs "name" string?
  let kind ← fieldD? fs "kind" (fun k => (k.choice? s).bind TypeKind.ofName?) .classType
  let file ← field? fs "file" string?
  let line ← fieldD? fs "line" word? 0
  let attributes ← fieldD? fs "attributes" (listOf? (Attribute.ofDocument? s)) []
  let members ← fieldD? fs "members" (listOf? Member.ofDocument?) []
  let primaryConstructor ←
    fieldD? fs "primary_constructor" (orNull? (ParameterList.ofDocument? s)) none
  let constructors ← fieldD? fs "constructors" (listOf? (ParameterList.ofDocument? s)) []
  some { name, kind, file, line, attributes, members, primaryConstructor, constructors }

end SceneDiagram
