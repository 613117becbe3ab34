/-!
# Blocks of a diagram

A diagram is a tree of blocks. A class block shows one entity; a package block holds the class of an
entity, the blocks nested in it, and an arrow to every entity that it is composed of. Every block
within another is written four blanks further in.
-/

namespace SceneDiagram

/-- A heading and the lines under it. -/
structure ClassSection where
  title : String
  lines : List String
deriving Repr, DecidableEq

/-- The class of one entity. -/
structure ClassBlock where
  name : String
  /-- Whether the entity has no script, only a scene. -/
  sceneOnly : Bool
  fileLine : String
  sections : List ClassSection
deriving Repr, DecidableEq

/-- A composition arrow. It is long if the child is composed of others in turn. -/
structure Arrow where
  parent : String
  member : String
  long : Bool
  child : String
deriving Repr, DecidableEq

/-- A block with everything in it. -/
inductive Block where
  | single (own : ClassBlock)
  | package (kind link : String) (own : ClassBlock) (nested : List Block) (arrows : List Arrow)
deriving Repr

/-- A line of the text at a depth of nesting. -/
def indented (depth : Nat) (text : String) : String :=
  String.ofList (List.replicate (4 * depth) ' ') ++ text

/-- The lines of a section. -/
def ClassSection.text (s : ClassSection) : List String :=
  "--" :: s.title :: s.lines

/-- The lines of a class. -/
def ClassBlock.text (c : ClassBlock) (depth : Nat) : List String :=
  indented depth
      ("class " ++ c.name ++ (if c.sceneOnly then " << (S,black) >>" else "") ++ " \x7b") ::
    (c.fileLine :: c.sections.flatMap ClassSection.text).map (indented (depth + 1)) ++
    [indented depth "\x7d"]

/-- An arrow as it is written. -/
def Arrow.text (a : Arrow) : String :=
  a.parent ++ "::" ++ a.member ++ (if a.long then " ---> " else " --> ") ++ a.child

namespace Block

/-- The class that a block shows. -/
def own : Block → ClassBlock
  | .single c | package _ _ c _ _ => c

/-- Whether a block is a package. -/
def isPackage : Block → Bool
  | .single _ => false
  | package .. => true

mutual

/-- The lines of a block. -/
def text : Block → Nat → List String
  | .single c, depth => c.text depth
  | package kind link own nested arrows, depth =>
    indented depth ("package " ++ own.name ++ "-" ++ kind ++ " [[" ++ link ++ "]] \x7b") ::
      own.text (depth + 1) ++ textAll nested (depth + 1) ++
      arrows.map (fun a => indented (depth + 1) a.text) ++ [indented depth "\x7d"]

/-- The lines of blocks that follow each other. -/
def textAll : List Block → Nat → List String
  | [], _ => []
  | b :: bs, depth => b.text depth ++ textAll bs depth

end

mutual

/-- The classes that a block shows, in the order in which they are written. -/
def classes : Block → List ClassBlock
  | .single c => [c]
  | package _ _ own nested _ => own :: classesAll nested

/-- The classes of blocks that follow each other. -/
def classesAll : List Block → List ClassBlock
  | [] => []
  | b :: bs => b.classes ++ classesAll bs

end

/-- The text of a block. -/
def render (b : Block) : String :=
  String.intercalate "\n" (b.text 0)

end Block

end SceneDiagram
