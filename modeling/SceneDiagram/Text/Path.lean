/-!
# Slash-separated paths

A path names a file by the segments between its slashes. Empty segments and the segment `.` say
nothing, except that a leading slash makes a path absolute. The last segment of a path is its file
name unless it is `..`; the file name splits at its last dot into a stem and an extension, but a dot
at its very start belongs to the stem.
-/

namespace SceneDiagram.Text.Path

/-- The texts between the slashes of a path. -/
def segments (path : String) : List (List Char) :=
  path.toList.splitOn '/'

/-- Whether a segment says nothing about where a path leads. -/
def isIdle (segment : List Char) : Bool :=
  segment == [] || segment == ['.']

/-- The file name a path ends in, if it names a file. -/
def fileName? (path : String) : Option (List Char) :=
  match ((segments path).filter (! isIdle ·)).getLast? with
  | some name => if name == ['.', '.'] then none else some name
  | none => none

/-- Splits a file name, which is a row of characters or of bytes, at its last dot; a name whose only
dot is its first character has no extension. -/
def splitExtension {α : Type} [BEq α] (dot : α) (name : List α) : List α × Option (List α) :=
  let extension := name.reverse.takeWhile (· != dot)
  match (name.reverse.drop extension.length).drop 1 with
  | [] => (name, none)
  | stem => (stem.reverse, some extension.reverse)

/-- The file name of a path without its extension. -/
def stem? (path : String) : Option String :=
  (fileName? path).map fun name => String.ofList (splitExtension '.' name).1

/-- The file name of a path without its extension, or the whole path if it names no file. -/
def stem (path : String) : String :=
  (stem? path).getD path

end SceneDiagram.Text.Path
