import SceneDiagram.Text.Blank

/-!
# Links

A diagram links back to the files of its project: with a path from the directory of the diagram, or
with the absolute address of the file in an editor.
-/

namespace SceneDiagram

open Text

/-- How the files of a project are linked from a diagram. -/
inductive Linker where
  /-- From a diagram that lies `depth` directories below the project directory. -/
  | relative (depth : Nat)
  /-- With an address that starts with `origin`. -/
  | absolute (origin : String)
deriving Repr, DecidableEq

namespace Linker

/-- A text without the slashes at its end. -/
def trimSlashes (s : String) : String :=
  String.ofList (s.toList.reverse.dropWhile (· == '/')).reverse

/-- The linker whose addresses start with a scheme and the project directory. -/
def ofScheme (scheme projectDir : String) : Linker :=
  let dir := trimSlashes projectDir
  .absolute (if dir.isEmpty then scheme else scheme ++ dir ++ "/")

/-- The way up through a number of directories. -/
def climb : Nat → String
  | 0 => ""
  | n + 1 => "../" ++ climb n

/-- What stands before a path in its link. -/
def origin : Linker → String
  | relative depth => climb depth
  | absolute origin => origin

/-- The link to a path of the project. A blank path has none. -/
def link (l : Linker) (path : String) : String :=
  if isBlankText path then "" else l.origin ++ path

end Linker

end SceneDiagram
