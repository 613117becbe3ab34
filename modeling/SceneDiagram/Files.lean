import SceneDiagram.Files.Name
import SceneDiagram.Keyed

/-!
# Files

A tree of directories and files, without links, and what programs do with it: find a path, read a
text, make directories and write. A path is resolved from the root one segment at a time, so `..`
leads back from a directory only if that exists. Names and paths are bytes and have a greatest
length. Whatever fails leaves the contents of every file as they were.
-/

namespace SceneDiagram

open Text

/-- What a file holds. -/
inductive Contents where
  | text (s : String)
  /-- Bytes that are the UTF-8 form of no text. -/
  | binary (bytes : List UInt8)
deriving Repr, DecidableEq

/-- What a file with the given bytes holds. -/
def Contents.ofBytes (bytes : List UInt8) : Contents :=
  match ofUtf8? bytes with
  | some s => text s
  | none => binary bytes

/-- A file, or a directory with what is in it. -/
inductive FileTree where
  | file (contents : Contents)
  | dir (entries : List (FileName × FileTree))
deriving Repr

/-- Why something cannot be done with a file. -/
inductive FileError where
  | notFound
  | alreadyExists
  | notADirectory
  | isADirectory
  | nameTooLong
  /-- A path with a NUL character, which no file has. -/
  | nulInPath
  | notText
deriving Repr, DecidableEq

/-- What the operating system says about an error. -/
def FileError.render : FileError → String
  | notFound => "No such file or directory (os error 2)"
  | alreadyExists => "File exists (os error 17)"
  | notADirectory => "Not a directory (os error 20)"
  | isADirectory => "Is a directory (os error 21)"
  | nameTooLong => "File name too long (os error 36)"
  | nulInPath => "file name contained an unexpected NUL byte"
  | notText => "stream did not contain valid UTF-8"

/-! ## Limits -/

/-- The greatest number of bytes in a name. -/
def nameLimit : Nat := 255

/-- The greatest number of bytes in a path. -/
def pathLimit : Nat := 4095

/-- Refuses a path that no file can have, whatever there is in the tree. -/
def checkPath (path : List UInt8) : Except FileError Unit :=
  if path.contains 0 then .error .nulInPath
  else if path.length > pathLimit then .error .nameTooLong
  else .ok ()

namespace FileTree

/-! ## Places in a tree -/

/-- The names of directories on the way to a place, and the name of the place. -/
abbrev Place := List FileName

/-- What a directory has under a name. -/
def child? : FileTree → FileName → Option FileTree
  | file _, _ => none
  | dir entries, name => entries.lookup name

/-- What is at a place. -/
def get? : FileTree → Place → Option FileTree
  | t, [] => some t
  | t, name :: place => (t.child? name).bind (·.get? place)

/-- Puts something at a place. The directories on the way have to be there. -/
def put (new : FileTree) : Place → FileTree → FileTree
  | [], _ => new
  | _ :: _, file c => file c
  | [name], dir entries => dir (Keyed.put name new entries)
  | name :: next :: place, dir entries =>
    match entries.lookup name with
    | none => dir entries
    | some inner => dir (Keyed.put name (put new (next :: place) inner) entries)

/-- Whether there is a directory at a place. -/
def isDirAt (t : FileTree) (place : Place) : Bool :=
  match t.get? place with
  | some (dir _) => true
  | _ => false

/-- A place that has to be a directory. -/
def enter (t : FileTree) (place : Place) : Except FileError Place :=
  match t.get? place with
  | none => .error .notFound
  | some (file _) => .error .notADirectory
  | some (dir _) => .ok place

/-- Follows one name in a path from a directory. -/
def follow (t : FileTree) (place : Place) (name : FileName) : Except FileError Place := do
  let place ← t.enter place
  if name.isIdle then .ok place
  else if name = .up then .ok place.dropLast
  else if name.bytes.length > nameLimit then .error .nameTooLong
  else .ok (place ++ [name])

/-- The place that the names in a path lead to, which need not be there itself. -/
def resolve (t : FileTree) (start : Place) (names : List FileName) : Except FileError Place :=
  names.foldlM t.follow start

/-! ## Reading -/

/-- The text of a file. -/
def text : FileTree → Except FileError String
  | file (.text s) => .ok s
  | file (.binary _) => .error .notText
  | dir _ => .error .isADirectory

mutual

/-- All files of a tree with their places in it. Hidden entries are passed over with everything in
them. -/
def visibleFiles : FileTree → Place → List (Place × FileTree)
  | file c, place => [(place, file c)]
  | dir entries, place => visibleEntries entries place

/-- All visible files in the entries of a directory. -/
def visibleEntries : List (FileName × FileTree) → Place → List (Place × FileTree)
  | [], _ => []
  | (name, t) :: es, place =>
    (if name.isHidden then [] else t.visibleFiles (place ++ [name])) ++
      visibleEntries es place

end

/-! ## Writing -/

/-- The path from the root that has the given names in it. -/
def pathOf (names : List FileName) : List UInt8 :=
  let slash := '/'.toUInt8
  slash :: [slash].intercalate (names.map (·.bytes))

/-- Makes a directory, given by the names in its path from the root. -/
def makeDir (t : FileTree) (names : List FileName) : Except FileError FileTree := do
  checkPath (pathOf names)
  match names.getLast? with
  | none => .error .alreadyExists
  | some name =>
    let parent ← t.resolve [] names.dropLast
    let parent ← t.enter parent
    if name = .up then .error .alreadyExists
    else
      let place ← t.follow parent name
      if (t.get? place).isSome then .error .alreadyExists else .ok (put (dir []) place t)

/-- Whether the names in a path lead from the root to a directory. -/
def leadsToDir (t : FileTree) (names : List FileName) : Bool :=
  match t.resolve [] names with
  | .ok place => t.isDirAt place
  | .error _ => false

/-- Makes a directory, unless it is there. -/
def ensureDir (t : FileTree) (names : List FileName) : Except FileError FileTree :=
  match t.makeDir names with
  | .error .alreadyExists =>
    if t.leadsToDir names then .ok t else .error .alreadyExists
  | made => made

/-- Makes a directory with all that are missing on the way to it. The names in its path are given
from the last to the first; those that say nothing are left out at its end. The tree that is left
keeps what was made before an error. -/
def ensureDirs : List FileName → FileTree → Except FileError Unit × FileTree
  | [], t => (.ok (), t)
  | name :: up, t =>
    if name.isIdle then ensureDirs up t
    else
      let names := (name :: up).reverse
      match t.ensureDir names with
      | .ok t => (.ok (), t)
      | .error .notFound =>
        match ensureDirs up t with
        | (.error e, t) => (.error e, t)
        | (.ok _, t) =>
          match t.ensureDir names with
          | .ok t => (.ok (), t)
          | .error e => (.error e, t)
      | .error e => (.error e, t)

/-- Writes a file, given by the names in its path from the root, in a directory that is there. -/
def write (t : FileTree) (names : List FileName) (contents : Contents) :
    Except FileError FileTree := do
  checkPath (pathOf names)
  match names.getLast? with
  | none => .error .isADirectory
  | some name =>
    let parent ← t.resolve [] names.dropLast
    let place ← t.follow parent name
    match t.get? place with
    | some (dir _) => .error .isADirectory
    | _ => .ok (put (file contents) place t)

end FileTree

/-! ## Paths as they are written -/

/-- All files that a program sees, and the directory that it runs in. -/
structure Workspace where
  files : FileTree
  current : FileTree.Place
deriving Repr

namespace Workspace

/-- Where a path starts, and the names that it follows from there. -/
def start (w : Workspace) (path : String) : FileTree.Place × List FileName :=
  match path.toList with
  | '/' :: _ => ([], FileName.ofPath path)
  | _ => (w.current, FileName.ofPath path)

/-- The place of a file or directory that is there. -/
def locate (w : Workspace) (path : String) : Except FileError FileTree.Place := do
  checkPath (utf8 path)
  if path = "" then .error .notFound
  else
    let (start, names) := w.start path
    let place ← w.files.resolve start names
    if (w.files.get? place).isSome then .ok place else .error .notFound

/-- What is at a path. -/
def open? (w : Workspace) (path : String) : Except FileError FileTree := do
  let place ← w.locate path
  match w.files.get? place with
  | some t => .ok t
  | none => .error .notFound

/-- Whether there is a file or a directory at a path. -/
def has (w : Workspace) (path : String) : Bool :=
  (w.locate path).toOption.isSome

/-- The text of the file at a path. -/
def readText (w : Workspace) (path : String) : Except FileError String := do
  (← w.open? path).text

end Workspace

end SceneDiagram
