import SceneDiagram.Document
import SceneDiagram.Keyed

/-!
# Tables of TOML

A document defines its tables piece by piece: by a header, by dotted keys, or merely by being on the
way to another table. No value is defined twice, and a table that one way has defined is closed to
most of the others.
-/

namespace SceneDiagram.Toml

/-- How a table has come to be. -/
inductive TableOrigin where
  /-- On the way to a table with a header. -/
  | passed
  /-- By its own header. -/
  | header
  /-- By a dotted key, even if it was passed before. -/
  | dotted
deriving Repr, DecidableEq

/-- What a key stands for while a document is read. -/
inductive Item where
  /-- A value that is complete. -/
  | value (d : Document)
  | table (origin : TableOrigin) (fields : List (String × Item))
  /-- Tables with a repeated header, the last one first. -/
  | tables (last : List (String × Item)) (others : List (List (String × Item)))
deriving Repr

/-- The fields of a table that is being read. -/
abbrev Fields := List (String × Item)

/-- Changes the table of a header, which may lie in other tables, and of repeated tables in the
last. -/
def atTable (change : Fields → Option Fields) : List String → Fields → Option Fields
  | [], fs => change fs
  | key :: path, fs =>
    match fs.lookup key with
    | none => (atTable change path []).map fun inner => Keyed.put key (.table .passed inner) fs
    | some (.table origin inner) =>
      (atTable change path inner).map fun inner => Keyed.put key (.table origin inner) fs
    | some (.tables last others) =>
      (atTable change path last).map fun last => Keyed.put key (.tables last others) fs
    | some (.value _) => none

/-- Sets a key of a table. A dotted key opens tables on the way that are not there. It leads through
no table with a header, and a table that it leads through can have none later. -/
def setKey (d : Document) : List String → Fields → Option Fields
  | [], _ => none
  | [key], fs =>
    match fs.lookup key with
    | none => some (Keyed.put key (.value d) fs)
    | some _ => none
  | key :: next :: path, fs =>
    match fs.lookup key with
    | none => (setKey d (next :: path) []).map fun inner => Keyed.put key (.table .dotted inner) fs
    | some (.table origin inner) =>
      if origin = .header then none
      else (setKey d (next :: path) inner).map fun inner => Keyed.put key (.table .dotted inner) fs
    | some (.tables last others) =>
      if path = [] then none
      else (setKey d (next :: path) last).map fun last => Keyed.put key (.tables last others) fs
    | some (.value _) => none

/-- Opens a table with a header. It may have been passed before, but not been defined. -/
def openTable (key : String) (fs : Fields) : Option Fields :=
  match fs.lookup key with
  | none => some (Keyed.put key (.table .header []) fs)
  | some (.table .passed inner) => some (Keyed.put key (.table .header inner) fs)
  | some _ => none

/-- Opens one more of the tables with a repeated header. -/
def openRepeated (key : String) (fs : Fields) : Option Fields :=
  match fs.lookup key with
  | none => some (Keyed.put key (.tables [] []) fs)
  | some (.tables last others) => some (Keyed.put key (.tables [] (last :: others)) fs)
  | some _ => none

/-- One line of a document, or several that belong together. -/
inductive Statement where
  | table (path : List String) (key : String)
  | repeated (path : List String) (key : String)
  | set (path : List String) (d : Document)
deriving Repr

/-- The fields that have been read, and the table that further keys belong to. -/
structure Draft where
  root : Fields
  current : List String
deriving Repr

namespace Draft

/-- Takes one more statement into account. -/
def add (d : Draft) : Statement → Option Draft
  | .table path key =>
    (atTable (openTable key) path d.root).map fun root => ⟨root, path ++ [key]⟩
  | .repeated path key =>
    (atTable (openRepeated key) path d.root).map fun root => ⟨root, path ++ [key]⟩
  | .set path value =>
    (atTable (setKey value path) d.current d.root).map fun root => { d with root }

end Draft

mutual

/-- The document that an item is. -/
def Item.document : Item → Document
  | .value d => d
  | .table _ fields => .table (documents fields)
  | .tables last others => .list (tableList others ++ [.table (documents last)])

/-- The fields of a table as documents. -/
def documents : List (String × Item) → List (String × Document)
  | [] => []
  | (key, item) :: fs => (key, item.document) :: documents fs

/-- Repeated tables as documents, the first one first. -/
def tableList : List (List (String × Item)) → List Document
  | [] => []
  | fields :: others => tableList others ++ [.table (documents fields)]

end

end SceneDiagram.Toml
