import SceneDiagram.Toml.Scalar
import SceneDiagram.Toml.Table

/-!
# Reading TOML

A document is a list of lines: headers of tables, and keys with their values. Values are scalars,
arrays and inline tables. Dates are not read.
-/

namespace SceneDiagram.Toml

mutual

/-- The value at the front of a text. The first argument bounds the length of lists within the
value, the second says how deep they may still lie in each other. -/
def value? : Nat → Nat → List Char → Option (Document × List Char)
  | 0, _, _ => none
  | _ + 1, _, [] => none
  | fuel + 1, depth, c :: cs =>
    if c = '"' ∨ c = '\x27' then (string? (c :: cs)).map fun (s, rest) => (.string s, rest)
    else if c = '[' then
      match depth with
      | 0 => none
      | depth + 1 => (items? fuel depth cs).map fun (items, rest) => (.list items, rest)
    else if c = '\x7b' then
      match depth with
      | 0 => none
      | depth + 1 =>
        (entries? fuel depth [] cs).map fun (fields, rest) => (.table (documents fields), rest)
    else
      let word := (c :: cs).takeWhile (! endsWord ·)
      (plain? word).map fun d => (d, (c :: cs).drop word.length)

/-- The items of an array, after its bracket or a comma. -/
def items? : Nat → Nat → List Char → Option (List Document × List Char)
  | 0, _, _ => none
  | fuel + 1, depth, cs => do
    match ← skipLines? false cs with
    | ']' :: rest => some ([], rest)
    | cs =>
      let (item, rest) ← value? fuel depth cs
      match ← skipLines? false rest with
      | ',' :: rest => (items? fuel depth rest).map fun (items, rest) => (item :: items, rest)
      | ']' :: rest => some ([item], rest)
      | _ => none

/-- The entries of an inline table, after its brace or a comma, and after those already read. Lines
may end anywhere but within a key. -/
def entries? : Nat → Nat → Fields → List Char → Option (Fields × List Char)
  | 0, _, _, _ => none
  | fuel + 1, depth, fields, cs => do
    match ← skipLines? false cs with
    | '\x7d' :: rest => some (fields, rest)
    | cs =>
      let (path, rest) ← key? cs
      match ← skipLines? false rest with
      | '=' :: rest =>
        let (item, rest) ← value? fuel depth (← skipLines? false rest)
        let fields ← setKey item path fields
        match ← skipLines? false rest with
        | ',' :: rest => entries? fuel depth fields rest
        | '\x7d' :: rest => some (fields, rest)
        | _ => none
      | _ => none

end

/-- A key without its last part, and that part. -/
def splitLast? (path : List String) : Option (List String × String) :=
  path.getLast?.map (path.dropLast, ·)

/-- The statement at the front of a text that starts with no blank, and what follows it in its
line. -/
def statement? (cs : List Char) : Option (Statement × List Char) :=
  match cs with
  | '[' :: '[' :: cs => do
    let (path, rest) ← key? cs
    let (path, key) ← splitLast? path
    match rest with
    | ']' :: ']' :: rest => some (.repeated path key, rest)
    | _ => none
  | '[' :: cs => do
    let (path, rest) ← key? cs
    let (path, key) ← splitLast? path
    match rest with
    | ']' :: rest => some (.table path key, rest)
    | _ => none
  | cs => do
    let (path, rest) ← key? cs
    match rest with
    | '=' :: rest =>
      let rest := skipSpace rest
      let (d, rest) ← value? (2 * rest.length + 2) maxDepth rest
      some (.set path d, rest)
    | _ => none

/-- The statements of a text. The first argument bounds their number. -/
def statements? : Nat → List Char → Option (List Statement)
  | 0, _ => none
  | fuel + 1, cs => do
    match ← skipLines? false cs with
    | [] => some []
    | cs =>
      let (s, rest) ← statement? cs
      let rest ← endLine? false rest
      (statements? fuel rest).map (s :: ·)

/-- A text without the mark of its byte order. -/
def dropByteOrderMark : List Char → List Char
  | [] => []
  | c :: cs => if c.toNat = 0xFEFF then cs else c :: cs

/-- The document that a text writes. -/
def read? (text : String) : Option Document := do
  let cs := dropByteOrderMark text.toList
  let statements ← statements? (cs.length + 1) cs
  let draft ← statements.foldlM Draft.add ⟨[], []⟩
  some (.table (documents draft.root))

end SceneDiagram.Toml
