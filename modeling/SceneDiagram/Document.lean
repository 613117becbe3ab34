/-!
# Documents

A document is the data that a manifest or a configuration holds, whatever notation it was written
in. Records are read from it field by field: a record is a table, or the list of its fields in
their order. A field that is not there may have a value of its own; a field that is there has to
have the right shape. Fields that no reader asks for are passed over, unless they hold a number that
cannot be read or is too large for that. How strictly a list has to match its record depends on the
notation.
-/

namespace SceneDiagram

/-- A piece of data. -/
inductive Document where
  | null
  | bool (b : Bool)
  | integer (n : Int)
  /-- A whole number whose digits are missing, or none of its base. It can only be passed over
  unseen. -/
  | unreadable
  | string (s : String)
  | list (items : List Document)
  | table (fields : List (String × Document))
  /-- A number with a fraction, a date, or whatever else no record here holds. -/
  | other
deriving Repr, Inhabited

namespace Document

/-- How closely a document has to match what is read from it. -/
inductive Strictness where
  /-- A list has no more items than its record has fields. Nothing is written as null. -/
  | strict
  /-- Items behind the last field are passed over unseen. Nothing is written as an empty list or
  table. -/
  | lenient
deriving Repr, DecidableEq

/-! ## Numbers in a document -/

mutual

/-- Whether every whole number in a document can be read and has a property. -/
def allIntegers (p : Int → Bool) : Document → Bool
  | integer n => p n
  | unreadable => false
  | list items => allIntegersOfItems p items
  | table fields => allIntegersOfFields p fields
  | null | bool _ | string _ | other => true

/-- Whether every whole number in the items of a list can be read and has a property. -/
def allIntegersOfItems (p : Int → Bool) : List Document → Bool
  | [] => true
  | d :: ds => d.allIntegers p && allIntegersOfItems p ds

/-- Whether every whole number in the fields of a table can be read and has a property. -/
def allIntegersOfFields (p : Int → Bool) : List (String × Document) → Bool
  | [] => true
  | (_, d) :: fs => d.allIntegers p && allIntegersOfFields p fs

end

/-- Whether a number fits a word of 64 bits, with a sign or without. -/
def isWord (n : Int) : Bool :=
  -0x8000000000000000 ≤ n && n ≤ 0xFFFFFFFFFFFFFFFF

/-- Whether a number fits a word of 128 bits, with a sign or without. -/
def isLongWord (n : Int) : Bool :=
  -0x80000000000000000000000000000000 ≤ n && n ≤ 0xFFFFFFFFFFFFFFFFFFFFFFFFFFFFFFFF

/-! ## Shapes -/

/-- A truth value. -/
def bool? : Document → Option Bool
  | bool b => some b
  | _ => none

/-- A text. -/
def string? : Document → Option String
  | string s => some s
  | _ => none

/-- A text of one character. -/
def char? : Document → Option Char
  | string s =>
    match s.toList with
    | [c] => some c
    | _ => none
  | _ => none

/-- A number that fits an unsigned word of 64 bits. -/
def word? : Document → Option Nat
  | integer (.ofNat n) => if n < UInt64.size then some n else none
  | _ => none

/-- A list of which every item can be read. -/
def listOf? (item? : Document → Option α) : Document → Option (List α)
  | list items => items.mapM item?
  | _ => none

/-- Something that may be null. -/
def orNull? (item? : Document → Option α) : Document → Option (Option α)
  | null => some none
  | d => (item? d).map some

/-- Whether a document stands for nothing. -/
def isNothing : Strictness → Document → Bool
  | .strict, null => true
  | .lenient, list [] => true
  | .lenient, table [] => true
  | _, _ => false

/-- The name of a choice that has nothing to add: a text, or a table that has nothing under the name
and no other field. -/
def choice? (s : Strictness) : Document → Option String
  | string name => some name
  | table [(name, d)] => if d.isNothing s then some name else none
  | _ => none

/-- The fields of a record, by name. A list gives the fields in the order of their names. In a table
there may be fields of other names, as long as their numbers fit a long word. -/
def fields? (s : Strictness) (names : List String) : Document → Option (List (String × Document))
  | table fields =>
    if fields.all fun (name, d) => names.contains name || d.allIntegers isLongWord then some fields
    else none
  | list items =>
    if s = .lenient ∨ items.length ≤ names.length then some (names.zip items) else none
  | _ => none

/-- A field that has to be there. -/
def field? (fields : List (String × Document)) (name : String) (item? : Document → Option α) :
    Option α :=
  (fields.lookup name).bind item?

/-- A field that has a value of its own when it is not there. -/
def fieldD? (fields : List (String × Document)) (name : String) (item? : Document → Option α)
    (default : α) : Option α :=
  match fields.lookup name with
  | none => some default
  | some d => item? d

end Document

end SceneDiagram
