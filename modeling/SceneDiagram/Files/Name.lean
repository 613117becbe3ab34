import SceneDiagram.Text.Bytes
import SceneDiagram.Text.Path

/-!
# Names of files

The name of a file or directory is a row of bytes, which need not be the form of a text. A segment
of a path that is written as a text is the name with the bytes of that text, and different texts are
different names. What depends on the text of a name, like whether it is hidden, does not hold of a
name that has none.
-/

namespace SceneDiagram

open Text

/-- The name of a file or directory. -/
structure FileName where
  bytes : List UInt8
deriving Repr, DecidableEq

namespace FileName

/-- The name that is written as a text. -/
def ofText (s : String) : FileName := ⟨utf8 s⟩

instance : Coe String FileName := ⟨ofText⟩

/-- The text that a name is the form of. -/
def text? (name : FileName) : Option String := ofUtf8? name.bytes

/-- A name as a text, with the replacement character for what forms no character. -/
def shown (name : FileName) : String := lossy name.bytes

/-- The name that leads back from a directory. -/
def up : FileName := ".."

/-- Whether a name says nothing about where a path leads. -/
def isIdle (name : FileName) : Bool := name == ofText "" || name == ofText "."

/-- Whether a name is a text that starts with a dot. -/
def isHidden (name : FileName) : Bool := name.text?.any fun s => s.toList.head? == some '.'

/-- What is behind the last dot of a name, if that has something before. -/
def extension? (name : FileName) : Option FileName :=
  (Path.splitExtension '.'.toUInt8 name.bytes).2.map mk

/-- What names are sorted by: their bytes as numbers. -/
def key (name : FileName) : List Nat := name.bytes.map UInt8.toNat

/-- Whether a name is not behind another: the first bytes that differ decide. -/
def le (a b : FileName) : Bool := decide (¬ b.key < a.key)

/-- The name that a segment of a path is. -/
def ofSegment (segment : List Char) : FileName := ofText (String.ofList segment)

/-- The names in a path that is written as a text. -/
def ofPath (path : String) : List FileName := (Path.segments path).map ofSegment

@[simp] theorem text?_ofText (s : String) : (ofText s).text? = some s := ofUtf8?_utf8 s

theorem text?_eq_some_iff {name : FileName} {s : String} :
    name.text? = some s ↔ name = ofText s := by
  rw [text?, ofUtf8?_eq_some_iff, ofText, FileName.mk.injEq]

theorem ofText_inj {s t : String} : ofText s = ofText t ↔ s = t := by
  rw [ofText, ofText, FileName.mk.injEq, utf8_inj]

theorem ofSegment_toList (s : String) : ofSegment s.toList = ofText s := by
  rw [ofSegment, String.ofList_toList]

theorem ofSegment_inj {a b : List Char} : ofSegment a = ofSegment b ↔ a = b := by
  rw [ofSegment, ofSegment, ofText_inj, String.ofList_inj]

theorem isIdle_ofSegment (segment : List Char) :
    (ofSegment segment).isIdle = Path.isIdle segment := by
  rw [Bool.eq_iff_iff, isIdle, Path.isIdle, Bool.or_eq_true, Bool.or_eq_true, beq_iff_eq,
    beq_iff_eq, beq_iff_eq, beq_iff_eq, ← ofSegment_toList, ← ofSegment_toList, ofSegment_inj,
    ofSegment_inj]
  rfl

theorem ofSegment_eq_up_iff {segment : List Char} :
    ofSegment segment = up ↔ segment = ['.', '.'] := by
  rw [up, ← ofSegment_toList, ofSegment_inj]
  rfl

end FileName

end SceneDiagram
