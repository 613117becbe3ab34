/-!
# Byte offsets into a text

Positions in a source are counted in bytes of its UTF-8 form, while the text itself is a list of
characters. `byteLength` measures a text, and `splitAtByte?` cuts it at an offset when the offset
falls between two characters. The laws say that a cut loses nothing (`append_of_splitAtByte?`) and
that the offset of a cut is the length of its first part (`splitAtByte?_byteLength`).
-/

namespace SceneDiagram.Text

/-- The number of bytes a text takes in UTF-8. -/
def byteLength : List Char → Nat
  | [] => 0
  | c :: cs => c.utf8Size + byteLength cs

@[simp] theorem byteLength_nil : byteLength [] = 0 := rfl

@[simp] theorem byteLength_cons (c : Char) (cs : List Char) :
    byteLength (c :: cs) = c.utf8Size + byteLength cs := rfl

@[simp] theorem byteLength_append (cs ds : List Char) :
    byteLength (cs ++ ds) = byteLength cs + byteLength ds := by
  induction cs with
  | nil => simp
  | cons c cs ih => simp [ih, Nat.add_assoc]

/-- Cuts a text at a byte offset. There is no cut beyond the end, nor inside a character. -/
def splitAtByte? : List Char → Nat → Option (List Char × List Char)
  | cs, 0 => some ([], cs)
  | [], _ + 1 => none
  | c :: cs, n + 1 =>
    if c.utf8Size ≤ n + 1 then
      (splitAtByte? cs (n + 1 - c.utf8Size)).map fun (before, after) => (c :: before, after)
    else none

/-- A cut keeps every character, and lies as far into the text as its first part is long. -/
theorem append_of_splitAtByte? {cs before after : List Char} {n : Nat}
    (h : splitAtByte? cs n = some (before, after)) :
    before ++ after = cs ∧ byteLength before = n := by
  induction cs generalizing n before with
  | nil =>
    cases n with
    | zero => simp_all [splitAtByte?]
    | succ n => simp [splitAtByte?] at h
  | cons c cs ih =>
    cases n with
    | zero => simp_all [splitAtByte?]
    | succ n =>
      simp only [splitAtByte?] at h
      split at h
      · simp only [Option.map_eq_some_iff, Prod.exists, Prod.mk.injEq] at h
        obtain ⟨b, a, hcut, rfl, rfl⟩ := h
        obtain ⟨rfl, hlen⟩ := ih hcut
        simp only [List.cons_append, byteLength_cons, true_and]
        omega
      · simp at h

/-- The end of any first part of a text is a place to cut it. -/
theorem splitAtByte?_byteLength (before after : List Char) :
    splitAtByte? (before ++ after) (byteLength before) = some (before, after) := by
  induction before with
  | nil => cases after <;> simp [splitAtByte?]
  | cons c cs ih =>
    have hpos := c.utf8Size_pos
    obtain ⟨n, hn⟩ : ∃ n, c.utf8Size + byteLength cs = n + 1 :=
      ⟨c.utf8Size + byteLength cs - 1, by omega⟩
    have hrest : n + 1 - c.utf8Size = byteLength cs := by omega
    have hle : c.utf8Size ≤ n + 1 := by omega
    simp [splitAtByte?, hn, hle, hrest, ih]

end SceneDiagram.Text
