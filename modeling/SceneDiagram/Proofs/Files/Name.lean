import Mathlib.Data.List.Lex
import Mathlib.Order.Lattice
import SceneDiagram.Files.Name
import SceneDiagram.Proofs.Text.Path

/-!
# Order and extensions of names

Names are in the order of their bytes, which is a linear one (`le_iff`). A hidden name is a text with
a dot first, so its first byte is that of a dot (`head?_of_isHidden`). A name has the extension of a
scene if its bytes end in a dot and those of that extension, whether or not what stands before is a
text (`extension?_bind_text?_eq_some_iff`).
-/

namespace SceneDiagram

open Text

namespace FileName

variable {name : FileName} {s : String}

/-! ## Order -/

theorem key_injective : Function.Injective key := by
  intro a b h
  have hbytes := List.map_injective_iff.mpr (fun _ _ => UInt8.toNat_inj.mp) h
  exact congrArg mk hbytes

instance : LinearOrder FileName := LinearOrder.lift' key key_injective

theorem le_iff {a b : FileName} : a.le b = true ↔ a ≤ b := by
  have hnot : ¬ b < a ↔ a ≤ b := not_lt
  rw [le, decide_eq_true_iff]
  exact hnot

/-! ## Characters of names -/

theorem isHidden_iff :
    name.isHidden = true ↔ ∃ s, name = ofText s ∧ s.toList.head? = some '.' := by
  rw [isHidden, Option.any_eq_true]
  simp only [text?_eq_some_iff, beq_iff_eq]

/-- A hidden name starts with the byte of a dot. -/
theorem head?_of_isHidden (h : name.isHidden = true) : name.bytes.head? = some '.'.toUInt8 := by
  obtain ⟨s, rfl, hs⟩ := isHidden_iff.mp h
  obtain ⟨cs, hcs⟩ := List.head?_eq_some_iff.mp hs
  rw [ofText, utf8_eq_flatMap, hcs]
  rfl

/-- The extension of a name is a text if the name ends in a dot and that text, with something
before. -/
theorem extension?_bind_text?_eq_some_iff (h : '.'.toUInt8 ∉ utf8 s) :
    name.extension?.bind (·.text?) = some s ↔
      ∃ stem, stem ≠ [] ∧ name.bytes = stem ++ '.'.toUInt8 :: utf8 s := by
  simp only [Option.bind_eq_some_iff, text?_eq_some_iff, exists_eq_right, extension?,
    Option.map_eq_some_iff, ofText, mk.injEq, Path.splitExtension_snd_eq_some_iff, h,
    not_false_eq_true, and_true]

end FileName

end SceneDiagram
