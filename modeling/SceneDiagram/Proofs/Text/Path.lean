import SceneDiagram.Project
import SceneDiagram.Proofs.Text.Mark

/-!
# Paths of diagrams

The segments of a path are the texts between its slashes, so adding to the end of a path adds to its
last segment (`segments_append`). A file name has an extension exactly if there is a last dot in it
with something before (`splitExtension_snd_eq_some_iff`). A diagram lies beside the file of its
entity: the segments of its path are those of the directories of the file, once more those if the
file has no name of its own, and a name that ends in `.g.puml` (`Entity.segments_outputPath`).
-/

namespace SceneDiagram

open Text

namespace Text.Path

variable {cs ext name : List Char} {path : String}

theorem exists_segments (path : String) : ∃ names x, segments path = names ++ [x] :=
  exists_last_piece '/' path.toList

theorem fileName?_of_segments {names : List (List Char)} {x : List Char}
    (h : segments path = names ++ [x]) (hidle : isIdle x = false) (hup : x ≠ ['.', '.']) :
    fileName? path = some x := by
  have hlast : ((segments path).filter (! isIdle ·)).getLast? = some x := by
    rw [h, List.filter_append, List.filter_cons, hidle]
    simp
  rw [fileName?, hlast]
  simp [hup]

theorem mem_segments_of_fileName? (h : fileName? path = some name) :
    name ∈ segments path ∧ isIdle name = false ∧ name ≠ ['.', '.'] := by
  rw [fileName?] at h
  split at h
  · next last hlast =>
    split at h
    · cases h
    · next hup =>
      obtain rfl := Option.some.inj h
      obtain ⟨hmem, hidle⟩ := List.mem_filter.mp (List.mem_of_getLast? hlast)
      exact ⟨hmem, by simpa using hidle, by simpa using hup⟩
  · cases h

/-! ## Extensions -/

section Extension

variable {α : Type} [DecidableEq α] {dot : α} {ext name : List α}

theorem splitExtension_of_notMem (h : dot ∉ name) : splitExtension dot name = (name, none) := by
  have hname : name.splitOn dot = [] ++ [name] := List.splitOn_eq_singleton h
  have hdrop : name.reverse.drop name.reverse.length = [] := List.drop_length
  rw [splitExtension, takeWhile_reverse_of_splitOn hname]
  simp only [hdrop, List.drop_nil]

/-- A file name splits at a last dot that is not its first character. -/
theorem splitExtension_append (h : dot ∉ ext) (stem : List α) :
    splitExtension dot (stem ++ dot :: ext) =
      if stem = [] then (dot :: ext, none) else (stem, some ext) := by
  have hname : (stem ++ dot :: ext).splitOn dot = stem.splitOn dot ++ [ext] := by
    rw [List.splitOn_append_cons_self, List.splitOn_eq_singleton h]
  have hdrop : (stem ++ dot :: ext).reverse.drop ext.reverse.length = dot :: stem.reverse := by
    rw [List.reverse_append, List.reverse_cons, List.append_assoc, List.drop_left]
    rfl
  rw [splitExtension, takeWhile_reverse_of_splitOn hname]
  simp only [hdrop, List.drop_one, List.tail_cons]
  rcases List.eq_nil_or_concat stem with rfl | ⟨stem, c, rfl⟩ <;> simp

/-- A file name has the extension that stands behind its last dot, if that has something before. -/
theorem splitExtension_snd_eq_some_iff :
    (splitExtension dot name).2 = some ext ↔
      ∃ stem, stem ≠ [] ∧ name = stem ++ dot :: ext ∧ dot ∉ ext := by
  constructor
  · intro h
    rcases last_mark dot name with hname | ⟨stem, ext', rfl, hext⟩
    · rw [splitExtension_of_notMem hname] at h
      cases h
    · rw [splitExtension_append hext] at h
      split at h
      · cases h
      · next hstem =>
        obtain rfl := Option.some.inj h
        exact ⟨stem, hstem, rfl, hext⟩
  · rintro ⟨stem, hstem, rfl, hext⟩
    rw [splitExtension_append hext, if_neg hstem]

theorem splitExtension_fst_subset (dot : α) (name : List α) :
    (splitExtension dot name).1 ⊆ name := by
  rcases last_mark dot name with hname | ⟨stem, ext, rfl, hext⟩
  · rw [splitExtension_of_notMem hname]
    exact List.Subset.refl _
  · rw [splitExtension_append hext]
    split
    · next hstem => rw [hstem, List.nil_append]; exact List.Subset.refl _
    · exact List.subset_append_left _ _

end Extension

/-- The stem of a path has no slash in it if the path names a file; otherwise it is the path. -/
theorem stem_cases (path : String) :
    '/' ∉ (stem path).toList ∨ (fileName? path = none ∧ stem path = path) := by
  rw [stem, stem?]
  cases hname : fileName? path with
  | none => exact .inr ⟨rfl, rfl⟩
  | some name =>
    refine .inl fun hslash => ?_
    have hslash' : '/' ∈ (splitExtension '.' name).1 := by simpa using hslash
    exact mark_notMem_of_mem_splitOn (mem_segments_of_fileName? hname).1
      (splitExtension_fst_subset '.' name hslash')

/-! ## Names of diagrams -/

/-- The end of the name of a diagram. -/
def diagramEnd : List Char := ".g.puml".toList

theorem toList_eq_diagramEnd : ".g.puml".toList = diagramEnd := rfl

theorem slash_notMem_diagramEnd : '/' ∉ diagramEnd := by decide

/-- A path whose name is that of a diagram. -/
def IsDiagramName (path : String) : Prop := diagramEnd <:+ path.toList

instance (path : String) : Decidable (IsDiagramName path) :=
  inferInstanceAs (Decidable (diagramEnd <:+ path.toList))

/-- Only short segments say nothing or lead up. -/
theorem isFile_of_length (h : 2 < name.length) : isIdle name = false ∧ name ≠ ['.', '.'] := by
  match name, h with
  | _ :: _ :: _ :: _, _ => simp [isIdle]

theorem isFile_append_diagramEnd (x : List Char) :
    isIdle (x ++ diagramEnd) = false ∧ x ++ diagramEnd ≠ ['.', '.'] := by
  have hlength : 2 < diagramEnd.length := by decide
  refine isFile_of_length ?_
  rw [List.length_append]
  omega

end Text.Path

open Text.Path

/-- The path of a diagram is that of its entity's file up to the last slash, and the name. -/
theorem Entity.outputPath_cases (e : Entity) :
    ('/' ∉ e.file.toList ∧ e.outputPath.toList = e.name.toList ++ diagramEnd) ∨
      ∃ up seg, e.file.toList = up ++ '/' :: seg ∧ '/' ∉ seg ∧
        e.outputPath.toList = up ++ '/' :: (e.name.toList ++ diagramEnd) := by
  have hpath (last : List Char) (h : e.file.toList.reverse.takeWhile (· != '/') = last) :
      e.outputPath.toList = e.file.toList.take (e.file.toList.length - last.length) ++
        (e.name.toList ++ diagramEnd) := by
    simp only [outputPath, h, String.toList_append, String.toList_ofList, toList_eq_diagramEnd,
      List.append_assoc]
  rcases last_mark '/' e.file.toList with hfile | ⟨up, seg, hfile, hseg⟩
  · refine .inl ⟨hfile, ?_⟩
    have hwhole : e.file.toList.splitOn '/' = [] ++ [e.file.toList] :=
      List.splitOn_eq_singleton hfile
    simpa using hpath _ (takeWhile_reverse_of_splitOn hwhole)
  · refine .inr ⟨up, seg, hfile, hseg, ?_⟩
    have hsegs : e.file.toList.splitOn '/' = up.splitOn '/' ++ [seg] := by
      rw [hfile, List.splitOn_append_cons_self, List.splitOn_eq_singleton hseg]
    have hlength : (up ++ '/' :: seg).length - seg.reverse.length = (up ++ ['/']).length := by
      simp only [List.length_append, List.length_cons, List.length_reverse, List.length_nil]
      omega
    rw [hpath _ (takeWhile_reverse_of_splitOn hsegs), hfile, hlength, List.append_cons up '/' seg,
      List.take_left]
    simp

/-- The path of a diagram goes on from the directories of its entity's file with the name. -/
theorem Entity.segments_outputPath_eq (e : Entity) : segments e.outputPath =
    (segments e.file).dropLast ++ (e.name.toList ++ diagramEnd).splitOn '/' := by
  rcases e.outputPath_cases with ⟨hfile, hpath⟩ | ⟨up, seg, hfile, hseg, hpath⟩
  · rw [segments, hpath, segments, List.splitOn_eq_singleton hfile]
    rfl
  · rw [segments, hpath, segments, hfile, List.splitOn_append_cons_self,
      List.splitOn_append_cons_self, List.splitOn_eq_singleton hseg, List.dropLast_concat]

/-- An entity is named without a slash if its file has a name. -/
theorem Entity.slash_notMem_name {e : Entity} (h : (fileName? e.file).isSome) :
    '/' ∉ e.name.toList :=
  (stem_cases e.file).resolve_right fun hnone => by simp [hnone.1] at h

/-- Beside a file with a name, a diagram is named for the entity. -/
theorem Entity.segments_outputPath_of_isSome {e : Entity} (h : (fileName? e.file).isSome) :
    segments e.outputPath = (segments e.file).dropLast ++ [e.name.toList ++ diagramEnd] := by
  have hname : '/' ∉ e.name.toList ++ diagramEnd := by
    rw [List.mem_append, not_or]
    exact ⟨slash_notMem_name h, slash_notMem_diagramEnd⟩
  rw [e.segments_outputPath_eq, List.splitOn_eq_singleton hname]

end SceneDiagram
