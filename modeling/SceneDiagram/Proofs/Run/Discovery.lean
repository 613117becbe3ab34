import Mathlib.Data.List.Sort
import Mathlib.Data.Set.List
import SceneDiagram.Proofs.Files.Name
import SceneDiagram.Proofs.Files.Visible

/-!
# The scenes that a run finds

The scenes below a directory are the files at the places whose names are all visible and whose last
name is that of a scene (`mem_sceneFiles_iff`). They are sorted by the names on the way to them, not
by their paths: `a` comes before `a-b`, but `a/` behind `a-b/`. No two files have one place, so the
order is strict (`sceneFiles_sortedLT`), and what has the same files at the same places has the same
list of scenes (`sceneFiles_congr`), in whatever order the directories list their entries. Paths are
shown as texts, which tells places apart only if their names are texts
(`discover_names_without_text`).
-/

namespace SceneDiagram

open Text FileTree

namespace Run

variable {entries entries' : List (FileName × FileTree)} {t t' : FileTree} {place : Place}
  {name name' : FileName} {found : List (Place × String)}

/-! ## The order of places -/

/-- Places are in the order of lists of names. -/
theorem placeLe_iff {a b : Place} : placeLe a b = true ↔ a ≤ b := by
  rw [← not_lt]
  induction a generalizing b with
  | nil => simp [placeLe]
  | cons x a ih =>
    cases b with
    | nil => simp [placeLe]
    | cons y b =>
      rw [placeLe, List.cons_lt_cons_iff]
      split
      · next h =>
        subst h
        simp [ih]
      · next h =>
        rw [FileName.le_iff, ← not_lt]
        simp only [Ne.symm h, false_and, or_false]

theorem sceneFiles_sortedLE (name : FileName) (t : FileTree) :
    ((sceneFiles name t).map (·.1)).SortedLE := by
  rw [List.sortedLE_iff_pairwise, List.pairwise_map]
  refine (List.pairwise_mergeSort ?_ ?_ _).imp placeLe_iff.mp
  · intro a b c hab hbc
    exact placeLe_iff.mpr ((placeLe_iff.mp hab).trans (placeLe_iff.mp hbc))
  · intro a b
    rw [Bool.or_eq_true, placeLe_iff, placeLe_iff]
    exact le_total a.1 b.1

/-- The scenes of a well-formed tree are found in strict order, so each of them once. -/
theorem sceneFiles_sortedLT (hwf : t.WellFormed) (name : FileName) :
    ((sceneFiles name t).map (·.1)).SortedLT := by
  refine (sceneFiles_sortedLE name t).sortedLT_of_nodup ?_
  have hscenes : ((scenes name t []).map (·.1)).Nodup :=
    (visibleFiles_places_nodup hwf []).sublist (List.filter_sublist.map _)
  have hperm : List.Perm (sceneFiles name t) (scenes name t []) := List.mergeSort_perm _ _
  exact (hperm.map (·.1)).nodup_iff.mpr hscenes

/-! ## Which files are scenes -/

/-- The name of a scene has a stem before the extension. -/
theorem isSceneName_iff :
    isSceneName name = true ↔ ∃ stem, stem ≠ [] ∧ name = ⟨stem ++ utf8 ".tscn"⟩ := by
  rw [isSceneName, beq_iff_eq, FileName.extension?_bind_text?_eq_some_iff (by decide)]
  refine exists_congr fun stem => and_congr_right fun _ => ?_
  rw [FileName.mk.injEq]
  exact Iff.rfl

/-- A place whose last name is that of a scene. -/
def IsScene (place : Place) : Prop :=
  ∃ parent stem, stem ≠ [] ∧ place = parent ++ [⟨stem ++ utf8 ".tscn"⟩]

/-- A place of a scene without a hidden name on the way to it. -/
structure IsVisibleScene (place : Place) : Prop where
  visible : ∀ name ∈ place, name.isHidden = false
  scene : IsScene place

/-- The scenes of a directory are the files at all places of scenes that can be seen. -/
theorem mem_sceneFiles_iff (hwf : (dir entries).WellFormed) {p : Place × FileTree} :
    p ∈ sceneFiles name (dir entries) ↔
      IsVisibleScene p.1 ∧ ∃ c, p.2 = file c ∧ (dir entries).contents? p.1 = some c := by
  have hscene {place : Place} {c : Contents} (hget : (dir entries).get? place = some (file c)) :
      isSceneName (place.getLast?.getD name) = true ↔ IsScene place := by
    rcases List.eq_nil_or_concat place with rfl | ⟨parent, last, rfl⟩
    · cases hget
    · rw [List.concat_eq_append, List.getLast?_concat, Option.getD_some, isSceneName_iff, IsScene]
      constructor
      · rintro ⟨stem, hstem, rfl⟩
        exact ⟨parent, stem, hstem, rfl⟩
      · rintro ⟨parent', stem, hstem, heq⟩
        exact ⟨stem, hstem, Place.name_eq heq⟩
  rw [sceneFiles, List.mem_mergeSort, List.mem_filter, mem_visibleFiles_iff hwf]
  constructor
  · rintro ⟨⟨place, c, rfl, hget, hvisible⟩, hname⟩
    exact ⟨⟨hvisible, (hscene hget).mp hname⟩, c, rfl, contents?_eq_some_iff_get?.mpr hget⟩
  · rintro ⟨⟨hvisible, hname⟩, c, hfile, hcontents⟩
    have hget := contents?_eq_some_iff_get?.mp hcontents
    exact ⟨⟨p.1, c, Prod.ext rfl hfile, hget, hvisible⟩, (hscene hget).mpr hname⟩

/-- The scenes of a directory depend on what it has at its places, and not on the order of entries
nor on the name of the directory. -/
theorem sceneFiles_congr (hwf : (dir entries).WellFormed) (hwf' : t'.WellFormed)
    (hsame : ∀ place, t'.node? place = (dir entries).node? place) :
    sceneFiles name' t' = sceneFiles name (dir entries) := by
  cases t' with
  | file c => cases hsame []
  | dir entries' =>
    have hmem : ∀ p, p ∈ sceneFiles name' (dir entries') ↔ p ∈ sceneFiles name (dir entries) := by
      intro p
      rw [mem_sceneFiles_iff hwf', mem_sceneFiles_iff hwf]
      simp only [contents?, hsame]
    have hsorted := sceneFiles_sortedLT hwf name
    have hsorted' := sceneFiles_sortedLT hwf' name'
    have hperm := (List.perm_ext_iff_of_nodup hsorted'.nodup.of_map hsorted.nodup.of_map).mpr hmem
    refine hperm.eq_of_pairwise (fun a b _ _ hab hba => absurd hab (lt_asymm hba))
      (List.pairwise_map.mp hsorted'.pairwise) (List.pairwise_map.mp hsorted.pairwise)

/-! ## Reading the scenes -/

theorem exists_texts (h : ∀ p ∈ sceneFiles name t, ∃ text, p.2 = file (.text text)) :
    ∃ found : List (Place × String),
      sceneFiles name t = found.map fun (place, text) => (place, file (.text text)) := by
  have hrange : sceneFiles name t ∈
      Set.range (List.map fun (p : Place × String) => (p.1, file (.text p.2))) := by
    rw [Set.range_list_map]
    intro p hp
    obtain ⟨text, htext⟩ := h p hp
    exact ⟨(p.1, text), Prod.ext rfl htext.symm⟩
  obtain ⟨found, hfound⟩ := hrange
  exact ⟨found, hfound.symm⟩

theorem discover_eq_ok
    (h : sceneFiles name t = found.map fun (place, text) => (place, file (.text text))) :
    discover name t =
      .ok (found.map fun (place, text) => (⟨relativePath place, text⟩ : SceneFile)) := by
  rw [discover, h, List.mapM_map]
  exact List.mapM_pure

/-- Discovery finds the scenes of a directory that can be seen, as long as they are texts. It
returns each of them once, with its text, under the path of the names on the way to it, in which
every name is shown as a text, and in strict order of the bytes of these names. No name on the way
to a scene that is found is a text that starts with a dot, and every scene is found if no name on
the way to it starts with the byte of a dot. What the directory is called does not matter, nor does
the order in which directories list their entries: any tree that has the same at every place has the
same scenes. -/
theorem discover_visible_scenes (hwf : (dir entries).WellFormed)
    (htext : ∀ place, IsVisibleScene place →
      ∀ bytes, (dir entries).contents? place ≠ some (.binary bytes)) (name : FileName) :
    ∃ found : List (Place × String),
      discover name (dir entries) =
        .ok (found.map fun (place, text) => ⟨relativePath place, text⟩) ∧
      (∀ place text, (place, text) ∈ found →
        IsScene place ∧ (dir entries).contents? place = some (.text text) ∧
          ∀ s : String, s.toList.head? = some '.' → FileName.ofText s ∉ place) ∧
      (∀ place text, IsScene place → (dir entries).contents? place = some (.text text) →
        (∀ n ∈ place, n.bytes.head? ≠ some '.'.toUInt8) → (place, text) ∈ found) ∧
      (found.map (·.1)).SortedLT ∧
      ∀ t' name', t'.WellFormed → (∀ place, t'.node? place = (dir entries).node? place) →
        discover name' t' = discover name (dir entries) := by
  have htexts : ∀ p ∈ sceneFiles name (dir entries), ∃ text, p.2 = file (.text text) := by
    intro p hp
    obtain ⟨hscene, c, hfile, hcontents⟩ := (mem_sceneFiles_iff hwf).mp hp
    cases c with
    | text s => exact ⟨s, hfile⟩
    | binary bytes => exact absurd hcontents (htext p.1 hscene bytes)
  obtain ⟨found, hfound⟩ := exists_texts htexts
  have hplaces : (sceneFiles name (dir entries)).map (·.1) = found.map (·.1) := by
    rw [hfound, List.map_map]
    rfl
  have hmem (place : Place) (text : String) : (place, text) ∈ found ↔
      IsVisibleScene place ∧ (dir entries).contents? place = some (.text text) := by
    have hfile : (place, text) ∈ found ↔
        (place, file (.text text)) ∈ sceneFiles name (dir entries) := by
      rw [hfound, List.mem_map]
      simp
    rw [hfile, mem_sceneFiles_iff hwf]
    simp
  refine ⟨found, discover_eq_ok hfound, fun place text h => ?_,
    fun place text hscene htext hdot => ?_, ?_, fun t' name' hwf' hsame => ?_⟩
  · obtain ⟨⟨hvisible, hscene⟩, hcontents⟩ := (hmem place text).mp h
    refine ⟨hscene, hcontents, fun s hs hname => ?_⟩
    have hhidden := FileName.isHidden_iff.mpr ⟨s, rfl, hs⟩
    rw [hvisible _ hname] at hhidden
    cases hhidden
  · refine (hmem place text).mpr ⟨⟨fun n hn => ?_, hscene⟩, htext⟩
    exact Bool.eq_false_iff.mpr fun hhidden => hdot n hn (FileName.head?_of_isHidden hhidden)
  · rw [← hplaces]
    exact sceneFiles_sortedLT hwf name
  · rw [discover, discover, sceneFiles_congr hwf hwf' hsame]

/-- Two scenes whose paths are in another order than their places. Beside them there are a directory
with the name of a scene, a file that has only the extension, a hidden directory, and a file that is
no text. -/
theorem discover_visible_scenes_project :
    let entries : List (FileName × FileTree) :=
      [("a", .dir [(".tscn", .file (.text "")), ("World.tscn", .file (.text "world"))]),
        ("a-b", .dir [("Hud.tscn", .file (.text "hud"))]),
        (".import", .dir [("World.tscn", .file (.text ""))]),
        ("icons.tscn", .dir [("icon.png", .file (.binary [137]))])]
    (dir entries).WellFormed ∧
      (∀ place, IsVisibleScene place →
        ∀ bytes, (dir entries).contents? place ≠ some (.binary bytes)) ∧
      discover ".project" (dir entries) =
        .ok [⟨"a/World.tscn", "world"⟩, ⟨"a-b/Hud.tscn", "hud"⟩] ∧
      (dir entries.reverse).WellFormed ∧
      discover "project" (dir entries.reverse) = discover ".project" (dir entries) := by
  intro entries
  have hwf : (dir entries).WellFormed := by
    have hinner : ∀ e ∈ entries, e.2.WellFormed := by
      intro e he
      simp only [entries, List.mem_cons, List.not_mem_nil, or_false] at he
      rcases he with rfl | rfl | rfl | rfl <;>
        exact .dir (by decide) (by decide) (by simp [WellFormed.file])
    exact .dir (by decide) (by decide) hinner
  have hsorted : sceneFiles ".project" (dir entries) = scenes ".project" (dir entries) [] :=
    List.mergeSort_of_pairwise (by decide)
  have htext : ∀ place, IsVisibleScene place →
      ∀ bytes, (dir entries).contents? place ≠ some (.binary bytes) := by
    intro place hscene bytes hcontents
    have hmem : (place, file (.binary bytes)) ∈ sceneFiles ".project" (dir entries) :=
      (mem_sceneFiles_iff hwf).mpr ⟨hscene, _, rfl, hcontents⟩
    have htexts : ∀ p ∈ scenes ".project" (dir entries) [], p.2.text.toOption.isSome := by decide
    have hbinary : (file (.binary bytes)).text.toOption.isSome = true :=
      htexts _ (hsorted ▸ hmem)
    cases hbinary
  have hscenes : discover ".project" (dir entries) =
      .ok [⟨"a/World.tscn", "world"⟩, ⟨"a-b/Hud.tscn", "hud"⟩] := by
    rw [discover, hsorted, ← toOption_eq_some_iff]
    decide
  obtain ⟨hwf', hsame⟩ := hwf.of_perm (List.reverse_perm entries)
  obtain ⟨-, -, -, -, -, hany⟩ := discover_visible_scenes hwf htext ".project"
  exact ⟨hwf, htext, hscenes, hwf', hany _ "project" hwf' hsame⟩

/-- A directory whose name starts with the byte of a dot is gone into if the name is no text, and
two scenes whose names are no texts are listed under one path. -/
theorem discover_names_without_text :
    let dotted : FileName := ⟨[0x2E, 0xFF]⟩
    let first : FileName := ⟨[0x61, 0xFE] ++ utf8 ".tscn"⟩
    let second : FileName := ⟨[0x61, 0xFF] ++ utf8 ".tscn"⟩
    let entries : List (FileName × FileTree) :=
      [(dotted, .dir [("A.tscn", .file (.text "hidden"))]), (first, .file (.text "first")),
        (second, .file (.text "second"))]
    (dir entries).WellFormed ∧ dotted.bytes.head? = some '.'.toUInt8 ∧
      discover "project" (dir entries) =
        .ok [⟨".\uFFFD/A.tscn", "hidden"⟩, ⟨"a\uFFFD.tscn", "first"⟩,
          ⟨"a\uFFFD.tscn", "second"⟩] := by
  intro dotted first second entries
  have hwf : (dir entries).WellFormed := by
    have hinner : (dir [(("A.tscn" : FileName), file (.text "hidden"))]).WellFormed :=
      .dir (by decide) (by decide) (by simp [WellFormed.file])
    exact .dir (by decide) (by decide) (by simp [entries, WellFormed.file, hinner])
  have hsorted : sceneFiles "project" (dir entries) = scenes "project" (dir entries) [] :=
    List.mergeSort_of_pairwise (by decide)
  refine ⟨hwf, rfl, ?_⟩
  rw [discover, hsorted, ← toOption_eq_some_iff]
  decide

end Run

end SceneDiagram
