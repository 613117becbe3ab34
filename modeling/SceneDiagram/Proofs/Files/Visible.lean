import Mathlib.Data.List.Nodup
import SceneDiagram.Proofs.Files.Change
import SceneDiagram.Run

/-!
# The scenes of a directory

In a well-formed tree an entry has a name that a path can have as a segment, and no directory has
two entries of one name. There the visible files are all files at places without a hidden name
(`mem_visibleFiles_iff`), each of them once, and such a place can be followed as a path
(`resolve_of_get?`). Steps that write no scene leave the scenes of a directory as they are
(`Changes.sceneFiles`): only files are scenes, so new directories do not count.
-/

namespace SceneDiagram

open Text

namespace FileTree

variable {t t' u new : FileTree} {entries entries' : List (FileName × FileTree)} {c : Contents}
  {place root base parent q : Place} {name n : FileName} {allowed : Node → Place → Prop}

/-! ## Well-formed trees -/

/-- A name in a path that leads from a directory to an entry of it. -/
structure IsName (name : FileName) : Prop where
  not_isIdle : name.isIdle = false
  ne_up : name ≠ .up
  noSlash : '/'.toUInt8 ∉ name.bytes
  short : name.bytes.length ≤ nameLimit

instance (name : FileName) : Decidable (IsName name) :=
  decidable_of_iff (name.isIdle = false ∧ name ≠ .up ∧ '/'.toUInt8 ∉ name.bytes ∧
    name.bytes.length ≤ nameLimit)
    ⟨fun ⟨hidle, hup, hslash, hshort⟩ => ⟨hidle, hup, hslash, hshort⟩,
      fun h => ⟨h.not_isIdle, h.ne_up, h.noSlash, h.short⟩⟩

/-- A tree in which the entries of every directory have names, and different ones. -/
inductive WellFormed : FileTree → Prop
  | file (c : Contents) : WellFormed (file c)
  | dir {entries : List (FileName × FileTree)} (hnames : ∀ e ∈ entries, IsName e.1)
      (hnodup : (entries.map (·.1)).Nodup) (hentries : ∀ e ∈ entries, WellFormed e.2) :
      WellFormed (dir entries)

theorem mem_of_lookup {entries : List (FileName × FileTree)} (h : entries.lookup name = some u) :
    (name, u) ∈ entries := by
  induction entries with
  | nil => cases h
  | cons e entries ih =>
    rw [List.lookup_cons] at h
    split at h
    · next heq =>
      obtain rfl := Option.some.inj h
      rw [beq_iff_eq.mp heq]
      exact List.mem_cons_self ..
    · exact List.mem_cons_of_mem _ (ih h)

theorem lookup_of_mem {entries : List (FileName × FileTree)} (hnodup : (entries.map (·.1)).Nodup)
    (h : (name, u) ∈ entries) : entries.lookup name = some u := by
  induction entries with
  | nil => cases h
  | cons e entries ih =>
    rw [List.map_cons, List.nodup_cons] at hnodup
    rw [List.lookup_cons]
    rcases List.mem_cons.mp h with rfl | h
    · simp
    · have hne : (name == e.1) = false := by
        rw [beq_eq_false_iff_ne]
        rintro rfl
        exact hnodup.1 (List.mem_map.mpr ⟨_, h, rfl⟩)
      rw [hne]
      exact ih hnodup.2 h

/-- A directory has the same at every place, in whatever order it lists its entries. -/
theorem WellFormed.of_perm (h : (FileTree.dir entries).WellFormed)
    (hperm : entries'.Perm entries) : (FileTree.dir entries').WellFormed ∧
      ∀ place, (FileTree.dir entries').node? place = (FileTree.dir entries).node? place := by
  cases h with
  | dir hnames hnodup hentries =>
    have hnodup' : (entries'.map (·.1)).Nodup := (hperm.map _).nodup_iff.mpr hnodup
    refine ⟨.dir (fun e he => hnames e (hperm.subset he)) hnodup'
      fun e he => hentries e (hperm.subset he), fun place => ?_⟩
    cases place with
    | nil => rfl
    | cons name place =>
      have hlookup : entries'.lookup name = entries.lookup name := by
        ext u
        exact ⟨fun hu => lookup_of_mem hnodup (hperm.subset (mem_of_lookup hu)),
          fun hu => lookup_of_mem hnodup' (hperm.symm.subset (mem_of_lookup hu))⟩
      rw [node?_dir_cons, node?_dir_cons, hlookup]

theorem visibleEntries_eq_flatMap (entries : List (FileName × FileTree)) (base : Place) :
    visibleEntries entries base =
      entries.flatMap fun e => if e.1.isHidden then [] else e.2.visibleFiles (base ++ [e.1]) := by
  induction entries with
  | nil => rfl
  | cons e entries ih => rw [visibleEntries, ih, List.flatMap_cons]

theorem mem_visibleEntries_iff {p : Place × FileTree} :
    p ∈ visibleEntries entries base ↔
      ∃ e ∈ entries, e.1.isHidden = false ∧ p ∈ e.2.visibleFiles (base ++ [e.1]) := by
  rw [visibleEntries_eq_flatMap, List.mem_flatMap]
  refine exists_congr fun e => and_congr_right fun _ => ?_
  cases h : e.1.isHidden <;> simp

/-- The visible files of a well-formed tree are all files at places without a hidden name. -/
theorem mem_visibleFiles_iff (hwf : t.WellFormed) {p : Place × FileTree} :
    p ∈ t.visibleFiles base ↔
      ∃ q c, p = (base ++ q, file c) ∧ t.get? q = some (file c) ∧
        ∀ name ∈ q, name.isHidden = false := by
  induction hwf generalizing base p with
  | file c =>
    rw [visibleFiles, List.mem_singleton]
    constructor
    · rintro rfl
      exact ⟨[], c, by rw [List.append_nil], rfl, by simp⟩
    · rintro ⟨q, c', rfl, hget, -⟩
      cases q with
      | nil =>
        obtain rfl := FileTree.file.inj (Option.some.inj hget)
        rw [List.append_nil]
      | cons name q => cases hget
  | @dir entries _ hnodup _ ih =>
    rw [visibleFiles, mem_visibleEntries_iff]
    constructor
    · rintro ⟨⟨name, u⟩, he, hname, hp⟩
      obtain ⟨q, c, rfl, hget, hq⟩ := (ih _ he).mp hp
      refine ⟨name :: q, c, by rw [List.append_cons base name q], ?_,
        List.forall_mem_cons.mpr ⟨hname, hq⟩⟩
      rw [get?, child?, lookup_of_mem hnodup he]
      exact hget
    · rintro ⟨q, c, rfl, hget, hq⟩
      cases q with
      | nil => cases hget
      | cons name q =>
        obtain ⟨u, hchild, hu⟩ := Option.bind_eq_some_iff.mp hget
        have he : (name, u) ∈ entries := mem_of_lookup hchild
        obtain ⟨hname, hq⟩ := List.forall_mem_cons.mp hq
        exact ⟨(name, u), he, hname,
          (ih _ he).mpr ⟨q, c, by rw [List.append_cons base name q], hu, hq⟩⟩

/-- Every visible file of a well-formed tree is found once. -/
theorem visibleFiles_places_nodup (hwf : t.WellFormed) (base : Place) :
    ((t.visibleFiles base).map (·.1)).Nodup := by
  induction hwf generalizing base with
  | file c => exact List.nodup_singleton base
  | @dir entries _ hnodup hentries ih =>
    rw [visibleFiles, visibleEntries_eq_flatMap, List.map_flatMap, List.nodup_flatMap]
    constructor
    · intro e he
      split
      · exact List.nodup_nil
      · exact ih e he _
    · refine (List.pairwise_map.mp hnodup).imp_of_mem fun {e e'} he he' hne place h h' => ?_
      -- A place below two entries goes on with the names of both.
      have hbelow {e : FileName × FileTree} (he : e ∈ entries)
          (h : place ∈ (if e.1.isHidden then [] else e.2.visibleFiles (base ++ [e.1])).map (·.1)) :
          ∃ q, place = base ++ e.1 :: q := by
        split at h
        · cases h
        · obtain ⟨p, hp, rfl⟩ := List.mem_map.mp h
          obtain ⟨q, c, rfl, -⟩ := (mem_visibleFiles_iff (hentries e he)).mp hp
          exact ⟨q, (List.append_cons base e.1 q).symm⟩
      obtain ⟨q, hq⟩ := hbelow he h
      obtain ⟨q', hq'⟩ := hbelow he' h'
      have hcons := List.append_cancel_left (hq.symm.trans hq')
      exact hne (List.cons.inj hcons).1

/-! ## Scenes -/

/-- The scenes of a tree in the order of its entries. The last name of the place is `n` if the tree
is a file itself. -/
def scenes (n : FileName) (t : FileTree) (base : Place) : List (Place × FileTree) :=
  (t.visibleFiles base).filter fun (place, _) => Run.isSceneName (place.getLast?.getD n)

theorem sceneFiles_eq (n : FileName) (t : FileTree) :
    Run.sceneFiles n t = (scenes n t []).mergeSort fun a b => Run.placeLe a.1 b.1 := rfl

/-- What is no scene under a name and has none below it. -/
structure Bare (name : FileName) (u : FileTree) : Prop where
  below : ∀ n base, scenes n u (base ++ [name]) = []
  alone : scenes name u [] = []

theorem bare_file (hname : Run.isSceneName name = false) (c : Contents) : Bare name (file c) :=
  ⟨fun n base => by simp [scenes, visibleFiles, hname], by simp [scenes, visibleFiles, hname]⟩

theorem bare_dir (name : FileName) : Bare name (dir []) := ⟨fun _ _ => rfl, rfl⟩

/-- The scenes in the entries of a directory. -/
theorem scenes_dir_cons (n name : FileName) (u : FileTree) (entries : List (FileName × FileTree))
    (base : Place) :
    scenes n (dir ((name, u) :: entries)) base =
      (if name.isHidden then [] else scenes n u (base ++ [name])) ++
        scenes n (dir entries) base := by
  rw [scenes, visibleFiles, visibleEntries, List.filter_append]
  split <;> rfl

/-- Putting something in the place of an entry leaves the scenes as they are if the entry keeps its
scenes, and a new entry has none. -/
theorem scenes_dir_put
    (hold : ∀ u, entries.lookup name = some u →
      scenes n new (base ++ [name]) = scenes n u (base ++ [name]))
    (hnone : entries.lookup name = none → scenes n new (base ++ [name]) = []) :
    scenes n (dir (Keyed.put name new entries)) base = scenes n (dir entries) base := by
  induction entries with
  | nil => rw [Keyed.put, scenes_dir_cons, hnone rfl]; simp
  | cons e entries ih =>
    obtain ⟨m, u⟩ := e
    rw [Keyed.put]
    by_cases hm : m = name
    · subst hm
      rw [if_pos rfl, scenes_dir_cons, scenes_dir_cons, hold u (by simp)]
    · have hlookup : ((m, u) :: entries).lookup name = entries.lookup name := by
        rw [List.lookup_cons, beq_eq_false_iff_ne.mpr (Ne.symm hm)]
      rw [hlookup] at hold hnone
      rw [if_neg hm, scenes_dir_cons, scenes_dir_cons, ih hold hnone]

/-- What is bare can be put in the place of nothing or of something that is bare. -/
theorem scenes_put (hparent : t.node? parent = some .dir) (hnew : Bare name new)
    (hold : ∀ u, t.get? (parent ++ [name]) = some u → Bare name u) (base : Place) :
    scenes n (put new (parent ++ [name]) t) base = scenes n t base := by
  induction parent generalizing t base with
  | nil =>
    cases t with
    | file c => cases hparent
    | dir entries =>
      rw [List.nil_append, put]
      refine scenes_dir_put (fun u hu => ?_) fun _ => hnew.below n base
      have hbare : Bare name u := hold u (by rw [List.nil_append, get?, child?, hu]; rfl)
      rw [hnew.below, hbare.below]
  | cons d parent ih =>
    cases t with
    | file c => cases hparent
    | dir entries =>
      rw [node?_dir_cons] at hparent
      obtain ⟨inner, hlookup, hinner⟩ := Option.bind_eq_some_iff.mp hparent
      rw [List.cons_append, put_cons_of_lookup hlookup]
      refine scenes_dir_put (fun u hu => ?_) fun hnone => ?_
      · obtain rfl := Option.some.inj (hlookup.symm.trans hu)
        refine ih hinner (fun v hv => hold v ?_) _
        rw [List.cons_append, get?, child?, hu]
        exact hv
      · rw [hlookup] at hnone
        cases hnone

/-- The scenes below a place stay as they are, wherever something bare is put. -/
theorem exists_scenes_put (hn : ∀ name ∈ root.getLast?, n = name) (hroot : t.get? root = some u)
    (hparent : t.node? parent = some .dir) (hleaf : t.node? (parent ++ [name]) ≠ some .dir)
    (hnew : Bare name new) (hold : ∀ u, t.get? (parent ++ [name]) = some u → Bare name u) :
    ∃ u', (put new (parent ++ [name]) t).get? root = some u' ∧ scenes n u' [] = scenes n u [] := by
  induction root generalizing t parent with
  | nil =>
    obtain rfl := Option.some.inj hroot
    exact ⟨_, rfl, scenes_put hparent hnew hold []⟩
  | cons d root ih =>
    obtain ⟨v, hchild, hv⟩ := Option.bind_eq_some_iff.mp hroot
    cases t with
    | file c => cases hchild
    | dir entries =>
      have hlookup : entries.lookup d = some v := hchild
      cases parent with
      | nil =>
        rw [List.nil_append] at hleaf hold
        by_cases hd : d = name
        · -- The directory is a file that is written over.
          subst hd
          rw [node?_dir_cons_of_lookup hlookup] at hleaf
          have hbare : Bare d v := hold v (by rw [get?, child?, hlookup]; rfl)
          cases v with
          | dir entries => exact absurd rfl hleaf
          | file c =>
            cases root with
            | cons _ _ => cases hv
            | nil =>
              obtain rfl := Option.some.inj hv
              obtain rfl : n = d := hn d rfl
              refine ⟨new, ?_, hnew.alone.trans hbare.alone.symm⟩
              rw [List.nil_append, put, get?, child?, Keyed.lookup_put, if_pos rfl]
              rfl
        · refine ⟨u, ?_, rfl⟩
          rw [List.nil_append, put, get?, child?, Keyed.lookup_put, if_neg hd, hlookup]
          exact hv
      | cons e parent =>
        rw [node?_dir_cons] at hparent
        obtain ⟨inner, hinner, hdir⟩ := Option.bind_eq_some_iff.mp hparent
        rw [List.cons_append, put_cons_of_lookup hinner, get?, child?, Keyed.lookup_put]
        by_cases hd : d = e
        · subst hd
          obtain rfl := Option.some.inj (hlookup.symm.trans hinner)
          rw [List.cons_append] at hleaf hold
          rw [node?_dir_cons_of_lookup hlookup] at hleaf
          have hlast : ∀ name ∈ root.getLast?, n = name := by
            intro m hm
            refine hn m ?_
            rw [List.getLast?_cons, Option.mem_def.mp hm]
            rfl
          rw [if_pos rfl]
          exact ih hlast hv hdir hleaf fun w hw =>
            hold w (by rw [get?, child?, hlookup]; exact hw)
        · rw [if_neg hd, hlookup]
          exact ⟨u, hv, rfl⟩

/-- A step that writes no scene leaves the scenes below a place as they are. -/
theorem Step.exists_scenes (h : Step allowed t t')
    (hallowed : ∀ c (parent : Place) name, allowed (.file c) (parent ++ [name]) →
      Run.isSceneName name = false)
    (hn : ∀ name ∈ root.getLast?, n = name) (hroot : t.get? root = some u) :
    ∃ u', t'.get? root = some u' ∧ scenes n u' [] = scenes n u [] := by
  cases h with
  | @makeDir parent name hparent hfree _ =>
    refine exists_scenes_put hn hroot hparent (by simp [hfree]) (bare_dir name) fun w hw => ?_
    rw [node?_eq_none_iff.mp hfree] at hw
    cases hw
  | @write parent name c hparent hfree hname =>
    have hscene := hallowed c parent name hname
    refine exists_scenes_put hn hroot hparent hfree (bare_file hscene c) fun w hw => ?_
    cases w with
    | file c => exact bare_file hscene c
    | dir entries => exact absurd hw (node?_ne_dir_iff.mp hfree entries)

/-- Steps that write no scene leave the scenes of a directory as they are. -/
theorem Changes.sceneFiles (h : Changes allowed t t')
    (hallowed : ∀ c (parent : Place) name, allowed (.file c) (parent ++ [name]) →
      Run.isSceneName name = false)
    (hroot : t.get? root = some u) :
    ∃ u', t'.get? root = some u' ∧
      Run.sceneFiles (root.getLast?.getD "") u' = Run.sceneFiles (root.getLast?.getD "") u := by
  have hn : ∀ name ∈ root.getLast?, root.getLast?.getD "" = name := by
    intro name hname
    rw [Option.mem_def.mp hname]
    rfl
  induction h with
  | refl => exact ⟨u, hroot, rfl⟩
  | tail _ hstep ih =>
    obtain ⟨v, hv, hsame⟩ := ih
    obtain ⟨u', hu', hscenes⟩ := hstep.exists_scenes hallowed hn hv
    exact ⟨u', hu', by rw [sceneFiles_eq, hscenes, ← sceneFiles_eq, hsame]⟩

end FileTree

end SceneDiagram
