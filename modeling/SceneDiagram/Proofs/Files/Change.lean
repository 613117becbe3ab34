import Mathlib.Logic.Relation
import SceneDiagram.Proofs.Files.Node

/-!
# Changes of a tree

Whatever a program does with files is a sequence of steps, each of which makes one directory where
nothing is or writes one file where no directory is (`Step`). Nothing goes away by that (`Grows`).
Making directories on the way to a place is a sequence of steps that make directories
(`ensureDirs_changes`), and writing a file is one step (`write_step`). What was done in a tree can
be done again in every tree that has grown from the result: the directories are there
(`Grows.ensureDirs`), and the file is written over (`Grows.write`).
-/

namespace SceneDiagram

open Text

namespace FileTree

variable {t t' t'' : FileTree} {c : Contents} {place start q : Place} {name : FileName}
  {names up : List FileName} {n : Node} {allowed allowed' : Node → Place → Prop}

/-! ## Growth -/

/-- All directories and files of a tree are in another one, with whatever the files hold there. -/
structure Grows (t t' : FileTree) : Prop where
  dir : ∀ {place}, t.node? place = some .dir → t'.node? place = some .dir
  file : ∀ {place c}, t.node? place = some (.file c) → ∃ c', t'.node? place = some (.file c')

namespace Grows

theorem refl (t : FileTree) : Grows t t := ⟨id, fun h => ⟨_, h⟩⟩

theorem trans (h : Grows t t') (h' : Grows t' t'') : Grows t t'' := by
  refine ⟨fun hdir => h'.dir (h.dir hdir), fun hfile => ?_⟩
  obtain ⟨c, hc⟩ := h.file hfile
  exact h'.file hc

theorem isSome (h : Grows t t') (hplace : (t.node? place).isSome) : (t'.node? place).isSome := by
  obtain ⟨n, hn⟩ := Option.isSome_iff_exists.mp hplace
  cases n with
  | dir => rw [h.dir hn]; rfl
  | file c =>
    obtain ⟨c', hc'⟩ := h.file hn
    rw [hc']
    rfl

theorem follow (h : Grows t t') (hplace : t.follow place name = .ok q) :
    t'.follow place name = .ok q := by
  rw [follow_eq_ok_iff] at hplace ⊢
  exact ⟨h.dir hplace.1, hplace.2⟩

/-- A path that can be followed can be followed in a tree that has grown. -/
theorem resolve (h : Grows t t') (hplace : t.resolve start segs = .ok place) :
    t'.resolve start segs = .ok place := by
  induction segs using List.reverseRecOn generalizing place with
  | nil => exact hplace
  | append_singleton segs seg ih =>
    obtain ⟨before, hbefore, hseg⟩ := resolve_concat_eq_ok_iff.mp hplace
    exact resolve_concat_eq_ok_iff.mpr ⟨before, ih hbefore, h.follow hseg⟩

end Grows

/-! ## Steps -/

/-- One change of a tree, in a directory that is there: a directory is made where nothing is, or a
file is written where no directory is. Which nodes may be put at which places is a parameter. -/
inductive Step (allowed : Node → Place → Prop) (t : FileTree) : FileTree → Prop
  | makeDir {parent : Place} {name : FileName} (hparent : t.node? parent = some .dir)
      (hfree : t.node? (parent ++ [name]) = none) (hplace : allowed .dir (parent ++ [name])) :
      Step allowed t (put (dir []) (parent ++ [name]) t)
  | write {parent : Place} {name : FileName} {c : Contents} (hparent : t.node? parent = some .dir)
      (hfree : t.node? (parent ++ [name]) ≠ some .dir)
      (hplace : allowed (.file c) (parent ++ [name])) :
      Step allowed t (put (file c) (parent ++ [name]) t)

/-- A sequence of steps. -/
def Changes (allowed : Node → Place → Prop) : FileTree → FileTree → Prop :=
  Relation.ReflTransGen (Step allowed)

/-- Only directories are made, and only where names lead to from a place. The names are given from
the last to the first. -/
def MakesDirs (start : Place) (up : List FileName) (n : Node) (place : Place) : Prop :=
  n = .dir ∧ ∃ name rest, name :: rest <:+ up ∧ place = Place.along start rest.reverse ++ [name]

namespace Step

theorem mono (h : Step allowed t t') (hallowed : ∀ n place, allowed n place → allowed' n place) :
    Step allowed' t t' := by
  cases h with
  | makeDir hparent hfree hplace => exact .makeDir hparent hfree (hallowed _ _ hplace)
  | write hparent hfree hplace => exact .write hparent hfree (hallowed _ _ hplace)

/-- A step changes one node. Nothing has been at its place, or a file that remains a file. -/
theorem exists_node (h : Step allowed t t') :
    ∃ place n, allowed n place ∧
      (t.node? place = none ∨ ∃ c c', t.node? place = some (.file c) ∧ n = .file c') ∧
      ∀ q, t'.node? q = if q = place then some n else t.node? q := by
  cases h with
  | @makeDir parent name hparent hfree hplace =>
    exact ⟨parent ++ [name], .dir, hplace, .inl hfree,
      node?_put isLeaf_dir hparent (by simp [hfree])⟩
  | @write parent name c hparent hfree hplace =>
    refine ⟨parent ++ [name], .file c, hplace, ?_, node?_put (isLeaf_file c) hparent hfree⟩
    cases hn : t.node? (parent ++ [name]) with
    | none => exact .inl rfl
    | some n =>
      cases n with
      | dir => exact absurd hn hfree
      | file old => exact .inr ⟨old, c, rfl, rfl⟩

theorem grows (h : Step allowed t t') : Grows t t' := by
  obtain ⟨changed, n, -, hold, hnode⟩ := h.exists_node
  constructor
  · intro place hplace
    rw [hnode, if_neg]
    · exact hplace
    · rintro rfl
      rcases hold with hold | ⟨_, _, hold, -⟩ <;> simp [hplace] at hold
  · intro place c hplace
    rw [hnode]
    split
    · next heq =>
      subst heq
      rcases hold with hold | ⟨_, c', -, rfl⟩
      · simp [hplace] at hold
      · exact ⟨c', rfl⟩
    · exact ⟨c, hplace⟩

end Step

namespace Changes

theorem refl (t : FileTree) : Changes allowed t t := Relation.ReflTransGen.refl

theorem single (h : Step allowed t t') : Changes allowed t t' := Relation.ReflTransGen.single h

theorem trans (h : Changes allowed t t') (h' : Changes allowed t' t'') : Changes allowed t t'' :=
  Relation.ReflTransGen.trans h h'

theorem mono (h : Changes allowed t t') (hallowed : ∀ n place, allowed n place → allowed' n place) :
    Changes allowed' t t' := by
  induction h with
  | refl => exact .refl t
  | tail _ hstep ih => exact ih.trans (single (hstep.mono hallowed))

theorem grows (h : Changes allowed t t') : Grows t t' := by
  induction h with
  | refl => exact .refl t
  | tail _ hstep ih => exact ih.trans hstep.grows

/-- A file stays as it is if no file may be written at its place. -/
theorem file_eq (h : Changes allowed t t') (hplace : ∀ c, ¬ allowed (.file c) place)
    (hfile : t.node? place = some (.file c)) : t'.node? place = some (.file c) := by
  induction h with
  | refl => exact hfile
  | tail _ hstep ih =>
    obtain ⟨changed, n, hallowed, hold, hnode⟩ := hstep.exists_node
    rw [hnode, if_neg, ih]
    rintro rfl
    rw [ih] at hold
    rcases hold with hold | ⟨_, c', -, rfl⟩
    · cases hold
    · exact hplace c' hallowed

end Changes

/-! ## Paths of what is not a directory -/

/-- A path to something that is not a directory ends in its name, after the path of a directory. -/
theorem exists_parent_of_resolve {init : List FileName}
    (h : t.resolve start (init ++ [name]) = .ok q)
    (hq : t.node? q ≠ some .dir) :
    ∃ parent, q = parent ++ [name] ∧ t.resolve start init = .ok parent ∧
      t.node? parent = some .dir := by
  obtain ⟨parent, hbefore, hfollow⟩ := resolve_concat_eq_ok_iff.mp h
  obtain ⟨hparent, -, rfl⟩ := follow_eq_ok_iff.mp hfollow
  rw [Place.next] at hq ⊢
  split at hq
  · exact absurd hparent hq
  · split at hq
    · exact absurd (node?_dropLast hparent) hq
    · next hidle hup => exact ⟨parent, by rw [if_neg hidle, if_neg hup], hbefore, hparent⟩

theorem eq_of_checkPath_eq_error {path : List UInt8} {e : FileError}
    (h : checkPath path = .error e) :
    e = .nulInPath ∨ e = .nameTooLong := by
  rw [checkPath] at h
  split at h
  · exact .inl (Except.error.inj h).symm
  · split at h
    · exact .inr (Except.error.inj h).symm
    · cases h

/-! ## Making directories -/

theorem makeDir_concat (t : FileTree) (init : List FileName) (name : FileName) :
    t.makeDir (init ++ [name]) =
      (checkPath (pathOf (init ++ [name]))).bind fun _ =>
        (t.resolve [] init).bind fun place =>
          (t.enter place).bind fun parent =>
            if name = .up then .error .alreadyExists
            else (t.follow parent name).bind fun place =>
              if (t.get? place).isSome then .error .alreadyExists
              else .ok (put (dir []) place t) := by
  simp [makeDir, bind]

/-- A directory is made only where nothing is. -/
theorem makeDir_eq_ok {init : List FileName} (h : t.makeDir (init ++ [name]) = .ok t') :
    checkPath (pathOf (init ++ [name])) = .ok () ∧
      ∃ q, t.resolve [] (init ++ [name]) = .ok q ∧ t.node? q = none ∧ t' = put (dir []) q t := by
  simp only [makeDir_concat, bind_eq_ok_iff, enter_eq_ok_iff] at h
  obtain ⟨_, hcheck, place, hplace, parent, ⟨-, rfl⟩, h⟩ := h
  split at h
  · cases h
  obtain ⟨q, hq, h⟩ := bind_eq_ok_iff.mp h
  split at h
  · cases h
  · next hfree =>
    rw [Option.not_isSome_iff_eq_none, ← node?_eq_none_iff] at hfree
    exact ⟨hcheck, q, resolve_concat_eq_ok_iff.mpr ⟨_, hplace, hq⟩, hfree,
      (Except.ok.inj h).symm⟩

/-- Where something is no directory is made. -/
theorem makeDir_of_present (hcheck : checkPath (pathOf names) = .ok ())
    (h : t.resolve [] names = .ok q) (hq : (t.node? q).isSome) :
    t.makeDir names = .error .alreadyExists := by
  rcases List.eq_nil_or_concat names with rfl | ⟨init, name, rfl⟩
  · simp [makeDir, hcheck, bind, Except.bind]
  rw [List.concat_eq_append] at h hcheck ⊢
  obtain ⟨parent, hparent, hfollow⟩ := resolve_concat_eq_ok_iff.mp h
  have henter : t.enter parent = .ok parent :=
    enter_eq_ok_iff.mpr ⟨(follow_eq_ok_iff.mp hfollow).1, rfl⟩
  have hget : (t.get? q).isSome := by rwa [node?, Option.isSome_map] at hq
  simp [makeDir_concat, hcheck, hparent, henter, hfollow, hget, Except.bind]

theorem leadsToDir_iff :
    t.leadsToDir names = true ↔ ∃ q, t.resolve [] names = .ok q ∧ t.node? q = some .dir := by
  rw [leadsToDir]
  cases t.resolve [] names <;> simp [isDirAt_iff]

theorem Grows.leadsToDir (h : Grows t t') (hsegs : t.leadsToDir names = true) :
    t'.leadsToDir names = true := by
  rw [leadsToDir_iff] at hsegs ⊢
  obtain ⟨q, hq, hdir⟩ := hsegs
  exact ⟨q, h.resolve hq, h.dir hdir⟩

/-- A directory that is there is left as it is. -/
theorem ensureDir_of_leadsToDir (hcheck : checkPath (pathOf names) = .ok ())
    (h : t.leadsToDir names = true) : t.ensureDir names = .ok t := by
  obtain ⟨q, hq, hdir⟩ := leadsToDir_iff.mp h
  simp [ensureDir, makeDir_of_present hcheck hq (by simp [hdir]), h]

/-- A directory that is made is there, and it is the only change. -/
theorem ensureDir_eq_ok {init : List FileName} (h : t.ensureDir (init ++ [name]) = .ok t') :
    checkPath (pathOf (init ++ [name])) = .ok () ∧ t'.leadsToDir (init ++ [name]) = true ∧
      Changes (MakesDirs (Place.along [] init) [name]) t t' := by
  rw [ensureDir] at h
  split at h
  · next hmake =>
    split at h
    · next hdir =>
      obtain rfl := Except.ok.inj h
      refine ⟨?_, hdir, .refl t⟩
      cases hcheck : checkPath (pathOf (init ++ [name])) with
      | ok _ => rfl
      | error e =>
        -- A path that no file can have is refused for that.
        rw [makeDir_concat, hcheck] at hmake
        rcases eq_of_checkPath_eq_error hcheck with rfl | rfl <;> cases hmake
    · cases h
  · obtain ⟨hcheck, q, hq, hfree, rfl⟩ := makeDir_eq_ok h
    obtain ⟨parent, rfl, hresolve, hparent⟩ := exists_parent_of_resolve hq (by simp [hfree])
    have hinit : parent = Place.along [] init := eq_along_of_resolve hresolve
    have hstep : Step (MakesDirs (Place.along [] init) [name]) t
        (put (dir []) (parent ++ [name]) t) :=
      .makeDir hparent hfree ⟨rfl, name, [], List.suffix_rfl, by rw [hinit]; rfl⟩
    have hdir : (put (dir []) (parent ++ [name]) t).node? (parent ++ [name]) = some .dir := by
      rw [node?_put isLeaf_dir hparent (by simp [hfree]), if_pos rfl]
      rfl
    exact ⟨hcheck, leadsToDir_iff.mpr ⟨_, hstep.grows.resolve hq, hdir⟩, .single hstep⟩

theorem ensureDirs_cons_of_isIdle (hname : name.isIdle = true) (up : List FileName)
    (t : FileTree) : ensureDirs (name :: up) t = ensureDirs up t := by
  rw [ensureDirs, if_pos hname]

theorem ensureDirs_cons_of_not_isIdle (hname : name.isIdle = false)
    (up : List FileName) (t : FileTree) :
    ensureDirs (name :: up) t =
      match t.ensureDir (up.reverse ++ [name]) with
      | .ok t => (.ok (), t)
      | .error .notFound =>
        match ensureDirs up t with
        | (.error e, t) => (.error e, t)
        | (.ok _, t) =>
          match t.ensureDir (up.reverse ++ [name]) with
          | .ok t => (.ok (), t)
          | .error e => (.error e, t)
      | .error e => (.error e, t) := by
  rw [ensureDirs, hname, List.reverse_cons]
  rfl

/-- The directories that were made on the way to a place are there in every tree that has grown. -/
theorem Grows.ensureDirs (h : FileTree.ensureDirs up t = (.ok (), t'))
    (hgrows : Grows t' t'') : FileTree.ensureDirs up t'' = (.ok (), t'') := by
  induction up generalizing t' with
  | nil => rfl
  | cons name up ih =>
    cases hname : name.isIdle with
    | true =>
      rw [ensureDirs_cons_of_isIdle hname] at h ⊢
      exact ih h hgrows
    | false =>
      have hagain : ∀ {u : FileTree}, u.ensureDir (up.reverse ++ [name]) = .ok t' →
          FileTree.ensureDirs (name :: up) t'' = (.ok (), t'') := by
        intro u hu
        obtain ⟨hcheck, hdir, -⟩ := ensureDir_eq_ok hu
        rw [ensureDirs_cons_of_not_isIdle hname,
          ensureDir_of_leadsToDir hcheck (hgrows.leadsToDir hdir)]
      rw [ensureDirs_cons_of_not_isIdle hname] at h
      split at h
      · next hok =>
        obtain ⟨-, rfl⟩ := Prod.mk.inj h
        exact hagain hok
      · split at h
        · cases h
        · split at h
          · next hok =>
            obtain ⟨-, rfl⟩ := Prod.mk.inj h
            exact hagain hok
          · cases h
      · cases h

/-! ## Writing files -/

theorem node?_ne_dir_iff : t.node? q ≠ some .dir ↔ ∀ entries, t.get? q ≠ some (dir entries) := by
  rw [node?]
  cases t.get? q with
  | none => simp
  | some u => cases u <;> simp [node]

/-- A file is written where no directory is. -/
theorem write_eq_ok {init : List FileName} (h : t.write (init ++ [name]) c = .ok t') :
    checkPath (pathOf (init ++ [name])) = .ok () ∧
      ∃ q, t.resolve [] (init ++ [name]) = .ok q ∧ t.node? q ≠ some .dir ∧
        t' = put (file c) q t := by
  simp only [write, bind, bind_eq_ok_iff, List.getLast?_concat, List.dropLast_concat] at h
  obtain ⟨_, hcheck, parent, hparent, q, hfollow, h⟩ := h
  have hq : t.resolve [] (init ++ [name]) = .ok q :=
    resolve_concat_eq_ok_iff.mpr ⟨parent, hparent, hfollow⟩
  split at h
  · cases h
  · next hdir => exact ⟨hcheck, q, hq, node?_ne_dir_iff.mpr hdir, (Except.ok.inj h).symm⟩

theorem write_of_resolve {init : List FileName}
    (hcheck : checkPath (pathOf (init ++ [name])) = .ok ())
    (h : t.resolve [] (init ++ [name]) = .ok q) (hq : t.node? q ≠ some .dir) (c : Contents) :
    t.write (init ++ [name]) c = .ok (put (file c) q t) := by
  obtain ⟨parent, hparent, hfollow⟩ := resolve_concat_eq_ok_iff.mp h
  simp only [write, bind, Except.bind, hcheck, hparent, hfollow, List.getLast?_concat,
    List.dropLast_concat]
  split
  · next hdir => exact absurd hdir (node?_ne_dir_iff.mp hq _)
  · rfl

/-- Writing a file is one step. -/
theorem write_step {init : List FileName} (h : t.write (init ++ [name]) c = .ok t')
    (hallowed : ∀ parent, allowed (.file c) (parent ++ [name])) : Step allowed t t' := by
  obtain ⟨-, q, hq, hfree, rfl⟩ := write_eq_ok h
  obtain ⟨parent, rfl, -, hparent⟩ := exists_parent_of_resolve hq hfree
  exact .write hparent hfree (hallowed parent)

/-- A file that was written can be written again in every tree that has grown. -/
theorem Grows.write {init : List FileName} (h : t.write (init ++ [name]) c = .ok t')
    (hgrows : Grows t' t'') :
    ∃ u, t''.write (init ++ [name]) c = .ok u ∧ Grows t'' u ∧ Grows u t'' := by
  have hstep : Step (fun _ _ => True) t t' := write_step h fun _ => trivial
  obtain ⟨hcheck, q, hq, hfree, rfl⟩ := write_eq_ok h
  obtain ⟨parent, rfl, -, hparent⟩ := exists_parent_of_resolve hq hfree
  obtain ⟨old, hold⟩ : ∃ old, t''.node? (parent ++ [name]) = some (.file old) := by
    refine hgrows.file (c := c) ?_
    rw [node?_put (isLeaf_file c) hparent hfree, if_pos rfl]
    rfl
  have hfree' : t''.node? (parent ++ [name]) ≠ some .dir := by simp [hold]
  have hparent' : t''.node? parent = some .dir := hgrows.dir (hstep.grows.dir hparent)
  have hwrite := write_of_resolve hcheck (hgrows.resolve (hstep.grows.resolve hq)) hfree' c
  have hagain : Step (fun _ _ => True) t'' _ := write_step hwrite fun _ => trivial
  refine ⟨_, hwrite, hagain.grows, ?_, ?_⟩
  · intro place hplace
    rw [node?_put (isLeaf_file c) hparent' hfree'] at hplace
    split at hplace
    · cases hplace
    · exact hplace
  · intro place c' hplace
    rw [node?_put (isLeaf_file c) hparent' hfree'] at hplace
    split at hplace
    · next heq => exact ⟨old, heq ▸ hold⟩
    · exact ⟨c', hplace⟩

end FileTree

end SceneDiagram
