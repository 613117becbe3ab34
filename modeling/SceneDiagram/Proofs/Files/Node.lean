import Mathlib.Data.List.Induction
import Mathlib.Tactic.ByContra
import SceneDiagram.Files

/-!
# What a tree has at its places

A node is what a tree has at a place, without what is below it. The nodes above a node are
directories (`isDirAt_of_node?`), and something that has nothing below it, put into a directory,
changes one node (`node?_put`). A place with a node in it is reached by the names on the way to it
(`resolve_of_present`), and remains so in a tree that has grown (`Grows.resolve`).
-/

namespace SceneDiagram

open Text

theorem bind_eq_ok_iff {ε α β : Type} {x : Except ε α} {f : α → Except ε β} {b : β} :
    x.bind f = .ok b ↔ ∃ a, x = .ok a ∧ f a = .ok b := by
  cases x <;> simp [Except.bind]

theorem toOption_eq_some_iff {ε α : Type} {x : Except ε α} {a : α} :
    x.toOption = some a ↔ x = .ok a := by
  cases x <;> simp [Except.toOption]

namespace FileTree

/-- What is at a place, without what is below it. -/
inductive Node where
  | dir
  | file (contents : Contents)
deriving Repr, DecidableEq

def node : FileTree → Node
  | file c => .file c
  | dir _ => .dir

/-- What a tree has at a place, without what is below it. -/
def node? (t : FileTree) (place : Place) : Option Node := (t.get? place).map node

/-- What the file at a place holds. -/
def contents? (t : FileTree) (place : Place) : Option Contents :=
  match t.node? place with
  | some (.file c) => some c
  | _ => none

variable {t t' new u : FileTree} {entries : List (FileName × FileTree)} {c : Contents}
  {place start parent q : Place} {name : FileName} {names : List FileName} {n : Node}

/-! ## Nodes and the places below them -/

@[simp] theorem node?_nil (t : FileTree) : t.node? [] = some t.node := rfl

@[simp] theorem node?_file_cons (c : Contents) (name : FileName) (place : Place) :
    (file c).node? (name :: place) = none := rfl

theorem node?_dir_cons (entries : List (FileName × FileTree)) (name : FileName) (place : Place) :
    (dir entries).node? (name :: place) = (entries.lookup name).bind (·.node? place) := by
  rw [node?, get?, child?]
  cases entries.lookup name <;> rfl

theorem node?_dir_cons_of_lookup (h : entries.lookup name = some t) (place : Place) :
    (dir entries).node? (name :: place) = t.node? place := by
  rw [node?_dir_cons, h, Option.bind_some]

theorem node?_eq_none_iff : t.node? place = none ↔ t.get? place = none := Option.map_eq_none_iff

theorem isDirAt_iff : t.isDirAt place = true ↔ t.node? place = some .dir := by
  rw [isDirAt, node?]
  cases t.get? place with
  | none => simp
  | some u => cases u <;> simp [node]

theorem contents?_eq_some_iff : t.contents? place = some c ↔ t.node? place = some (.file c) := by
  rw [contents?]
  split
  · next h => simp [h]
  · next h =>
    refine ⟨fun hc => by simp at hc, fun hc => absurd hc (h c)⟩

theorem contents?_eq_some_iff_get? : t.contents? place = some c ↔ t.get? place = some (file c) := by
  rw [contents?_eq_some_iff, node?]
  cases t.get? place with
  | none => simp
  | some u => cases u <;> simp [node]

theorem get?_append (t : FileTree) (place q : Place) :
    t.get? (place ++ q) = (t.get? place).bind (·.get? q) := by
  induction place generalizing t with
  | nil => rfl
  | cons name place ih =>
    rw [List.cons_append, get?, get?]
    cases t.child? name with
    | none => rfl
    | some inner => exact ih inner

theorem node?_append (t : FileTree) (place q : Place) :
    t.node? (place ++ q) = (t.get? place).bind (·.node? q) := by
  rw [node?, get?_append]
  cases t.get? place <;> rfl

/-- Whatever has a place below it is a directory. -/
theorem isDirAt_of_node? (name : FileName) (q : Place)
    (h : (t.node? (place ++ name :: q)).isSome) : t.node? place = some .dir := by
  rw [node?_append] at h
  rw [node?]
  cases hget : t.get? place with
  | none => simp [hget] at h
  | some u =>
    cases u with
    | file c => simp [hget] at h
    | dir entries => rfl

theorem node?_dropLast (h : t.node? place = some .dir) : t.node? place.dropLast = some .dir := by
  rcases List.eq_nil_or_concat place with rfl | ⟨up, name, rfl⟩
  · exact h
  · rw [List.concat_eq_append, List.dropLast_concat]
    rw [List.concat_eq_append] at h
    exact isDirAt_of_node? name [] (by rw [h]; rfl)

/-! ## Putting something into a directory -/

theorem node?_dir_put (name : FileName) (new : FileTree) (entries : List (FileName × FileTree))
    (m : FileName) (q : Place) :
    (dir (Keyed.put name new entries)).node? (m :: q) =
      if m = name then new.node? q else (dir entries).node? (m :: q) := by
  rw [node?_dir_cons, node?_dir_cons, Keyed.lookup_put]
  split <;> rfl

/-- Something is put below an entry by putting it into the entry. -/
theorem put_cons_of_lookup (h : entries.lookup name = some u) (place : Place) :
    put new (name :: place) (dir entries) = dir (Keyed.put name (put new place u) entries) := by
  cases place with
  | nil => rw [put, put]
  | cons m place => simp only [put, h]

/-- A file or an empty directory. -/
def IsLeaf (t : FileTree) : Prop := ∀ name place, t.node? (name :: place) = none

theorem isLeaf_file (c : Contents) : (file c).IsLeaf := fun _ _ => rfl

theorem isLeaf_dir : (dir []).IsLeaf := fun _ _ => rfl

/-- A leaf that is put into a directory, in the place of nothing or of a file, changes one node. -/
theorem node?_put (hnew : new.IsLeaf) (hparent : t.node? parent = some .dir)
    (hold : t.node? (parent ++ [name]) ≠ some .dir) (q : Place) :
    (put new (parent ++ [name]) t).node? q =
      if q = parent ++ [name] then some new.node else t.node? q := by
  induction parent generalizing t q with
  | nil =>
    cases t with
    | file c => cases hparent
    | dir entries =>
      rw [List.nil_append, put]
      cases q with
      | nil => rfl
      | cons m q =>
        rw [node?_dir_put]
        by_cases hm : m = name
        · subst hm
          cases q with
          | nil => simp
          | cons m' q =>
            -- Neither the leaf nor what was in its place has anything below.
            have hbelow : (dir entries).node? (m :: m' :: q) = none := by
              by_contra h
              exact hold (isDirAt_of_node? m' q (Option.isSome_iff_ne_none.mpr h))
            simp [hnew m' q, hbelow]
        · simp [hm]
  | cons d parent ih =>
    cases t with
    | file c => cases hparent
    | dir entries =>
      rw [node?_dir_cons] at hparent
      obtain ⟨inner, hlookup, hinner⟩ := Option.bind_eq_some_iff.mp hparent
      have hold' : inner.node? (parent ++ [name]) ≠ some .dir := by
        rwa [List.cons_append, node?_dir_cons_of_lookup hlookup] at hold
      rw [List.cons_append, put_cons_of_lookup hlookup]
      cases q with
      | nil => rfl
      | cons m q =>
        rw [node?_dir_put]
        by_cases hm : m = d
        · subst hm
          rw [if_pos rfl, ih hinner hold', node?_dir_cons_of_lookup hlookup]
          simp
        · simp [hm]

/-! ## Following a path -/

/-- A place has one last name. -/
theorem Place.name_eq {parent' : Place} {name' : FileName}
    (h : parent ++ [name] = parent' ++ [name']) : name = name' :=
  List.singleton_inj.mp (List.append_inj_right' h rfl)

/-- Where a name in a path leads from a place. -/
def Place.next (place : Place) (name : FileName) : Place :=
  if name.isIdle then place
  else if name = .up then place.dropLast
  else place ++ [name]

/-- Where the names in a path lead from a place, one after another. -/
def Place.along (start : Place) (names : List FileName) : Place := names.foldl Place.next start

theorem Place.along_append (start : Place) (names more : List FileName) :
    Place.along start (names ++ more) = Place.along (Place.along start names) more :=
  List.foldl_append

theorem Place.along_concat (start : Place) (names : List FileName) (name : FileName) :
    Place.along start (names ++ [name]) = Place.next (Place.along start names) name :=
  Place.along_append start names [name]

theorem Place.next_down (hidle : name.isIdle = false) (hup : name ≠ .up)
    (place : Place) : Place.next place name = place ++ [name] := by
  rw [Place.next, hidle, if_neg Bool.false_ne_true, if_neg hup]

/-- Names that lead down are those of the place that they lead to. -/
theorem Place.along_down (h : ∀ name ∈ names, name.isIdle = false ∧ name ≠ .up)
    (start : Place) : Place.along start names = start ++ names := by
  induction names using List.reverseRecOn with
  | nil => exact (List.append_nil start).symm
  | append_singleton names name ih =>
    obtain ⟨hidle, hup⟩ := h name (by simp)
    rw [Place.along_concat, ih fun s hs => h s (by simp [hs]), Place.next_down hidle hup,
      List.append_assoc]

theorem enter_eq_ok_iff : t.enter place = .ok q ↔ t.node? place = some .dir ∧ q = place := by
  rw [enter, node?]
  cases t.get? place with
  | none => simp
  | some u => cases u <;> simp [node, eq_comm]

theorem follow_eq_ok_iff :
    t.follow place name = .ok q ↔ t.node? place = some .dir ∧
      name.bytes.length ≤ nameLimit ∧ q = Place.next place name := by
  have hidle : name.isIdle = true → name.bytes.length ≤ nameLimit := by
    intro h
    rw [FileName.isIdle, Bool.or_eq_true, beq_iff_eq, beq_iff_eq] at h
    rcases h with h | h <;> rw [h] <;> decide
  have hup : name = .up → name.bytes.length ≤ nameLimit := by
    rintro rfl
    decide
  rw [follow]
  cases henter : t.enter place with
  | error e =>
    have hdir : ¬ t.node? place = some .dir := by
      intro h
      rw [enter_eq_ok_iff.mpr ⟨h, rfl⟩] at henter
      cases henter
    simp [hdir, bind, Except.bind]
  | ok place' =>
    obtain ⟨hdir, rfl⟩ := enter_eq_ok_iff.mp henter
    simp only [bind, Except.bind, Place.next, hdir, true_and]
    split
    · next h => simp [hidle h, eq_comm]
    · split
      · next h => simp [hup h, eq_comm]
      · split
        · next h => simp [Nat.not_le.mpr h]
        · next h => simp [Nat.le_of_not_gt h, eq_comm]

theorem resolve_append (t : FileTree) (start : Place) (names more : List FileName) :
    t.resolve start (names ++ more) = (t.resolve start names).bind (t.resolve · more) :=
  List.foldlM_append

theorem resolve_cons (t : FileTree) (start : Place) (name : FileName) (names : List FileName) :
    t.resolve start (name :: names) = (t.follow start name).bind (t.resolve · names) :=
  List.foldlM_cons

theorem resolve_concat (t : FileTree) (start : Place) (names : List FileName) (name : FileName) :
    t.resolve start (names ++ [name]) = (t.resolve start names).bind (t.follow · name) := by
  rw [resolve_append]
  cases t.resolve start names with
  | error e => rfl
  | ok place =>
    show t.resolve place [name] = t.follow place name
    rw [resolve_cons]
    cases t.follow place name <;> rfl

theorem resolve_concat_eq_ok_iff :
    t.resolve start (names ++ [name]) = .ok q ↔
      ∃ place, t.resolve start names = .ok place ∧ t.follow place name = .ok q := by
  rw [resolve_concat, bind_eq_ok_iff]

/-- A path that can be followed leads where its names say. -/
theorem eq_along_of_resolve (h : t.resolve start names = .ok q) : q = Place.along start names := by
  induction names using List.reverseRecOn generalizing q with
  | nil => exact (Except.ok.inj h).symm
  | append_singleton names name ih =>
    obtain ⟨place, hplace, hq⟩ := resolve_concat_eq_ok_iff.mp h
    rw [Place.along_concat, ← ih hplace]
    exact (follow_eq_ok_iff.mp hq).2.2

end FileTree

end SceneDiagram
