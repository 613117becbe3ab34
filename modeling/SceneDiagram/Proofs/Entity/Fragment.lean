import SceneDiagram.Proofs.Entity.Discovery

/-!
# What an entity is put together from

An entity takes its declaration from the files of its stem, one file after another, and from each
file the fragments of the type that the file declares first. `Declaration.joined?` says what becomes
of a row of fragments, and `assembled_of_mem` which rows an entity is made of. The interface is made
of just the fragments that are named for the entity. The declaration is made of the fragments of one
type as long as the files of the stem agree on the type that comes first; where they do not, another
type is put in (`build_joins_fragments`).
-/

namespace SceneDiagram

open Text

/-! ## Fragments in a row -/

namespace Declaration

/-- Fragments put together in their order: the first one gives the name, the kind, the file and the
line, all of them give their attributes, members and constructors, and the first primary constructor
counts. -/
def joined? : List Declaration → Option Declaration
  | [] => none
  | first :: rest =>
    some { first with
      attributes := (first :: rest).flatMap (·.attributes)
      members := (first :: rest).flatMap (·.members)
      primaryConstructor := (first :: rest).findSome? (·.primaryConstructor)
      constructors := (first :: rest).flatMap (·.constructors) }

theorem mergeAll_append (d : Option Declaration) (fs gs : List Declaration) :
    mergeAll d (fs ++ gs) = mergeAll (mergeAll d fs) gs := by
  induction fs generalizing d with
  | nil => cases d <;> rfl
  | cons f fs ih => cases d <;> exact ih _

theorem mergeAll_some (d : Declaration) (fs : List Declaration) :
    mergeAll (some d) fs = joined? (d :: fs) := by
  induction fs generalizing d with
  | nil => cases d with | mk _ _ _ _ _ _ primary _ => cases primary <;> simp [mergeAll, joined?]
  | cons f fs ih =>
    rw [mergeAll, ih]
    cases d with
    | mk _ _ _ _ _ _ primary _ => cases primary <;> simp [joined?, merge, List.findSome?_cons]

theorem mergeAll_none (fs : List Declaration) : mergeAll none fs = joined? fs := by
  cases fs with
  | nil => rfl
  | cons f fs => exact mergeAll_some f fs

theorem joined?_eq_some {fs : List Declaration} {d : Declaration} (h : joined? fs = some d) :
    ∃ first rest, fs = first :: rest ∧ d.name = first.name ∧ d.file = first.file := by
  cases fs with
  | nil => cases h
  | cons first rest =>
    cases h
    exact ⟨first, rest, rfl, rfl, rfl⟩

end Declaration

/-! ## Files in a row -/

namespace Entity

/-- The fragments that a file gives to its entity are those of the type that it declares first. -/
theorem ownFragments_eq (fs : List Declaration) : ownFragments fs =
    match fs.find? (! ·.isInterface) with
    | none => []
    | some first => fs.filter fun f => !f.isInterface && f.name == first.name := by
  unfold ownFragments
  simp only [List.head?_filter, List.filter_filter]
  cases fs.find? (! ·.isInterface) with
  | none => rfl
  | some first => exact List.filter_congr fun f _ => Bool.and_comm _ _

/-- Files that are absorbed one after another add their fragments in a row. -/
theorem foldl_absorb (markers : Markers) (files : List (String × List Declaration)) (e : Entity) :
    files.foldl (fun e file => e.absorb markers file.2) e =
      { origin := e.origin
        declaration := Declaration.mergeAll e.declaration (files.flatMap (ownFragments ·.2))
        interface := Declaration.mergeAll e.interface
          (files.flatMap (pairedFragments markers e.name ·.2))
        request := e.request.or ((files.flatMap (ownFragments ·.2)).findSome?
          (·.attribute? markers.diagramAttribute)) } := by
  induction files generalizing e with
  | nil => cases e with | mk _ d i request => cases d <;> cases i <;> cases request <;> rfl
  | cons file files ih =>
    rw [List.foldl_cons, ih, name_absorb]
    simp only [absorb, List.flatMap_cons, Declaration.mergeAll_append, List.findSome?_append,
      Option.or_assoc]

end Entity

namespace EntityIndex

open EntityTables (byFile absorbFile)

variable {markers : Markers} {trees : List Scene.Tree} {ds : List Declaration} {e : Entity}
  {stem : String}

/-- The declaration files of a stem with their fragments, in the order in which they first occur. -/
def filesOf (ds : List Declaration) (stem : String) : List (String × List Declaration) :=
  (byFile ds).filter (Path.stem ·.1 == stem)

/-- The fragments in the files of a stem, file by file. -/
def fragmentsOf (ds : List Declaration) (stem : String) : List Declaration :=
  (filesOf ds stem).flatMap (·.2)

/-- The fragments that the files of a stem give to its entity. -/
def ownFragmentsOf (ds : List Declaration) (stem : String) : List Declaration :=
  (filesOf ds stem).flatMap (Entity.ownFragments ·.2)

theorem mem_filesOf {file : String × List Declaration} (h : file ∈ filesOf ds stem) :
    Path.stem file.1 = stem ∧ file.2 = ds.filter (·.file == file.1) ∧
      ∃ g ∈ ds, g.file = file.1 := by
  obtain ⟨hfile, hstem⟩ := List.mem_filter.mp h
  obtain ⟨name, hname, rfl⟩ := List.mem_map.mp hfile
  obtain ⟨g, hg, hgfile⟩ := List.mem_map.mp (List.mem_eraseDups.mp hname)
  exact ⟨eq_of_beq hstem, rfl, g, hg, hgfile⟩

theorem mem_ownFragmentsOf {f : Declaration} (h : f ∈ ownFragmentsOf ds stem) :
    f ∈ ds ∧ Path.stem f.file = stem ∧ f.isInterface = false := by
  obtain ⟨file, hfile, hf⟩ := List.mem_flatMap.mp h
  obtain ⟨hstem, hfragments, -⟩ := mem_filesOf hfile
  rw [Entity.ownFragments_eq] at hf
  split at hf
  · cases hf
  · obtain ⟨hin, htype⟩ := List.mem_filter.mp hf
    rw [hfragments, List.mem_filter, beq_iff_eq] at hin
    rw [Bool.and_eq_true, Bool.not_eq_true'] at htype
    exact ⟨hin.1, hin.2 ▸ hstem, htype.1⟩

/-- What a project makes of an entity: it was found as a scene or as the first file of its stem, and
is put together from the fragments in the files of the stem. -/
structure Assembled (markers : Markers) (trees : List Scene.Tree) (ds : List Declaration)
    (e : Entity) : Prop where
  origin : (∃ tree ∈ trees, e.origin = .scene tree) ∨
    ∃ file rest, filesOf ds e.name = file :: rest ∧ e.origin = .file file.1
  declaration : e.declaration = Declaration.joined? (ownFragmentsOf ds e.name)
  interface : e.interface = Declaration.joined? ((fragmentsOf ds e.name).filter fun f =>
    f.isInterface && f.name == markers.interfaceName e.name)
  request : e.request =
    (ownFragmentsOf ds e.name).findSome? (·.attribute? markers.diagramAttribute)

/-- An entity without declarations is assembled from the files that it absorbs. -/
theorem Assembled.of_foldl {start : Entity} (hstart : start.declaration = none ∧
      start.interface = none ∧ start.request = none)
    (horigin : (∃ tree ∈ trees, start.origin = .scene tree) ∨
      ∃ file rest, filesOf ds e.name = file :: rest ∧ start.origin = .file file.1)
    (h : e = (filesOf ds e.name).foldl (fun e file => e.absorb markers file.2) start) :
    Assembled markers trees ds e := by
  rw [Entity.foldl_absorb, hstart.1, hstart.2.1, hstart.2.2, Declaration.mergeAll_none,
    Declaration.mergeAll_none, Option.none_or] at h
  have hfrom : e.origin = start.origin := by rw [h]
  have hname : start.name = e.name := by
    rw [Entity.name, Entity.name, Entity.file, Entity.file, hfrom]
  rw [hname] at h
  refine ⟨hfrom ▸ horigin, (congrArg Entity.declaration h :), ?_, (congrArg Entity.request h :)⟩
  rw [fragmentsOf, List.filter_flatMap]
  exact (congrArg Entity.interface h :)

theorem foldl_absorbFile (files : List (String × List Declaration)) (start : Entity) :
    files.foldl (absorbFile markers) (some start) =
      some (files.foldl (fun e file => e.absorb markers file.2) start) := by
  induction files generalizing start with
  | nil => rfl
  | cons file files ih => exact ih _

theorem assembled_of_mem (he : e ∈ (build markers trees ds).1.entities) :
    Assembled markers trees ds e := by
  have hfound := lookup?_name he
  rw [lookup?_build] at hfound
  cases hscene : trees.find? (Path.stem ·.path == e.name) with
  | some tree =>
    rw [hscene, Option.map_some, foldl_absorbFile] at hfound
    exact .of_foldl ⟨rfl, rfl, rfl⟩ (.inl ⟨tree, List.mem_of_find?_eq_some hscene, rfl⟩)
      (Option.some.inj hfound).symm
  | none =>
    rw [hscene, Option.map_none] at hfound
    cases hfiles : filesOf ds e.name with
    | nil =>
      rw [← filesOf, hfiles] at hfound
      cases hfound
    | cons file rest =>
      have hfirst : (file :: rest).foldl (absorbFile markers) none =
          (file :: rest).foldl (absorbFile markers) (some (.ofFile file.1)) := rfl
      rw [← filesOf, hfiles, hfirst, foldl_absorbFile, ← hfiles] at hfound
      exact .of_foldl ⟨rfl, rfl, rfl⟩ (.inr ⟨file, rest, hfiles, rfl⟩) (Option.some.inj hfound).symm

/-! ## Types in the files of a stem -/

/-- The files of a stem agree on the type: each of them that declares any declares first one of the
given name. -/
def OfOneType (ds : List Declaration) (stem typeName : String) : Prop :=
  ∀ file ∈ filesOf ds stem, ∀ first, file.2.find? (! ·.isInterface) = some first →
    first.name = typeName

/-- The fragments of one type in the files of a stem. -/
def fragmentsNamed (ds : List Declaration) (stem typeName : String) : List Declaration :=
  (fragmentsOf ds stem).filter fun f => !f.isInterface && f.name == typeName

variable {typeName : String}

/-- Where the files of a stem agree on the type, its fragments are what they give to the entity. -/
theorem OfOneType.ownFragmentsOf_eq (h : OfOneType ds stem typeName) :
    ownFragmentsOf ds stem = fragmentsNamed ds stem typeName := by
  rw [ownFragmentsOf, fragmentsNamed, fragmentsOf, List.filter_flatMap]
  refine List.flatMap_congr fun file hfile => ?_
  rw [Entity.ownFragments_eq]
  cases hfirst : file.2.find? (! ·.isInterface) with
  | none =>
    refine (List.filter_eq_nil_iff.mpr fun f hf htype => ?_).symm
    exact List.find?_eq_none.mp hfirst f hf (Bool.and_eq_true_iff.mp htype).1
  | some first => simp only [h file hfile first hfirst]

/-- A file of the stem gives all fragments of the type that it declares first. -/
theorem sublist_ownFragmentsOf {file : String × List Declaration} {first : Declaration}
    (hfile : file ∈ filesOf ds stem) (hfirst : file.2.find? (! ·.isInterface) = some first) :
    (file.2.filter fun f => !f.isInterface && f.name == first.name).Sublist
      (ownFragmentsOf ds stem) := by
  have hown : Entity.ownFragments file.2 =
      file.2.filter fun f => !f.isInterface && f.name == first.name := by
    rw [Entity.ownFragments_eq, hfirst]
  rw [← hown]
  exact List.sublist_flatten_of_mem (List.mem_map_of_mem hfile)

/-- The interface of an entity is put together from the fragments that are named for it, and its
declaration from those of one type, in the order of the files. Only where some file of the stem
declares first a type of another name, the fragments of that type are put into the declaration
too. -/
theorem build_joins_fragments (markers : Markers) (trees : List Scene.Tree)
    (ds : List Declaration) {e : Entity} (he : e ∈ (build markers trees ds).1.entities) :
    e.interface = Declaration.joined? ((fragmentsOf ds e.name).filter fun f =>
      f.isInterface && f.name == markers.interfaceName e.name) ∧
    ∀ d, e.declaration = some d →
      (OfOneType ds e.name d.name →
        Declaration.joined? (fragmentsNamed ds e.name d.name) = some d ∧
        e.request = (fragmentsNamed ds e.name d.name).findSome?
          (·.attribute? markers.diagramAttribute)) ∧
      (¬ OfOneType ds e.name d.name → Declaration.joined? (ownFragmentsOf ds e.name) = some d ∧
        e.request =
          (ownFragmentsOf ds e.name).findSome? (·.attribute? markers.diagramAttribute) ∧
        ∃ file ∈ filesOf ds e.name, ∃ first, file.2.find? (! ·.isInterface) = some first ∧
          first.name ≠ d.name ∧
          (file.2.filter fun f => !f.isInterface && f.name == first.name).Sublist
            (ownFragmentsOf ds e.name)) := by
  have h := assembled_of_mem he
  refine ⟨h.interface, fun d hd => ⟨fun hone => ?_, fun hother => ?_⟩⟩
  · rw [← hone.ownFragmentsOf_eq, ← h.declaration]
    exact ⟨hd, h.request⟩
  · simp only [OfOneType, not_forall] at hother
    obtain ⟨file, hfile, first, hfirst, hname⟩ := hother
    exact ⟨h.declaration ▸ hd, h.request, file, hfile, first, hfirst, hname,
      sublist_ownFragmentsOf hfile hfirst⟩

/-! ## A player in two files -/

namespace Player

def health : Member := .property ⟨"Health", "int", 2, [], false⟩

def armor : Member := .property ⟨"Armor", "int", 7, [], false⟩

def slots : Member := .property ⟨"Slots", "int", 3, [], false⟩

def interface : Declaration := ⟨"IPlayer", .interfaceType, "a/Player.cs", 9, [], [health], none, []⟩

/-- The first fragment of the player. -/
def first : Declaration := ⟨"Player", .classType, "a/Player.cs", 1, [], [health], none, []⟩

def second : Declaration :=
  ⟨"Player", .classType, "a/Player.cs", 6, [⟨"ClassDiagram", []⟩], [armor], none, []⟩

/-- A type of another name, in another file of the same stem. -/
def inventory : Declaration := ⟨"Inventory", .classType, "b/Player.cs", 1, [], [slots], none, []⟩

/-- The player as its two fragments make it. -/
def player : Entity := ⟨.file "a/Player.cs",
  some { first with attributes := second.attributes, members := [health, armor] }, some interface,
  some ⟨"ClassDiagram", []⟩⟩

/-- The player with the fragment of the other type. -/
def mixed : Entity :=
  ⟨.file "a/Player.cs", some { first with members := [health, slots] }, none, none⟩

end Player

/-- Two fragments and an interface in one file, with a type of another name behind them. -/
theorem build_joins_fragments_player :
    let ds := [Player.first, Player.interface, { Player.inventory with file := "a/Player.cs" },
      Player.second]
    Player.player ∈ (build .standard [] ds).1.entities ∧
      Player.player.interface = Declaration.joined? [Player.interface] ∧
      ∃ d, Player.player.declaration = some d ∧
        Declaration.joined? (fragmentsNamed ds "Player" d.name) = some d := by
  intro ds
  have he : Player.player ∈ (build .standard [] ds).1.entities := by decide +kernel
  have hfiles : filesOf ds "Player" = [("a/Player.cs", ds)] := by decide +kernel
  obtain ⟨hinterface, hdeclaration⟩ := build_joins_fragments .standard [] ds he
  refine ⟨he, hinterface.trans (by decide +kernel), _, rfl, ((hdeclaration _ rfl).1 ?_).1⟩
  intro file hfile first hfirst
  have hname : Player.player.name = "Player" := by decide +kernel
  rw [hname, hfiles, List.mem_singleton] at hfile
  rw [hfile] at hfirst
  exact (Option.some.inj hfirst) ▸ rfl

/-- Two files of one stem that declare types of different names: the members of the second type are
put into the declaration of the first. -/
theorem declaration_mixes_types :
    Player.mixed ∈ (build .standard [] [Player.first, Player.inventory]).1.entities ∧
      Declaration.joined? (fragmentsNamed [Player.first, Player.inventory] "Player" "Player") =
        some Player.first ∧
      Player.mixed.declaration ≠ some Player.first := by
  decide +kernel

end EntityIndex

end SceneDiagram
