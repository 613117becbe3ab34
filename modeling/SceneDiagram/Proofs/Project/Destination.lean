import SceneDiagram.Proofs.Files.Node
import SceneDiagram.Proofs.Project.Instance
import SceneDiagram.Proofs.Project.Output

/-!
# Where relative links lead

A relative link climbs as many directories as the path of its diagram has slashes, and goes on with
a path that is seen from the project directory. The path of the diagram has one directory for each
slash (`length_splitOn`), and the climb leaves each of them again (`along_climb`), as long as they
all lead down. So the link leads from the directory of the diagram where the path leads from the
project directory (`generate_links_lead`).
-/

namespace SceneDiagram

open Text

/-! ## Segments of links -/

namespace Text.Path

/-- A link goes up in its first segments. -/
theorem segments_climb_append (n : Nat) (path : String) :
    segments (Linker.climb n ++ path) = List.replicate n ['.', '.'] ++ segments path := by
  induction n with
  | zero => rw [Linker.climb, String.empty_append, List.replicate_zero, List.nil_append]
  | succ n ih =>
    have htext : (Linker.climb (n + 1) ++ path).toList =
        ['.', '.'] ++ '/' :: (Linker.climb n ++ path).toList := by
      rw [Linker.climb, String.append_assoc, String.toList_append]
      rfl
    rw [segments, htext, List.splitOn_append_cons_self, ← segments, ih, List.replicate_succ]
    rfl

/-- A path that only leads down: it does not start with a slash, and none of its segments is empty,
`.` or `..`. -/
def LeadsDown (path : String) : Prop :=
  ∀ seg ∈ segments path, isIdle seg = false ∧ seg ≠ ['.', '.']

instance (path : String) : Decidable (LeadsDown path) :=
  inferInstanceAs (Decidable (∀ seg ∈ segments path, _))

theorem LeadsDown.isSome_fileName? {path : String} (h : LeadsDown path) :
    (fileName? path).isSome := by
  obtain ⟨names, x, hsegs⟩ := exists_segments path
  obtain ⟨hidle, hup⟩ := h x (by simp [hsegs])
  rw [fileName?_of_segments hsegs hidle hup]
  rfl

end Text.Path

namespace FileTree

variable {t : FileTree} {root : Place} {names : List FileName}

/-- The names of the directories in a path. -/
def dirsOf (path : String) : List FileName := (FileName.ofPath path).dropLast

theorem ofPath_climb_append (n : Nat) (path : String) :
    FileName.ofPath (Linker.climb n ++ path) =
      List.replicate n .up ++ FileName.ofPath path := by
  rw [FileName.ofPath, Path.segments_climb_append, List.map_append, List.map_replicate]
  rfl

/-! ## Down and up again -/

theorem Place.next_up (root : Place) (name : FileName) :
    Place.next (root ++ [name]) .up = root := by
  rw [Place.next, if_neg (by decide), if_pos rfl, List.dropLast_concat]

/-- Going up once for each name leads back. -/
theorem Place.along_climb (root : Place) (names : List FileName) :
    Place.along (root ++ names) (List.replicate names.length .up) = root := by
  induction names using List.reverseRecOn with
  | nil => exact List.append_nil root
  | append_singleton names name ih =>
    rw [List.length_append, List.length_singleton, List.replicate_succ, ← List.append_assoc]
    show Place.along (Place.next (root ++ names ++ [name]) .up) _ = root
    rw [Place.next_up, ih]

/-- From a directory that is there it is possible to go up once for each name. -/
theorem resolve_climb (h : t.node? (root ++ names) = some .dir) :
    t.resolve (root ++ names) (List.replicate names.length .up) = .ok root := by
  induction names using List.reverseRecOn with
  | nil => exact congrArg Except.ok (List.append_nil root)
  | append_singleton names name ih =>
    rw [← List.append_assoc] at h ⊢
    have hup : t.follow (root ++ names ++ [name]) .up = .ok (root ++ names) :=
      follow_eq_ok_iff.mpr ⟨h, by decide, (Place.next_up _ name).symm⟩
    rw [List.length_append, List.length_singleton, List.replicate_succ, resolve_cons, hup]
    exact ih (isDirAt_of_node? name [] (Option.isSome_of_eq_some h))

/-- A link in a file leads where a path leads from the project directory, wherever that is: by what
the segments say, and in every tree in which the directory of the file is there. -/
structure Leads (file link path : String) : Prop where
  along (root : Place) : Place.along (Place.along root (dirsOf file)) (FileName.ofPath link) =
    Place.along root (FileName.ofPath path)
  resolve {t : FileTree} {root : Place}
    (h : t.node? (Place.along root (dirsOf file)) = some .dir) :
    t.resolve (Place.along root (dirsOf file)) (FileName.ofPath link) =
      t.resolve root (FileName.ofPath path)

/-- A climb out of all directories of a file leads on from the project directory. -/
theorem leads_climb {file : String}
    (hdown : ∀ name ∈ dirsOf file, name.isIdle = false ∧ name ≠ .up) (path : String) :
    Leads file (Linker.climb (dirsOf file).length ++ path) path where
  along root := by
    rw [ofPath_climb_append, Place.along_append, Place.along_down hdown root, Place.along_climb]
  resolve {t root} h := by
    rw [Place.along_down hdown root] at h ⊢
    rw [ofPath_climb_append, resolve_append, resolve_climb h]
    rfl

end FileTree

/-! ## Links of a diagram -/

theorem Linker.link_relative {path : String} (h : isBlankText path = false) (n : Nat) :
    (Linker.relative n).link path = Linker.climb n ++ path := by
  rw [link, h]
  rfl

namespace Project

open FileTree

variable {e : Entity}

/-- The directories of a diagram are those of a file that leads down, one for each slash. -/
theorem dirsOf_outputPath (h : Path.LeadsDown e.file) :
    (dirsOf e.outputPath).length = e.outputPath.toList.count '/' ∧
      ∀ name ∈ dirsOf e.outputPath, name.isIdle = false ∧ name ≠ .up := by
  constructor
  · rw [dirsOf, FileName.ofPath, List.length_dropLast, List.length_map, Path.segments,
      length_splitOn, Nat.add_sub_cancel]
  · have hdirs : dirsOf e.outputPath =
        (Path.segments e.file).dropLast.map FileName.ofSegment := by
      rw [dirsOf, FileName.ofPath, e.segments_outputPath_of_isSome h.isSome_fileName?,
        List.map_append, List.map_singleton, List.dropLast_concat]
    rw [hdirs]
    intro name hname
    obtain ⟨seg, hseg, rfl⟩ := List.mem_map.mp hname
    obtain ⟨hidle, hup⟩ := h seg (List.dropLast_subset _ hseg)
    exact ⟨(FileName.isIdle_ofSegment seg).trans hidle,
      fun heq => hup (FileName.ofSegment_eq_up_iff.mp heq)⟩

theorem linker_drawnFrom {config : Config} (dir : String) (model : Model)
    (hrelative : (config.diagram.options e.request).absoluteLinks = false)
    (hfile : Path.LeadsDown e.file) :
    (drawnFrom config dir model e).linker = .relative (dirsOf e.outputPath).length := by
  rw [(dirsOf_outputPath hfile).1]
  exact if_neg (by rw [hrelative]; exact Bool.false_ne_true)

/-- Every diagram belongs to an entity. If its links are relative and the file of the entity leads
down from the project directory, then the link to any path that is not blank leads from the diagram
where the path leads from the project directory, also with a line number after it. So do the links
to the files of the entities. -/
theorem generate_links_lead (config : Config) (p : Project) {o : DiagramOutput}
    (ho : o ∈ (generate config p).1.outputs) :
    let model := Model.build config.markers p.trees p.declarations
    ∃ e, model.index.lookup? o.entity = some e ∧
      let ctx := drawnFrom config p.dir model e
      o.contents = (e.diagram ctx (Facet.registry Facet.all)).document ∧
      (ctx.options.absoluteLinks = false → Path.LeadsDown e.file →
        (∀ path suffix, isBlankText path = false →
          Leads o.path (ctx.linker.link path ++ suffix) (path ++ suffix)) ∧
        ∀ x suffix, isBlankText x.linkTarget.1 = false →
          Leads o.path (ctx.ownLink x ++ suffix) (x.linkTarget.1 ++ suffix)) := by
  intro model
  rw [outputs_generate] at ho
  obtain ⟨e, he, rfl⟩ := List.mem_map.mp ho
  refine ⟨e, EntityIndex.lookup?_name (List.mem_of_mem_filter he), contents_output .., ?_⟩
  intro hrelative hfile
  have hlinks : ∀ path suffix, isBlankText path = false →
      Leads e.outputPath ((drawnFrom config p.dir model e).linker.link path ++ suffix)
        (path ++ suffix) := by
    intro path suffix hpath
    rw [linker_drawnFrom p.dir model hrelative hfile, Linker.link_relative hpath,
      String.append_assoc]
    exact leads_climb (dirsOf_outputPath hfile).2 (path ++ suffix)
  exact ⟨hlinks, fun x suffix hx => hlinks x.linkTarget.1 suffix hx⟩

/-- From two directories below the project directory, a line of a file in another directory. -/
theorem generate_links_lead_hud :
    let hud : Declaration := ⟨"Hud", .classType, "src/ui/Hud.cs", 1, [⟨"ClassDiagram", []⟩],
      [.property ⟨"World", "World", 4, [], false⟩], none, []⟩
    let world : Declaration := ⟨"World", .classType, "scenes/World.cs", 1, [], [], none, []⟩
    let p : Project := ⟨"/game", [], [hud, world]⟩
    ∃ o ∈ (generate .standard p).1.outputs, o.path = "src/ui/Hud.g.puml" ∧
      Path.LeadsDown "src/ui/Hud.cs" ∧ isBlankText "scenes/World.cs" = false ∧
      Leads o.path "../../scenes/World.cs:3" "scenes/World.cs:3" := by
  intro hud world p
  have houtputs : (generate .standard p).1.outputs.map (fun o => (o.entity, o.path)) =
      [("Hud", "src/ui/Hud.g.puml")] := by decide +kernel
  obtain ⟨o, ho, hnames⟩ := List.mem_map.mp (houtputs ▸ List.mem_singleton_self _)
  obtain ⟨hentity, hplace⟩ := Prod.mk.inj hnames
  obtain ⟨e, hfound, -, hlinks⟩ := generate_links_lead .standard p ho
  have hhud : (Model.build Config.standard.markers p.trees p.declarations).index.lookup? "Hud" =
      some ⟨.file "src/ui/Hud.cs", some hud, none, some ⟨"ClassDiagram", []⟩⟩ := by decide +kernel
  rw [hentity, hhud] at hfound
  obtain rfl := Option.some.inj hfound
  have hfile : Path.LeadsDown "src/ui/Hud.cs" := by decide
  have hpath : isBlankText "scenes/World.cs" = false := by decide
  have hleads := (hlinks rfl hfile).1 "scenes/World.cs" ":3" hpath
  refine ⟨o, ho, hplace, hfile, hpath, ?_⟩
  convert hleads using 1
  · decide +kernel
  · decide +kernel

end Project

end SceneDiagram
