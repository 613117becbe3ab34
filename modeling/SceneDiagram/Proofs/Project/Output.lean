import SceneDiagram.Proofs.Entity.Fragment
import SceneDiagram.Proofs.Entity.Order
import SceneDiagram.Proofs.Project.Rearrangement
import SceneDiagram.Proofs.Text.Path

/-!
# The files of the diagrams

A diagram is a file of its own, beside the file of its entity. Two diagrams never go to the same
file: the entities of an index have different names, a name has no slash in it if the file that it
is the stem of has a name, and so the diagrams have different file names, whatever directories they
lie in (`generate_gives_own_files`).
-/

namespace SceneDiagram

open Text

/-- A path beside a file: it has the directory of the file, if that has one, and then a name. -/
inductive Text.Path.Beside (name : String) : String → String → Prop
  | alone {file : String} (h : '/' ∉ file.toList) : Beside name file name
  | within {dir last : String} (h : '/' ∉ last.toList) :
      Beside name (dir ++ "/" ++ last) (dir ++ "/" ++ name)

theorem Entity.beside_outputPath (e : Entity) :
    Path.Beside (e.name ++ ".g.puml") e.file e.outputPath := by
  rcases e.outputPath_cases with ⟨hfile, hpath⟩ | ⟨up, seg, hfile, hseg, hpath⟩
  · have hname : e.outputPath = e.name ++ ".g.puml" := by
      rw [← String.toList_inj, hpath, String.toList_append, Path.toList_eq_diagramEnd]
    rw [hname]
    exact .alone hfile
  · have hbeside (cs : List Char) (s : String) (h : s.toList = up ++ '/' :: cs) :
        s = String.ofList up ++ "/" ++ String.ofList cs := by
      rw [← String.ofList_toList (s := s), h, List.append_cons, String.ofList_append,
        String.ofList_append]
    have hname : String.ofList (e.name.toList ++ Path.diagramEnd) = e.name ++ ".g.puml" := by
      rw [String.ofList_append, String.ofList_toList, ← Path.toList_eq_diagramEnd,
        String.ofList_toList]
    rw [hbeside _ _ hfile, hbeside _ _ hpath, hname]
    exact .within (by rwa [String.toList_ofList])

theorem Entity.fileName?_outputPath {e : Entity} (h : (Path.fileName? e.file).isSome) :
    Path.fileName? e.outputPath = some (e.name.toList ++ Path.diagramEnd) :=
  Path.fileName?_of_segments (e.segments_outputPath_of_isSome h)
    (Path.isFile_append_diagramEnd _).1 (Path.isFile_append_diagramEnd _).2

namespace Project

variable {p : Project} {config : Config} {markers : Markers} {e : Entity}

/-- An entity asks for a diagram, with an attribute of its type in one of the files of its stem, or
the configuration names it. -/
def Wants (config : Config) (ds : List Declaration) (e : Entity) : Prop :=
  (∃ f ∈ EntityIndex.ownFragmentsOf ds e.name,
    ∃ a ∈ f.attributes, a.isNamed config.markers.diagramAttribute = true) ∨
  e.name ∈ config.diagram.included

/-- A diagram is the one of an entity, and lies as far below the project directory as its path has
slashes. -/
structure IsOutputOf (e : Entity) (o : DiagramOutput) : Prop where
  entity : o.entity = e.name
  path : Path.Beside (e.name ++ ".g.puml") e.file o.path
  depth : o.depth = o.path.toList.count '/'

@[simp] theorem path_output (config : Config) (dir : String) (model : Model) (e : Entity) :
    (output config dir model e).path = e.outputPath := rfl

@[simp] theorem depth_output (config : Config) (dir : String) (model : Model) (e : Entity) :
    (output config dir model e).depth = e.outputPath.toList.count '/' := by
  rw [output]

theorem isOutputOf_output (config : Config) (dir : String) (model : Model) (e : Entity) :
    IsOutputOf e (output config dir model e) where
  entity := rfl
  path := e.beside_outputPath
  depth := by rw [depth_output, path_output]

theorem outputs_generate (config : Config) (p : Project) :
    let model := Model.build config.markers p.trees p.declarations
    (generate config p).1.outputs =
      (model.index.entities.filter (isRequested config)).map (output config p.dir model) := rfl

theorem isRequested_iff_wants {trees : List Scene.Tree} {ds : List Declaration}
    (he : e ∈ (EntityIndex.build config.markers trees ds).1.entities) :
    isRequested config e = true ↔ Wants config ds e := by
  rw [isRequested, Wants, Bool.or_eq_true, (EntityIndex.assembled_of_mem he).request,
    List.findSome?_isSome_iff, DiagramSettings.includes, List.contains_iff_mem]
  simp only [Declaration.attribute?, List.find?_isSome]

/-- The file of every entity has a name if those of all scenes and declarations have. -/
theorem isSome_fileName?_of_mem_build
    (hscenes : ∀ file ∈ p.scenes, (Path.stem? file.path).isSome)
    (hfiles : ∀ d ∈ p.declarations, (Path.stem? d.file).isSome)
    (he : e ∈ (EntityIndex.build markers p.trees p.declarations).1.entities) :
    (Path.fileName? e.file).isSome := by
  rcases EntityIndex.file_of_mem_build he with ⟨tree, htree, hfile⟩ | ⟨d, hd, hfile⟩
  · obtain ⟨file, hmem, hpath⟩ := exists_of_mem_trees htree
    simpa [Path.stem?, hfile, hpath] using hscenes file hmem
  · simpa [Path.stem?, hfile] using hfiles d hd

/-- A run makes one diagram for each entity that asks for one or that the configuration names, in
the order of the entities. Each diagram lies beside the file of its entity, under the name of the
entity. No two diagrams have one path, nor even one file name, as long as the files of all scenes
and declarations have names. -/
theorem generate_gives_own_files (config : Config) (p : Project)
    (hscenes : ∀ file ∈ p.scenes, (Path.stem? file.path).isSome)
    (hfiles : ∀ d ∈ p.declarations, (Path.stem? d.file).isSome) :
    let entities := (Model.build config.markers p.trees p.declarations).index.entities
    let outputs := (generate config p).1.outputs
    (∀ e ∈ entities, isRequested config e = true ↔ Wants config p.declarations e) ∧
      List.Forall₂ IsOutputOf (entities.filter (isRequested config)) outputs ∧
      (outputs.map (·.path)).Nodup ∧ (outputs.map (Path.fileName? ·.path)).Nodup := by
  intro entities outputs
  let model := Model.build config.markers p.trees p.declarations
  have houtputs : outputs =
      (entities.filter (isRequested config)).map (output config p.dir model) :=
    outputs_generate config p
  have hnames : ((entities.filter (isRequested config)).map Entity.name).Nodup :=
    model.index.names_nodup.sublist (List.filter_sublist.map _)
  have hfileNames : outputs.map (Path.fileName? ·.path) =
      ((entities.filter (isRequested config)).map Entity.name).map
        fun name => some (name.toList ++ Path.diagramEnd) := by
    rw [houtputs, List.map_map, List.map_map]
    refine List.map_congr_left fun e he => ?_
    have hname := isSome_fileName?_of_mem_build hscenes hfiles (List.mem_of_mem_filter he)
    rw [Function.comp_apply, path_output, Entity.fileName?_outputPath hname, Function.comp_apply]
  have hdifferent : (outputs.map (Path.fileName? ·.path)).Nodup := by
    rw [hfileNames]
    refine hnames.map fun name name' h => ?_
    exact String.toList_inj.mp (List.append_cancel_right (Option.some.inj h))
  refine ⟨fun e he => isRequested_iff_wants he, ?_, ?_, hdifferent⟩
  · rw [houtputs, List.forall₂_map_right_iff, List.forall₂_same]
    exact fun e _ => isOutputOf_output config p.dir model e
  · have hpaths : outputs.map (Path.fileName? ·.path) =
        (outputs.map (·.path)).map Path.fileName? := by rw [List.map_map]; rfl
    exact (hpaths ▸ hdifferent).of_map

/-- Two files of one stem in different directories are one entity with one diagram. The world is a
scene that the configuration names. -/
theorem generate_gives_own_files_player :
    let declared (file : String) : Declaration :=
      ⟨"Player", .classType, file, 1, [⟨"ClassDiagram", []⟩], [], none, []⟩
    let config : Config := ⟨DiagramSettings.standard.withIncluded "World", .standard⟩
    let p : Project := ⟨"/game", [⟨"scenes/World.tscn", "[node name=\"World\"]"⟩],
      [declared "src/Player.cs", declared "mods/Player.cs"]⟩
    let outputs := (generate config p).1.outputs
    (∀ file ∈ p.scenes, (Path.stem? file.path).isSome) ∧
      (∀ d ∈ p.declarations, (Path.stem? d.file).isSome) ∧
      outputs.map (·.path) = ["scenes/World.g.puml", "src/Player.g.puml"] ∧
      (outputs.map (·.path)).Nodup := by
  intro declared config p outputs
  have hscenes : ∀ file ∈ p.scenes, (Path.stem? file.path).isSome := by decide
  have hfiles : ∀ d ∈ p.declarations, (Path.stem? d.file).isSome := by decide
  obtain ⟨-, -, hnodup, -⟩ := generate_gives_own_files config p hscenes hfiles
  exact ⟨hscenes, hfiles, by decide +kernel, hnodup⟩

end Project

end SceneDiagram
