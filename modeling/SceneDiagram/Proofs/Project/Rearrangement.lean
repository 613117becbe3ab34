import SceneDiagram.Project
import SceneDiagram.Proofs.Diagram.Agreement
import SceneDiagram.Proofs.Entity.Discovery
import SceneDiagram.Proofs.Relation.Resolution

/-!
# Projects in another order

The files of a project come in some order, and some of its scenes may be malformed. Neither shows in
the diagrams, as long as the files of the project are told apart by their stems: entities are found
under their names whatever the order (`lookup?_build_congr`), the graph relates them by what their
own places say (`find?_ofIndex_congr`), and a diagram is drawn from these answers only
(`Agree.diagram`). Each malformed scene is reported for itself.
-/

namespace SceneDiagram.Project

open Text

/-- The scene files that can be read. -/
def accepted (p : Project) : List SceneFile :=
  p.scenes.filter fun file => (readScene file).isOk

/-- The scene files that cannot be read. -/
def malformed (p : Project) : List SceneFile :=
  p.scenes.filter fun file => !(readScene file).isOk

/-- Projects with the same scenes apart from malformed ones, in some order, and with the same
declarations in an order that is kept within each file. -/
structure Rearranged (p q : Project) : Prop where
  dir : p.dir = q.dir
  scenes : p.accepted.Perm q.accepted
  declarations : ∀ file,
    p.declarations.filter (·.file == file) = q.declarations.filter (·.file == file)

/-- No two scenes of a project have one stem, and no two files with declarations have. -/
structure Unambiguous (p : Project) : Prop where
  scenes : (p.accepted.map (Path.stem ·.path)).Nodup
  files : ∀ d ∈ p.declarations, ∀ d' ∈ p.declarations,
    Path.stem d.file = Path.stem d'.file → d.file = d'.file

variable {p q : Project} {config : Config}

/-! ## Scenes -/

/-- A scene keeps the path of its file. -/
theorem path_readScene {file : SceneFile} {reading : Scene.Reading}
    (h : readScene file = .ok reading) : reading.tree.path = file.path := by
  unfold readScene Scene.parse at h
  cases hs : Scene.sections file.text with
  | error e =>
    rw [hs] at h
    cases h
  | ok ss =>
    rw [hs] at h
    replace h : Scene.ofSections file.text file.path ss = .ok reading := h
    simp only [Scene.ofSections] at h
    split at h
    · cases h
    · split at h
      · cases h
      · rw [← Except.ok.inj h]

theorem trees_eq_accepted (p : Project) :
    p.trees = p.accepted.filterMap fun file => (readScene file).toOption.map (·.tree) := by
  unfold trees accepted
  rw [List.filterMap_filter]
  refine List.filterMap_congr fun file _ => ?_
  cases readScene file <;> rfl

theorem trees_perm (h : p.accepted.Perm q.accepted) : p.trees.Perm q.trees := by
  rw [trees_eq_accepted, trees_eq_accepted]
  exact h.filterMap _

theorem map_path_trees (p : Project) : p.trees.map (·.path) = p.accepted.map (·.path) := by
  unfold trees accepted
  rw [← List.filterMap_eq_filter, List.map_filterMap, List.map_filterMap]
  refine List.filterMap_congr fun file _ => ?_
  cases hread : readScene file with
  | error e => simp [Option.guard, hread, Except.toOption, Except.isOk, Except.toBool]
  | ok reading =>
    simp [Option.guard, hread, Except.toOption, Except.isOk, Except.toBool, path_readScene hread]

/-- A scene that is read has the path of a scene file. -/
theorem exists_of_mem_trees {tree : Scene.Tree} (h : tree ∈ p.trees) :
    ∃ file ∈ p.scenes, tree.path = file.path := by
  have hpath : tree.path ∈ p.accepted.map (·.path) := by
    rw [← map_path_trees]
    exact List.mem_map_of_mem h
  obtain ⟨file, hfile, heq⟩ := List.mem_map.mp hpath
  exact ⟨file, List.mem_of_mem_filter hfile, heq.symm⟩

/-- Every malformed scene is reported with its own error, in the order of the files. -/
theorem failures_eq (config : Config) (p : Project) :
    (generate config p).1.failures.map (·.file) = p.malformed ∧
      ∀ failure ∈ (generate config p).1.failures,
        Scene.parse failure.file.text failure.file.path = .error failure.error := by
  constructor
  · show (p.scenes.filterMap failure?).map (·.file) = _
    unfold malformed
    rw [← List.filterMap_eq_filter, List.map_filterMap]
    refine List.filterMap_congr fun file _ => ?_
    cases hread : readScene file <;>
      simp [failure?, Option.guard, hread, Except.isOk, Except.toBool]
  · intro failure hfailure
    obtain ⟨file, _, hfile⟩ := List.mem_filterMap.mp hfailure
    unfold failure? at hfile
    split at hfile
    · cases hfile
    · next hread =>
      rw [← Option.some.inj hfile]
      exact hread

/-! ## Diagrams -/

/-- Models that answer alike draw an entity alike. -/
theorem output_congr {dir dir' : String} {m m' : Model} (hdir : dir = dir')
    (hlookup : m.index.lookup? = m'.index.lookup?)
    (hp : m.index.interfacePrefix = m'.index.interfacePrefix)
    (hfind : m.graph.find? = m'.graph.find?) : output config dir m = output config dir' m' := by
  have hagree : ∀ options linker, Agree ⟨m.index, m.graph, config.markers, options, linker⟩
      ⟨m'.index, m'.graph, config.markers, options, linker⟩ := fun _ _ =>
    ⟨hlookup, hp, hfind, rfl, rfl, rfl⟩
  subst hdir
  funext e
  simp only [output, (hagree _ _).diagram]

/-- The diagrams of a project do not depend on the order of its files or on malformed scenes, if its
files are told apart by their stems. Each malformed scene fails for itself, with its own error and
in its place. -/
theorem generate_rearranged (config : Config) {p q : Project} (h : Rearranged p q)
    (hp : Unambiguous p) :
    (generate config p).1.outputs.Perm (generate config q).1.outputs ∧
      ∀ run ∈ [p, q], (generate config run).1.failures.map (·.file) = run.malformed ∧
        ∀ failure ∈ (generate config run).1.failures,
          Scene.parse failure.file.text failure.file.path = .error failure.error := by
  refine ⟨?_, fun run _ => failures_eq config run⟩
  have hstems : (p.trees.map (Path.stem ·.path)).Nodup := by
    have hmap := congrArg (List.map Path.stem) (map_path_trees p)
    rw [List.map_map, List.map_map] at hmap
    show (p.trees.map (Path.stem ∘ _)).Nodup
    rw [hmap]
    exact hp.scenes
  have hlookup := EntityIndex.lookup?_build_congr config.markers (trees_perm h.scenes) hstems
    h.declarations hp.files
  have hmarker := (EntityIndex.interfacePrefix_build config.markers p.trees p.declarations).trans
    (EntityIndex.interfacePrefix_build config.markers q.trees q.declarations).symm
  have hfind := RelationGraph.find?_ofIndex_congr config.markers hlookup hmarker
  have houtput : output config p.dir (Model.build config.markers p.trees p.declarations) =
      output config q.dir (Model.build config.markers q.trees q.declarations) :=
    output_congr h.dir hlookup hmarker hfind
  show (((EntityIndex.build _ p.trees _).1.entities.filter _).map _).Perm
    (((EntityIndex.build _ q.trees _).1.entities.filter _).map _)
  rw [houtput]
  exact ((EntityIndex.entities_perm hlookup).filter _).map _

/-- Two scenes and two files in another order, with a malformed scene between them. -/
theorem generate_rearranged_broken_scene :
    let world : SceneFile := ⟨"scenes/World.tscn", "[node name=\"World\"]"⟩
    let player : SceneFile := ⟨"scenes/Player.tscn", "[node name=\"Player\"]"⟩
    let broken : SceneFile := ⟨"scenes/Broken.tscn", "[node name="⟩
    let declared (name file : String) : Declaration :=
      ⟨name, .classType, file, 1, [⟨"ClassDiagram", []⟩], [], none, []⟩
    let p : Project := ⟨"/game", [world, player],
      [declared "Hud" "src/Hud.cs", declared "World" "src/World.cs", declared "Hud" "src/Hud.cs"]⟩
    let q : Project := ⟨"/game", [player, broken, world],
      [declared "World" "src/World.cs", declared "Hud" "src/Hud.cs", declared "Hud" "src/Hud.cs"]⟩
    Rearranged p q ∧ Unambiguous p ∧
      (generate .standard p).1.outputs.Perm (generate .standard q).1.outputs ∧
      (generate .standard q).1.failures.map (·.file) = [broken] := by
  intro world player broken declared p q
  have haccepted : p.accepted = [world, player] ∧ q.accepted = [player, world] ∧
      q.malformed = [broken] := by decide +kernel
  have hsame : Rearranged p q := by
    refine ⟨rfl, ?_, fun file => ?_⟩
    · rw [haccepted.1, haccepted.2.1]
      exact List.Perm.swap player world []
    · by_cases hworld : "src/World.cs" = file
      · subst hworld
        decide +kernel
      · by_cases hhud : "src/Hud.cs" = file <;> simp [p, q, declared, hworld, hhud]
  have hstems : Unambiguous p := ⟨by decide +kernel, by decide +kernel⟩
  obtain ⟨houtputs, hfailures⟩ := generate_rearranged .standard hsame hstems
  refine ⟨hsame, hstems, houtputs, ?_⟩
  rw [(hfailures q (by simp)).1, haccepted.2.2]

end SceneDiagram.Project
