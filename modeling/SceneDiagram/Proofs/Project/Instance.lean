import Mathlib
import SceneDiagram.Proofs.Diagram.Coverage
import SceneDiagram.Proofs.Project.Rearrangement
import SceneDiagram.Proofs.Scene.Instance

/-!
# From an instance in a scene file to the diagram

A node that is an instance of another scene is linked to that scene by name, through four stages
that do not know of each other: reading gives the node the stem of a file as its type, the index
holds the first scene of a stem under it, the graph and the facets look the type up, and drawing
nests what the facet of the nodes refers to. The name is the same at every stage, so the link is
never lost (`generate_links_instance`).
-/

namespace SceneDiagram

/-- A diagram that is written shows a class. -/
def DiagramOutput.Shows (out : DiagramOutput) (c : ClassBlock) : Prop :=
  ∃ before after depth,
    out.contents = "@startuml\n" ++
      String.intercalate "\n" (before ++ c.text depth ++ after) ++ "\n@enduml\n"

namespace Block

variable {b : Block} {c : ClassBlock}

/-- The lines of a class stand together in the text of every block that shows it. -/
theorem text_of_mem_classes (h : c ∈ b.classes) :
    ∃ before after depth, b.text 0 = before ++ c.text depth ++ after := by
  rw [classes_eq_pieces b 0] at h
  obtain ⟨⟨piece, depth⟩, hmem, hpiece⟩ := List.mem_filterMap.mp h
  cases piece with
  | shown c' =>
    obtain rfl : c' = c := Option.some.inj hpiece
    obtain ⟨before, after, hpieces⟩ := List.append_of_mem hmem
    refine ⟨before.flatMap fun p => p.1.text p.2, after.flatMap fun p => p.1.text p.2, depth, ?_⟩
    rw [text_eq_pieces, hpieces, List.flatMap_append, List.flatMap_cons, List.append_assoc]
    rfl
  | opening | relationship | closing => cases hpiece

end Block

namespace Entity

/-- The scene of an entity has a node of a type, with its header in a line of the scene file. -/
def HasNode (e : Entity) (name typeName : String) (line : Nat) : Prop :=
  ∃ tree, e.scene? = some tree ∧ ∃ node ∈ tree.nodes,
    node.name = name ∧ node.typeName = some typeName ∧ node.line = line

variable {ctx : DiagramContext} {ix : EntityIndex} {facets : List Facet} {ea eb : Entity}
  {name typeName : String} {line : Nat}

/-- The facet of the nodes refers to the entity that has the name of the type. -/
theorem HasNode.mem_items (h : eb.HasNode name typeName line)
    (ha : ctx.index.lookup? typeName = some ea) (hne : ea.name ≠ eb.name) :
    ⟨some ea, typeName, some name, line⟩ ∈ Facet.nodes.items ctx eb := by
  obtain ⟨tree, hscene, node, hnode, rfl, htype, rfl⟩ := h
  exact Drawing.mem_items_nodes.mpr ⟨tree, hscene, node, hnode, _, htype, ea, ha, hne, rfl⟩

/-- A node makes the entity of its type a child. -/
theorem HasNode.contains_child (h : eb.HasNode name typeName line) (markers : Markers)
    (hb : eb ∈ ix.entities) (ha : ix.lookup? typeName = some ea) (hne : ea.name ≠ eb.name) :
    (RelationGraph.ofIndex ix markers).1.contains eb.name ea.name .child = true := by
  obtain ⟨tree, hscene, node, hnode, -, htype, -⟩ := h
  have hnames : eb.NodeNames ix ea := ⟨tree, hscene, node, hnode, typeName, htype, ha⟩
  exact (RelationGraph.contains_ofIndex_iff hb (EntityIndex.mem_of_lookup? ha).1 .child).mpr
    (exists_child_occurrence_iff.mpr ⟨hne, .inl hnames⟩)

/-- A node has the entity of its type drawn, though it may have nothing to show. -/
theorem HasNode.mem_classes (h : eb.HasNode name typeName line) (hnodes : Facet.nodes ∈ facets)
    (hb : eb ∈ ctx.index.entities) (ha : ctx.index.lookup? typeName = some ea)
    (hne : ea.name ≠ eb.name) :
    Drawing.classBlock ctx facets ea ∈ (eb.diagram ctx facets).classes := by
  have hdrawable : Drawing.Drawable ctx facets eb ea :=
    ⟨fun heq => hne (congrArg Entity.name heq), .nodes, hnodes,
      ⟨_, h.mem_items ha hne, rfl⟩, .inl rfl⟩
  obtain ⟨xs, hclasses, -, hxs⟩ := Drawing.exists_drawn facets hb
  rw [hclasses]
  exact List.mem_map_of_mem ((hxs ea).mpr (.single hdrawable))

end Entity

namespace Project

open Text

/-- A scene file is the first one of its stem that can be read. -/
def IsFirst (p : Project) (file : SceneFile) : Prop :=
  p.accepted.find? (Path.stem ·.path == Path.stem file.path) = some file

/-- An entity of a model is the one of a scene file: it is found under the stem of the file, and has
what was read from the file as its scene. -/
structure Represents (model : Model) (file : SceneFile) (e : Entity) : Prop where
  found : model.index.lookup? (Path.stem file.path) = some e
  read : ∃ reading, readScene file = .ok reading ∧ e.scene? = some reading.tree

/-- What the diagram of an entity is drawn from. -/
def drawnFrom (config : Config) (dir : String) (model : Model) (e : Entity) : DiagramContext :=
  let options := config.diagram.options e.request
  let linker :=
    if options.absoluteLinks then Linker.ofScheme config.diagram.linkScheme dir
    else .relative (e.outputPath.toList.count '/')
  ⟨model.index, model.graph, config.markers, options, linker⟩

theorem contents_output (config : Config) (dir : String) (model : Model) (e : Entity) :
    (output config dir model e).contents =
      (e.diagram (drawnFrom config dir model e) (Facet.registry Facet.all)).document :=
  rfl

variable {p : Project} {file a b : SceneFile} {model : Model} {e ea eb : Entity} {config : Config}

/-! ## The entity of a scene file -/

theorem Represents.mem (h : Represents model file e) : e ∈ model.index.entities :=
  (EntityIndex.mem_of_lookup? h.found).1

theorem Represents.name_eq (h : Represents model file e) : e.name = Path.stem file.path :=
  (EntityIndex.mem_of_lookup? h.found).2

/-- The file of the entity is the scene file, though a script may be declared elsewhere. -/
theorem Represents.file_eq (h : Represents model file e) : e.file = file.path := by
  obtain ⟨reading, hread, hscene⟩ := h.read
  rw [← path_readScene hread]
  unfold Entity.scene? at hscene
  unfold Entity.file
  split at hscene
  · next tree horigin => rw [Option.some.inj hscene]
  · cases hscene

/-- Declarations leave an entity the scene that it was found as. -/
theorem exists_foldl_absorbFile (markers : Markers) (files : List (String × List Declaration))
    (e : Entity) : ∃ e', files.foldl (EntityTables.absorbFile markers) (some e) = some e' ∧
      e'.origin = e.origin := by
  induction files generalizing e with
  | nil => exact ⟨e, rfl, rfl⟩
  | cons file files ih => exact ih (e.absorb markers file.2)

/-- What was read from the first scene file of a stem is the first scene of that name. -/
theorem IsFirst.exists_tree (h : IsFirst p file) : ∃ reading, readScene file = .ok reading ∧
    p.trees.find? (Path.stem ·.path == Path.stem file.path) = some reading.tree := by
  have haccepted : ∀ f ∈ p.accepted, ∃ reading, readScene f = .ok reading := by
    intro f hf
    have hok := (List.mem_filter.mp hf).2
    cases hread : readScene f with
    | ok reading => exact ⟨reading, rfl⟩
    | error e => simp [hread, Except.isOk, Except.toBool] at hok
  obtain ⟨reading, hread⟩ := haccepted file (List.mem_of_find?_eq_some h)
  have hstem : p.accepted.find? (fun f => ((readScene f).toOption.map (·.tree)).any
      (Path.stem ·.path == Path.stem file.path)) = some file := by
    rw [← h]
    refine List.find?_congr fun f hf => ?_
    obtain ⟨reading, hread⟩ := haccepted f hf
    simp [hread, Except.toOption, path_readScene hread]
  refine ⟨reading, hread, ?_⟩
  rw [trees_eq_accepted, List.find?_filterMap, hstem]
  simp [hread, Except.toOption]

/-- The first scene file of a stem has an entity, whatever is declared. -/
theorem IsFirst.exists_represents (h : IsFirst p file) (markers : Markers) :
    ∃ e, Represents (Model.build markers p.trees p.declarations) file e := by
  obtain ⟨reading, hread, htree⟩ := h.exists_tree
  have hlookup := EntityIndex.lookup?_build markers p.trees p.declarations (Path.stem file.path)
  rw [htree, Option.map_some] at hlookup
  obtain ⟨e, he, horigin⟩ := exists_foldl_absorbFile markers
    ((EntityTables.byFile p.declarations).filter (Path.stem ·.1 == Path.stem file.path))
    (.ofScene reading.tree)
  refine ⟨e, hlookup.trans he, reading, hread, ?_⟩
  rw [Entity.scene?, horigin]
  rfl

/-! ## The link -/

variable {ss : List Section} {s : Section} {name id : String}

theorem Represents.hasNode (h : Represents model b eb) (hss : Scene.sections b.text = .ok ss)
    (hs : s ∈ ss) (hinstance : s.Instances name id)
    (hlast : Scene.DeclaresLast ss id ("res://" ++ a.path)) :
    eb.HasNode name (Path.stem a.path) (Scene.lineIn b.text s.headerSpan) := by
  obtain ⟨reading, hread, hscene⟩ := h.read
  rw [readScene, Scene.parse, hss] at hread
  replace hread : Scene.ofSections b.text b.path ss = .ok reading := hread
  rcases Scene.ofSections_cases b.text b.path ss with ⟨reading', hok, -, hportrays⟩ | ⟨e, herror, -⟩
  · obtain rfl : reading' = reading := Except.ok.inj (hok.symm.trans hread)
    exact ⟨_, hscene, hportrays.exists_instance hs hinstance hlast⟩
  · cases herror.symm.trans hread

/-- A node that is an instance of another scene links the two scenes from end to end: if each is the
first scene file of its stem, the entity of the other scene is a child in the graph, the facet of
the nodes lists the node with a reference to it at the line of the node, and its class is drawn
wherever the diagram of the scene is asked for. -/
theorem generate_links_instance (config : Config) (ha : IsFirst p a) (hb : IsFirst p b)
    (hne : Path.stem a.path ≠ Path.stem b.path) (hss : Scene.sections b.text = .ok ss)
    (hs : s ∈ ss) (hinstance : s.Instances name id)
    (hlast : Scene.DeclaresLast ss id ("res://" ++ a.path)) :
    let model := Model.build config.markers p.trees p.declarations
    let line := Scene.lineIn b.text s.headerSpan
    ∃ ea eb, Represents model a ea ∧ Represents model b eb ∧
      model.graph.contains eb.name ea.name .child = true ∧
      (∀ options linker,
        let ctx : DiagramContext := ⟨model.index, model.graph, config.markers, options, linker⟩
        let item : FacetItem := ⟨some ea, Path.stem a.path, some name, line⟩
        item ∈ Facet.nodes.items ctx eb ∧
          ctx.itemLine (linker.link b.path) item ∈
            Facet.nodes.lines ctx eb (Facet.nodes.items ctx eb)) ∧
      (isRequested config eb = true → ∃ out ∈ (generate config p).1.outputs,
        out.entity = eb.name ∧ out.path = eb.outputPath ∧
          out.Shows (Drawing.classBlock (drawnFrom config p.dir model eb)
            (Facet.registry Facet.all) ea)) := by
  intro model line
  obtain ⟨ea, hea⟩ := ha.exists_represents config.markers
  obtain ⟨eb, heb⟩ := hb.exists_represents config.markers
  have hnode : eb.HasNode name (Path.stem a.path) line := heb.hasNode hss hs hinstance hlast
  have hother : ea.name ≠ eb.name := by rwa [hea.name_eq, heb.name_eq]
  refine ⟨ea, eb, hea, heb, hnode.contains_child config.markers heb.mem hea.found hother, ?_, ?_⟩
  · intro options linker ctx item
    have hitem : item ∈ Facet.nodes.items ctx eb := hnode.mem_items hea.found hother
    refine ⟨hitem, ?_⟩
    rw [Facet.lines, heb.file_eq]
    exact List.mem_map_of_mem hitem
  · intro hrequested
    have hout : output config p.dir model eb ∈ (generate config p).1.outputs :=
      List.mem_map_of_mem (List.mem_filter.mpr ⟨heb.mem, hrequested⟩)
    have hnodes : Facet.nodes ∈ Facet.registry Facet.all := List.mem_mergeSort.mpr (by decide)
    have hshown : Drawing.classBlock (drawnFrom config p.dir model eb) (Facet.registry Facet.all)
        ea ∈ (eb.diagram (drawnFrom config p.dir model eb) (Facet.registry Facet.all)).classes :=
      hnode.mem_classes hnodes heb.mem hea.found hother
    obtain ⟨before, after, depth, htext⟩ := Block.text_of_mem_classes hshown
    refine ⟨_, hout, rfl, rfl, before, after, depth, ?_⟩
    rw [contents_output, Block.document, Block.render, htext]

/-- A world has a player that is an instance of the scene of the hero. The identifier is declared as
a number and referred to as a string. -/
theorem generate_links_instance_player :
    let hero : SceneFile := ⟨"scenes/Hero.tscn", "[node name=\"Hero\"]"⟩
    let world : SceneFile := ⟨"scenes/World.tscn",
      "[ext_resource path=\"res://scenes/Hero.tscn\" id=1]\n[node name=\"World\"]\n" ++
        "[node name=\"Player\" parent=\".\" instance=ExtResource(\"1\")]"⟩
    let config : Config := ⟨DiagramSettings.standard.withIncluded "World", .standard⟩
    let p : Project := ⟨"/game", [hero, world], []⟩
    let model := Model.build config.markers p.trees p.declarations
    IsFirst p hero ∧ IsFirst p world ∧
      ∃ ea eb, Represents model hero ea ∧ Represents model world eb ∧
      model.graph.contains eb.name ea.name .child = true ∧
      ∃ out ∈ (generate config p).1.outputs, out.entity = "World" ∧
        out.Shows (Drawing.classBlock (drawnFrom config p.dir model eb)
          (Facet.registry Facet.all) ea) := by
  intro hero world config p model
  let resource : Section :=
    ⟨⟨"ext_resource", ⟨1, 13⟩⟩,
      [⟨⟨"path", ⟨14, 18⟩⟩, .string ⟨19, 43⟩ "res://scenes/Hero.tscn"⟩,
        ⟨⟨"id", ⟨44, 46⟩⟩, .number ⟨47, 48⟩ "1"⟩], [], ⟨0, 49⟩⟩
  let root : Section :=
    ⟨⟨"node", ⟨51, 55⟩⟩, [⟨⟨"name", ⟨56, 60⟩⟩, .string ⟨61, 68⟩ "World"⟩], [], ⟨50, 69⟩⟩
  let player : Section :=
    ⟨⟨"node", ⟨71, 75⟩⟩,
      [⟨⟨"name", ⟨76, 80⟩⟩, .string ⟨81, 89⟩ "Player"⟩,
        ⟨⟨"parent", ⟨90, 96⟩⟩, .string ⟨97, 100⟩ "."⟩,
        ⟨⟨"instance", ⟨101, 109⟩⟩,
          .call ⟨110, 126⟩ "ExtResource" none [.string ⟨122, 125⟩ "1"]⟩], [], ⟨70, 127⟩⟩
  have hss : Scene.sections world.text = .ok [resource, root, player] := by cbv
  have hfirst : IsFirst p hero ∧ IsFirst p world := by
    have hheroRead : (readScene hero).isOk = true := by decide +kernel
    have hworldRead : (readScene world).isOk = true := by
      rw [readScene, Scene.parse, hss]
      decide +kernel
    have haccepted : p.accepted = [hero, world] := by simp [accepted, p, hheroRead, hworldRead]
    rw [IsFirst, IsFirst, haccepted]
    decide +kernel
  have hinstance : player.Instances "Player" "1" :=
    ⟨rfl, by decide, ⟨".", by decide⟩, by decide, _, rfl, rfl⟩
  have htags : ∀ d ∈ [root, player], d.tag.text ≠ "ext_resource" := by decide
  have hlast : Scene.DeclaresLast [resource, root, player] "1" ("res://" ++ hero.path) :=
    ⟨[], resource, [root, player], rfl, ⟨rfl, by decide, by decide⟩, fun d hd _ hdeclares =>
      htags d hd hdeclares.tag⟩
  obtain ⟨ea, eb, hea, heb, hchild, -, hdrawn⟩ := generate_links_instance config hfirst.1 hfirst.2
    (by decide +kernel) hss (List.mem_of_mem_getLast? rfl) hinstance hlast
  have hname : eb.name = "World" := heb.name_eq.trans (by decide +kernel)
  obtain ⟨out, hout, hentity, -, hshows⟩ := hdrawn (by
    rw [isRequested, hname]
    simp [config, DiagramSettings.includes, DiagramSettings.withIncluded])
  exact ⟨hfirst.1, hfirst.2, ea, eb, hea, heb, hchild, out, hout, hentity.trans hname, hshows⟩

end Project

end SceneDiagram
