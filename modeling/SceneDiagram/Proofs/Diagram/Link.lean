import SceneDiagram.Project
import SceneDiagram.Proofs.Entity.Fragment

/-!
# Where the members of an entity are linked to

All members of an entity are linked to one file, while they come from every fragment that was joined
into its declaration. The link leads to the file of a fragment, except where the scene of the entity
runs a script from another file, or where another file of the same stem declares something
(`build_links_fragments`).
-/

namespace SceneDiagram

open Text

namespace Entity

variable {e : Entity} {tree : Scene.Tree}

/-! ## The file that an entity leads to -/

theorem origin_of_scene? (h : e.scene? = some tree) : e.origin = .scene tree := by
  unfold scene? at h
  split at h
  next _ heq =>
    cases h
    exact heq
  next => cases h

/-- The script that the scene runs comes first. -/
theorem linkTarget_of_script {script : String} (hscene : e.scene? = some tree)
    (hscript : tree.script = some script) : e.linkTarget.1 = script := by
  rw [linkTarget, script?, origin_of_scene? hscene]
  simp only [hscript, Option.some_or]

/-- Without such a script the members of a scene are looked for where its declaration starts. -/
theorem linkTarget_of_declaration {d : Declaration} (hscene : e.scene? = some tree)
    (hscript : tree.script = none) (hd : e.declaration = some d) : e.linkTarget.1 = d.file := by
  rw [linkTarget, script?, origin_of_scene? hscene]
  simp only [hscript, hd, Option.map_some, Option.none_or]

theorem linkTarget_of_file {path : String} (h : e.origin = .file path) : e.linkTarget.1 = path := by
  rw [linkTarget, script?, h]

end Entity

namespace EntityIndex

variable {markers : Markers} {trees : List Scene.Tree} {ds : List Declaration} {e : Entity}

/-- What the link of an entity leads to, seen from a fragment of its declaration. -/
inductive Links (ctx : DiagramContext) (ds : List Declaration) (e : Entity) (f : Declaration) : Prop
  /-- The file of the fragment. -/
  | fragment (hlink : ctx.ownLink e = ctx.linker.link f.file)
  /-- A script that the scene runs and that is another file. -/
  | script {tree : Scene.Tree} {script : String} (hscene : e.scene? = some tree)
      (hscript : tree.script = some script) (hother : script ≠ f.file)
      (hlink : ctx.ownLink e = ctx.linker.link script)
  /-- Another file of the same stem, for an entity whose scene, if any, runs no script. -/
  | sibling {g : Declaration} (hscript : ∀ tree, e.scene? = some tree → tree.script = none)
      (hg : g ∈ ds) (hstem : Path.stem g.file = e.name) (hother : g.file ≠ f.file)
      (hlink : ctx.ownLink e = ctx.linker.link g.file)

/-- An entity whose scene runs no script leads to a file of its stem that declares something. -/
theorem exists_linkTarget (he : e ∈ (build markers trees ds).1.entities) {d : Declaration}
    (hd : e.declaration = some d) (hscript : ∀ tree, e.scene? = some tree → tree.script = none) :
    ∃ g ∈ ds, Path.stem g.file = e.name ∧ e.linkTarget.1 = g.file := by
  have h := assembled_of_mem he
  obtain ⟨tree, -, horigin⟩ | ⟨file, rest, hfiles, horigin⟩ := h.origin
  · have hscene : e.scene? = some tree := by rw [Entity.scene?, horigin]
    have htarget := Entity.linkTarget_of_declaration hscene (hscript tree hscene) hd
    obtain ⟨first, rest, hown, -, hfile⟩ := Declaration.joined?_eq_some (h.declaration ▸ hd)
    obtain ⟨hfirst, hstem, -⟩ := mem_ownFragmentsOf (hown ▸ List.mem_cons_self)
    exact ⟨first, hfirst, hstem, htarget.trans hfile⟩
  · obtain ⟨hstem, -, g, hg, hgfile⟩ := mem_filesOf (hfiles ▸ List.mem_cons_self)
    exact ⟨g, hg, hgfile ▸ hstem, (Entity.linkTarget_of_file horigin).trans hgfile.symm⟩

/-- The members of an entity are linked to the file of the fragment that they come from, unless its
scene runs a script from another file or another file of the same stem declares something. -/
theorem build_links_fragments (ctx : DiagramContext) (markers : Markers) (trees : List Scene.Tree)
    (ds : List Declaration) {e : Entity} (he : e ∈ (build markers trees ds).1.entities)
    {d : Declaration} (hd : e.declaration = some d) :
    Declaration.joined? (ownFragmentsOf ds e.name) = some d ∧
      ∀ f ∈ ownFragmentsOf ds e.name,
        f ∈ ds ∧ Path.stem f.file = e.name ∧ Links ctx ds e f := by
  refine ⟨(assembled_of_mem he).declaration ▸ hd, fun f hf => ?_⟩
  obtain ⟨hfds, hfstem, -⟩ := mem_ownFragmentsOf hf
  refine ⟨hfds, hfstem, ?_⟩
  by_cases hscript : ∀ tree, e.scene? = some tree → tree.script = none
  · obtain ⟨g, hg, hstem, htarget⟩ := exists_linkTarget he hd hscript
    have hlink : ctx.ownLink e = ctx.linker.link g.file := congrArg ctx.linker.link htarget
    by_cases hfile : g.file = f.file
    · exact .fragment (hfile ▸ hlink)
    · exact .sibling hscript hg hstem hfile hlink
  · simp only [not_forall, ← ne_eq, Option.ne_none_iff_exists'] at hscript
    obtain ⟨tree, hscene, script, hscript⟩ := hscript
    have hlink : ctx.ownLink e = ctx.linker.link script :=
      congrArg ctx.linker.link (Entity.linkTarget_of_script hscene hscript)
    by_cases hfile : script = f.file
    · exact .fragment (hfile ▸ hlink)
    · exact .script hscene hscript hfile hlink

/-! ## A world with its declaration in another directory -/

namespace World

/-- The scene of the world, with what its root runs. -/
def scene (script : Option String) : Scene.Tree :=
  ⟨"scenes/World.tscn", ⟨"World", some "Node3D", none, script, 3⟩, []⟩

def declaration : Declaration := ⟨"World", .classType, "src/World.cs", 1, [],
  [.property ⟨"Hero", "Hero", 42, [], false⟩], none, []⟩

def world (script : Option String) : Entity := ⟨.scene (scene script), some declaration, none, none⟩

def context (script : Option String) : DiagramContext :=
  let model := Project.Model.build .standard [scene script] [declaration]
  ⟨model.index, model.graph, .standard, ⟨false, false, false⟩, .relative 1⟩

end World

/-- The scene runs no script. -/
theorem build_links_fragments_world :
    World.world none ∈
        (build .standard [World.scene none] [World.declaration]).1.entities ∧
      (World.world none).declaration = some World.declaration ∧
      World.declaration ∈ ownFragmentsOf [World.declaration] (World.world none).name ∧
      (World.context none).ownLink (World.world none) = "../src/World.cs" ∧
      Links (World.context none) [World.declaration] (World.world none) World.declaration := by
  have he : World.world none ∈
      (build .standard [World.scene none] [World.declaration]).1.entities := by decide +kernel
  have hown : World.declaration ∈ ownFragmentsOf [World.declaration] (World.world none).name := by
    decide +kernel
  obtain ⟨-, hlinks⟩ := build_links_fragments (World.context none) .standard [World.scene none]
    [World.declaration] he rfl
  exact ⟨he, rfl, hown, by decide +kernel, (hlinks World.declaration hown).2.2⟩

/-- The scene runs a script of another name: the members are linked to that script. -/
theorem link_to_other_script :
    World.world (some "src/Main.cs") ∈
        (build .standard [World.scene (some "src/Main.cs")] [World.declaration]).1.entities ∧
      (World.world (some "src/Main.cs")).declaration = some World.declaration ∧
      (World.context (some "src/Main.cs")).ownLink (World.world (some "src/Main.cs")) =
        "../src/Main.cs" ∧
      (World.context (some "src/Main.cs")).linker.link World.declaration.file =
        "../src/World.cs" := by
  decide +kernel

/-- Two files of one stem declare the world: the hero of the second is linked to the first. -/
example :
    let first : Declaration := { World.declaration with members := [] }
    let second : Declaration := { World.declaration with file := "mods/World.cs" }
    let e : Entity := ⟨.file "src/World.cs", some World.declaration, none, none⟩
    e ∈ (build .standard [] [first, second]).1.entities ∧
      Declaration.joined? [first, second] = e.declaration ∧ e.linkTarget.1 ≠ second.file := by
  decide

end EntityIndex

end SceneDiagram
