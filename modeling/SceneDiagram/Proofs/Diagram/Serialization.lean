import Mathlib.Data.List.SplitBy
import SceneDiagram.Project
import SceneDiagram.Proofs.Diagram.Outline
import SceneDiagram.Proofs.Diagram.Coverage
import SceneDiagram.Proofs.Text.Mark

/-!
# The text of a diagram

The text of a diagram lists a tree of blocks: classes, and packages around a class, further blocks
and arrows. `BlockOf` says what the block of an entity holds, apart from any drawing. The lines of
the text are just those of the tree, at its depths, as long as no name, path or prefix that gets
into a line breaks it (`diagram_lists_blocks`). The names that are listed are not all that get into
lines: an arrow may start at a member that no facet lists, and break there (`arrow_breaks_line`).
-/

namespace SceneDiagram

open Text

/-- No name of an entity, path, prefix of links, name of an item or name of a type has a line break
in it. -/
structure DiagramContext.OneLine (ctx : DiagramContext) (facets : List Facet) : Prop where
  origin : IsLine ctx.linker.origin
  name : ∀ e ∈ ctx.index.entities, IsLine e.name
  file : ∀ e ∈ ctx.index.entities, IsLine e.file
  linkTarget : ∀ e ∈ ctx.index.entities, IsLine e.linkTarget.1
  declared : ∀ e ∈ ctx.index.entities, ∀ d ∈ e.declaration, IsLine d.name
  typeName : ∀ e ∈ ctx.index.entities, ∀ f ∈ facets, ∀ item ∈ f.items ctx e, IsLine item.typeName
  item : ∀ e ∈ ctx.index.entities, ∀ f ∈ facets, ∀ item ∈ f.items ctx e, ∀ name ∈ item.name,
    IsLine name

/-- No member that contains an entity which can be drawn has a line break in its name. It may be a
member that no facet lists. -/
def DiagramContext.OneLineMembers (ctx : DiagramContext) (facets : List Facet) : Prop :=
  ∀ e ∈ ctx.index.entities, ∀ c, Drawing.Drawable ctx facets e c →
    ∀ name ∈ ctx.graph.member? e.name c.name .child, IsLine name

namespace Drawing

variable {ctx : DiagramContext} {facets : List Facet} {e c r : Entity} {es : List Entity}
  {enclosing drawn last : List String} {blocks nested : List Block} {os : List Outline}

/-! ## The tree of blocks -/

/-- The part of a class that a facet makes up, if it lists anything: dashes, the heading and the
lines of the items. -/
def sectionOutline (ctx : DiagramContext) (e : Entity) (f : Facet) : List Outline :=
  if f.items ctx e = [] then []
  else .line "--" :: .line f.title :: (f.lines ctx e (f.items ctx e)).map .line

/-- The class of an entity: a link to its file, and the facets in their order. -/
def classOutline (ctx : DiagramContext) (facets : List Facet) (e : Entity) : Outline :=
  .block
    ("class " ++ e.name ++ (if e.linkTarget.2 = .scene then " << (S,black) >>" else "") ++ " \x7b")
    (.line ("[[" ++ ctx.ownLink e ++ " " ++ e.linkTarget.2.render ++ "File]]") ::
      facets.flatMap (sectionOutline ctx e))

/-- The first line of the package of an entity. -/
def packageOpening (ctx : DiagramContext) (e : Entity) : String :=
  "package " ++ e.name ++ "-" ++ (if e.isScene then "Scene" else "Type") ++
    " [[" ++ ctx.linker.link e.file ++ "]] \x7b"

mutual

/-- The block of an entity inside the packages named by `enclosing`. -/
inductive BlockOf (ctx : DiagramContext) (facets : List Facet) :
    Entity → List String → Outline → Prop
  /-- An entity without children is a class. -/
  | single {e : Entity} {enclosing : List String} : children ctx facets e enclosing = [] →
      BlockOf ctx facets e enclosing (classOutline ctx facets e)
  /-- Any other entity is a package: its class, blocks of children, and an arrow to every child. -/
  | package {e : Entity} {enclosing : List String} {nested : List Outline} :
      children ctx facets e enclosing ≠ [] →
      BlocksOf ctx facets (children ctx facets e enclosing) (e.name :: enclosing) nested →
      BlockOf ctx facets e enclosing (.block (packageOpening ctx e)
        (classOutline ctx facets e :: nested ++
          ((children ctx facets e enclosing).map fun c => (arrow ctx facets e enclosing c).text).map
            .line))

/-- Blocks of entities in their order, without those that are drawn elsewhere. -/
inductive BlocksOf (ctx : DiagramContext) (facets : List Facet) :
    List Entity → List String → List Outline → Prop
  | done {enclosing : List String} : BlocksOf ctx facets [] enclosing []
  | skip {e : Entity} {es : List Entity} {enclosing : List String} {os : List Outline} :
      BlocksOf ctx facets es enclosing os → BlocksOf ctx facets (e :: es) enclosing os
  | draw {e : Entity} {es : List Entity} {enclosing : List String} {o : Outline}
      {os : List Outline} : BlockOf ctx facets e enclosing o →
      BlocksOf ctx facets es enclosing os → BlocksOf ctx facets (e :: es) enclosing (o :: os)

end

/-! ## The text of the tree -/

theorem text_classBlock (ctx : DiagramContext) (facets : List Facet) (e : Entity) (depth : Nat) :
    (classBlock ctx facets e).text depth = (classOutline ctx facets e).listing depth := by
  have hsections : ((classBlock ctx facets e).sections.flatMap ClassSection.text).map
      (indented (depth + 1)) =
        Outline.listingAll (facets.flatMap (sectionOutline ctx e)) (depth + 1) := by
    rw [classBlock]
    induction facets with
    | nil => rfl
    | cons f facets ih =>
      rw [List.flatMap_cons, Outline.listingAll_append, ← ih, sectionOutline]
      by_cases hitems : f.items ctx e = []
      · simp [hitems, Outline.listingAll]
      · simp [hitems, Outline.listingAll, Outline.listing, Outline.listingAll_map_line,
          ClassSection.text]
  have hspot : (if (classBlock ctx facets e).sceneOnly then " << (S,black) >>" else "") =
      if e.linkTarget.2 = .scene then " << (S,black) >>" else "" := by
    simp [classBlock]
  rw [ClassBlock.text, List.map_cons, hsections, hspot, classOutline, Outline.listing,
    Outline.listingAll]
  rfl

/-- The block around nested blocks is that of the entity around their outlines. -/
theorem exists_outline_enclose
    (htext : ∀ depth, Block.textAll nested depth = Outline.listingAll os depth)
    (hos : BlocksOf ctx facets (children ctx facets e enclosing) (e.name :: enclosing) os) :
    ∃ o, BlockOf ctx facets e enclosing o ∧
      ∀ depth, (enclose ctx facets e enclosing nested).text depth = o.listing depth := by
  by_cases hchildren : children ctx facets e enclosing = []
  · refine ⟨_, .single hchildren, fun depth => ?_⟩
    rw [enclose, hchildren]
    exact text_classBlock ctx facets e depth
  · refine ⟨_, .package hchildren hos, fun depth => ?_⟩
    have hblock : enclose ctx facets e enclosing nested =
        .package (if e.isScene then "Scene" else "Type") (ctx.linker.link e.file)
          (classBlock ctx facets e) nested
          ((children ctx facets e enclosing).map (arrow ctx facets e enclosing)) := by
      unfold enclose
      split
      · next h => exact absurd h hchildren
      · rfl
    rw [hblock, Block.text, text_classBlock, htext, Outline.listing, Outline.listingAll_append,
      Outline.listingAll_map_line, Outline.listingAll, List.map_map, List.map_map]
    simp [packageOpening, classBlock, Function.comp_def]

/-- What a traversal draws is written as the outlines of the blocks of its entities. -/
theorem Traversal.exists_outlines (h : Traversal ctx facets es enclosing drawn blocks last) :
    ∃ os, BlocksOf ctx facets es enclosing os ∧
      ∀ depth, Block.textAll blocks depth = Outline.listingAll os depth := by
  induction h with
  | done => exact ⟨[], .done, fun _ => rfl⟩
  | skip _ _ ih =>
    obtain ⟨os, hos, htext⟩ := ih
    exact ⟨os, .skip hos, htext⟩
  | draw _ hnested _ ihnested ihrest =>
    obtain ⟨inner, hinner, htextInner⟩ := ihnested
    obtain ⟨os, hos, htext⟩ := ihrest
    obtain ⟨o, ho, htextHead⟩ := exists_outline_enclose htextInner hinner
    refine ⟨o :: os, .draw ho hos, fun depth => ?_⟩
    rw [Block.textAll, Outline.listingAll, htextHead, htext]

/-- The diagram of an entity is written as the outline of its block. -/
theorem exists_outline_diagram (ctx : DiagramContext) (facets : List Facet) (r : Entity) :
    ∃ o, BlockOf ctx facets r [] o ∧
      ∀ depth, (r.diagram ctx facets).text depth = o.listing depth := by
  obtain ⟨last, htrav⟩ := traversal_iff.mpr (rfl : r.diagram ctx facets = _)
  generalize r.diagram ctx facets = b at htrav
  cases htrav with
  | skip hdrawn => exact absurd hdrawn List.not_mem_nil
  | draw _ hnested _ =>
    obtain ⟨inner, hinner, htext⟩ := hnested.exists_outlines
    exact exists_outline_enclose htext hinner

/-! ## Lines without breaks -/

theorem isLine_link (h : IsLine ctx.linker.origin) {path : String} (hpath : IsLine path) :
    IsLine (ctx.linker.link path) := by
  unfold Linker.link
  split
  · decide
  · exact isLine_append.mpr ⟨h, hpath⟩

theorem isLine_ownLink (h : ctx.OneLine facets) (he : e ∈ ctx.index.entities) :
    IsLine (ctx.ownLink e) :=
  isLine_link h.origin (h.linkTarget e he)

theorem isLine_kind (kind : FileKind) : IsLine kind.render := by
  cases kind <;> decide

theorem isLine_title (f : Facet) : IsLine f.title := by
  cases f <;> decide

theorem isLine_fileReference (h : ctx.OneLine facets) (he : e ∈ ctx.index.entities) :
    IsLine (ctx.fileReference e) := by
  have hbrackets : IsLine "[[" ∧ IsLine " " ∧ IsLine "]]" := by decide
  simp only [DiagramContext.fileReference, isLine_append]
  exact ⟨⟨⟨⟨hbrackets.1, isLine_ownLink h he⟩, hbrackets.2.1⟩, isLine_kind _⟩, hbrackets.2.2⟩

variable {f : Facet} {item : FacetItem}

theorem isLine_name (h : ctx.OneLine facets) (he : e ∈ ctx.index.entities) (hf : f ∈ facets)
    (hitem : item ∈ f.items ctx e) : IsLine (item.name.getD "") := by
  cases hname : item.name with
  | none => decide
  | some name => exact h.item e he f hf item hitem name hname

theorem isLine_itemLine (h : ctx.OneLine facets) (he : e ∈ ctx.index.entities) (hf : f ∈ facets)
    (hitem : item ∈ f.items ctx e) {link : String} (hlink : IsLine link) :
    IsLine (ctx.itemLine link item) := by
  have htarget : IsLine (item.target.elim "" fun target => " - " ++ ctx.fileReference target) := by
    cases ht : item.target with
    | none => exact (by decide : IsLine "")
    | some target =>
      exact isLine_append.mpr ⟨by decide, isLine_fileReference h (mem_of_target hitem ht)⟩
  have hmarks : IsLine "[[" ∧ IsLine ":" ∧ IsLine " " ∧ IsLine "]]" := by decide
  simp only [DiagramContext.itemLine, isLine_append, isLine_toString, hmarks, hlink, htarget,
    isLine_name h he hf hitem, and_self]

theorem isLine_methodLine (h : ctx.OneLine facets) (he : e ∈ ctx.index.entities) (hf : f ∈ facets)
    (hitem : item ∈ f.items ctx e) : IsLine (DiagramContext.methodLine (ctx.ownLink e) item) := by
  have hmarks : IsLine "[[" ∧ IsLine ":" ∧ IsLine " " ∧ IsLine "()]]" := by decide
  simp only [DiagramContext.methodLine, isLine_append, isLine_toString, hmarks,
    isLine_ownLink h he, isLine_name h he hf hitem, and_self]

theorem isLine_parameterText (h : ctx.OneLine facets) (he : e ∈ ctx.index.entities)
    (hf : f ∈ facets) (hitem : item ∈ f.items ctx e) {text : String}
    (htext : ctx.parameterText item = some text) : IsLine text := by
  obtain ⟨name, hname, rfl⟩ := Option.map_eq_some_iff.mp htext
  have htype := h.typeName e he f hf item hitem
  have hname := h.item e he f hf item hitem name hname
  have hmarks : IsLine "[[" ∧ IsLine " " ∧ IsLine "]] " := by decide
  cases ht : item.target with
  | none => simp only [isLine_append, htype, hmarks, hname, and_self]
  | some target =>
    have hlink := isLine_ownLink h (mem_of_target hitem ht)
    simp only [isLine_append, hmarks, hlink, htype, hname, and_self]

theorem isLine_constructorLine (h : ctx.OneLine facets) (he : e ∈ ctx.index.entities)
    (hf : f ∈ facets) {items : List FacetItem} (hitems : ∀ item ∈ items, item ∈ f.items ctx e)
    {typeName : String} (htype : IsLine typeName) :
    IsLine (ctx.constructorLine (ctx.ownLink e) typeName items) := by
  cases items with
  | nil => exact (by decide : IsLine "")
  | cons first rest =>
    have hparameters : IsLine (String.intercalate ", "
        ((first :: rest).filterMap ctx.parameterText)) := by
      refine isLine_intercalate (by decide) fun text htext => ?_
      obtain ⟨item, hitem, htext⟩ := List.mem_filterMap.mp htext
      exact isLine_parameterText h he hf (hitems item hitem) htext
    have hmarks : IsLine "[[" ∧ IsLine ":" ∧ IsLine " " ∧ IsLine "]](" ∧ IsLine ")" := by decide
    simp only [DiagramContext.constructorLine, isLine_append, isLine_toString, hmarks,
      isLine_ownLink h he, htype, hparameters, and_self]

/-- The lines that a facet writes for its items. -/
theorem isLine_of_mem_lines (h : ctx.OneLine facets) (he : e ∈ ctx.index.entities)
    (hf : f ∈ facets) : ∀ l ∈ f.lines ctx e (f.items ctx e), IsLine l := by
  have hown := isLine_ownLink h he
  have hdeclared : IsLine ((e.declaration.map (·.name)).getD "") := by
    cases hd : e.declaration with
    | none => exact (by decide : IsLine "")
    | some d => exact h.declared e he d hd
  intro l hl
  cases f with
  | constructors =>
    obtain ⟨items, hitems, rfl⟩ := List.mem_map.mp hl
    refine isLine_constructorLine h he hf (fun item hitem => ?_) hdeclared
    rw [← List.flatten_splitBy (fun a b => a.line == b.line) (Facet.constructors.items ctx e)]
    exact List.mem_flatten_of_mem hitems hitem
  | nodes =>
    obtain ⟨item, hitem, rfl⟩ := List.mem_map.mp hl
    exact isLine_itemLine h he hf hitem (isLine_link h.origin (h.file e he))
  | interfaceMethods | methods =>
    obtain ⟨item, hitem, rfl⟩ := List.mem_map.mp hl
    exact isLine_methodLine h he hf hitem
  | dependencies | provisions | interfaceProperties | properties =>
    obtain ⟨item, hitem, rfl⟩ := List.mem_map.mp hl
    exact isLine_itemLine h he hf hitem hown

theorem isLine_arrowText {a : Arrow} (hparent : IsLine a.parent) (hmember : IsLine a.member)
    (hchild : IsLine a.child) : IsLine a.text := by
  have hcolons : IsLine "::" := by decide
  have hshaft : ∀ long : Bool, IsLine (if long then " ---> " else " --> ") := by decide
  simp only [Arrow.text, isLine_append]
  exact ⟨⟨⟨⟨hparent, hcolons⟩, hmember⟩, hshaft a.long⟩, hchild⟩

theorem isLine_arrow (h : ctx.OneLine facets) (hmembers : ctx.OneLineMembers facets)
    (he : e ∈ ctx.index.entities) (hc : c ∈ children ctx facets e enclosing) :
    IsLine (arrow ctx facets e enclosing c).text := by
  have hname : IsLine c.name := h.name c (mem_of_mem_children hc)
  refine isLine_arrowText (h.name e he) ?_ hname
  show IsLine ((ctx.graph.member? e.name c.name .child).getD c.name)
  cases hmember : ctx.graph.member? e.name c.name .child with
  | none => exact hname
  | some name => exact hmembers e he c ((mem_children_iff he).mp hc).1 name hmember

/-! ## Outlines without breaks -/

theorem oneLine_classOutline (h : ctx.OneLine facets) (he : e ∈ ctx.index.entities) :
    (classOutline ctx facets e).OneLine := by
  have hmarks : IsLine "class " ∧ IsLine " \x7b" ∧ IsLine "[[" ∧ IsLine " " ∧ IsLine "File]]" ∧
      IsLine "--" := by decide
  obtain ⟨hclass, hbrace, hbrackets, hblank, hfile, hdashes⟩ := hmarks
  have hspot : IsLine (if e.linkTarget.2 = .scene then " << (S,black) >>" else "") := by
    cases e.linkTarget.2 <;> decide
  have hlink : IsLine ("[[" ++ ctx.ownLink e ++ " " ++ e.linkTarget.2.render ++ "File]]") := by
    simp only [isLine_append, hbrackets, isLine_ownLink h he, hblank, isLine_kind, hfile, and_self]
  refine Outline.oneLine_block ?_ ?_
  · simp only [isLine_append, hclass, h.name e he, hspot, hbrace, and_self]
  · rw [List.forall_mem_cons]
    refine ⟨Outline.oneLine_line hlink, fun o ho => ?_⟩
    obtain ⟨f, hf, ho⟩ := List.mem_flatMap.mp ho
    unfold sectionOutline at ho
    split at ho
    · exact absurd ho List.not_mem_nil
    · rw [List.mem_cons, List.mem_cons] at ho
      rcases ho with rfl | rfl | ho
      · exact Outline.oneLine_line hdashes
      · exact Outline.oneLine_line (isLine_title f)
      · obtain ⟨l, hl, rfl⟩ := List.mem_map.mp ho
        exact Outline.oneLine_line (isLine_of_mem_lines h he hf l hl)

theorem isLine_packageOpening (h : ctx.OneLine facets) (he : e ∈ ctx.index.entities) :
    IsLine (packageOpening ctx e) := by
  have hmarks : IsLine "package " ∧ IsLine "-" ∧ IsLine " [[" ∧ IsLine "]] \x7b" := by decide
  have hkind : IsLine (if e.isScene then "Scene" else "Type") := by
    cases e.isScene <;> decide
  simp only [packageOpening, isLine_append, hmarks, h.name e he, hkind,
    isLine_link h.origin (h.file e he), and_self]

mutual

theorem BlockOf.oneLine (h : ctx.OneLine facets) (hmembers : ctx.OneLineMembers facets)
    {e : Entity} {enclosing : List String} {o : Outline} (he : e ∈ ctx.index.entities) :
    BlockOf ctx facets e enclosing o → o.OneLine
  | .single _ => oneLine_classOutline h he
  | .package _ hnested => by
    refine Outline.oneLine_block (isLine_packageOpening h he) fun o ho => ?_
    rw [List.cons_append, List.mem_cons, List.mem_append] at ho
    rcases ho with rfl | ho | ho
    · exact oneLine_classOutline h he
    · exact BlocksOf.oneLine h hmembers (fun c hc => mem_of_mem_children hc) hnested o ho
    · obtain ⟨text, htext, rfl⟩ := List.mem_map.mp ho
      obtain ⟨c, hc, rfl⟩ := List.mem_map.mp htext
      exact Outline.oneLine_line (isLine_arrow h hmembers he hc)

theorem BlocksOf.oneLine (h : ctx.OneLine facets) (hmembers : ctx.OneLineMembers facets)
    {es : List Entity} {enclosing : List String} {os : List Outline}
    (hes : ∀ e ∈ es, e ∈ ctx.index.entities) :
    BlocksOf ctx facets es enclosing os → ∀ o ∈ os, o.OneLine
  | .done => fun _ ho => absurd ho List.not_mem_nil
  | .skip hrest => BlocksOf.oneLine h hmembers (fun e he => hes e (List.mem_cons_of_mem _ he)) hrest
  | .draw ho hrest => by
    rw [List.forall_mem_cons]
    exact ⟨BlockOf.oneLine h hmembers (hes _ List.mem_cons_self) ho,
      BlocksOf.oneLine h hmembers (fun e he => hes e (List.mem_cons_of_mem _ he)) hrest⟩

end

/-! ## The text of a diagram -/

/-- The last line of the block of an entity is its brace. -/
theorem BlockOf.exists_lines {o : Outline} (h : BlockOf ctx facets e enclosing o) :
    ∃ lines, lines ≠ [] ∧ o.listing 0 = lines ++ ["\x7d"] := by
  have hblock : ∃ opening inner, o = .block opening inner := by
    cases h with
    | single => exact ⟨_, _, rfl⟩
    | package => exact ⟨_, _, rfl⟩
  obtain ⟨opening, inner, rfl⟩ := hblock
  exact ⟨indented 0 opening :: Outline.listingAll inner 1, List.cons_ne_nil _ _, rfl⟩

/-- The text of a diagram splits at its line breaks into the lines of a tree of blocks, that of the
entity and of what is drawn inside it. Each line has four blanks for every block around it, and
each block is closed by the next brace at its depth. The text ends with the brace of the outermost
block and no blanks: it is what remains if every line is written with a line break and the blanks at
the end are trimmed. -/
theorem diagram_lists_blocks (ctx : DiagramContext) (facets : List Facet)
    (h : ctx.OneLine facets) (hmembers : ctx.OneLineMembers facets) {r : Entity}
    (hr : r ∈ ctx.index.entities) :
    ∃ tree, BlockOf ctx facets r [] tree ∧
      (r.diagram ctx facets).render.toList.splitOn '\n' = (tree.listing 0).map String.toList ∧
      (∀ depth opening inner, (depth, opening, inner) ∈ tree.blocks 0 →
        ∃ before after, tree.listing 0 = before ++ indented depth opening ::
            (Outline.listingAll inner (depth + 1) ++ indented depth "\x7d" :: after) ∧
          indented depth "\x7d" ∉ Outline.listingAll inner (depth + 1)) ∧
      (tree.listing 0).getLast? = some "\x7d" ∧
      trimEnd (r.diagram ctx facets).render = (r.diagram ctx facets).render ∧
      trimEnd (String.join ((tree.listing 0).map (· ++ "\n"))) =
        (r.diagram ctx facets).render := by
  obtain ⟨tree, htree, htext⟩ := exists_outline_diagram ctx facets r
  obtain ⟨lines, hne, hlast⟩ := htree.exists_lines
  have hrender : (r.diagram ctx facets).render = String.intercalate "\n" (tree.listing 0) := by
    rw [Block.render, htext]
  have hbrace : String.intercalate "\n" (tree.listing 0) =
      String.intercalate "\n" lines ++ "\n" ++ String.ofList ['\x7d'] := by
    rw [hlast, String.intercalate_append_of_ne_nil hne (by simp), String.intercalate_singleton]
  have hempty : tree.listing 0 ≠ [] := by simp [hlast]
  refine ⟨tree, htree, ?_, fun _ _ _ => Outline.closed_of_mem_blocks, ?_, ?_, ?_⟩
  · rw [hrender]
    exact splitOn_join hempty (htree.oneLine h hmembers hr 0)
  · rw [hlast, List.getLast?_concat]
  · rw [hrender, hbrace]
    exact trimEnd_append _ (by decide) (by simp)
  · have hwritten : String.join ((tree.listing 0).map (· ++ "\n")) =
        String.intercalate "\n" lines ++ "\n" ++ String.ofList ['\x7d', '\n'] := by
      rw [join_map_newline hempty, hbrace, String.append_assoc]
      rfl
    rw [hwritten, hrender, hbrace]
    exact trimEnd_append _ (by decide) (List.forall_mem_singleton.mpr (by decide))

/-- The game and its map are lines throughout. -/
theorem diagram_lists_blocks_game :
    Cycle.project.OneLine Facet.all ∧ Cycle.project.OneLineMembers Facet.all ∧
      Cycle.game ∈ Cycle.project.index.entities ∧
      ∃ tree, BlockOf Cycle.project Facet.all Cycle.game [] tree ∧
        (Cycle.game.diagram Cycle.project Facet.all).render.toList.splitOn '\n' =
          (tree.listing 0).map String.toList := by
  have hlines : Cycle.project.OneLine Facet.all :=
    { origin := by decide
      name := by decide
      file := by decide
      linkTarget := by decide
      declared := by decide
      typeName := by decide +kernel
      item := by decide +kernel }
  have hmembers : Cycle.project.OneLineMembers Facet.all := by
    intro e _ c _ name hname
    cases hname
  obtain ⟨tree, htree, hsplit, -⟩ :=
    diagram_lists_blocks Cycle.project Facet.all hlines hmembers Cycle.game_mem
  exact ⟨hlines, hmembers, Cycle.game_mem, tree, htree, hsplit⟩

/-! ## A member whose name breaks a line -/

/-- The arrow to a child is one of the lines of the block. -/
theorem BlockOf.arrow_mem_listing {o : Outline} (h : BlockOf ctx facets e enclosing o)
    (hc : c ∈ children ctx facets e enclosing) :
    indented 1 (arrow ctx facets e enclosing c).text ∈ o.listing 0 := by
  cases h with
  | single hnone => exact absurd (hnone ▸ hc) List.not_mem_nil
  | package _ _ =>
    rw [Outline.listing, List.mem_cons, List.mem_append]
    refine .inr (.inl (Outline.mem_listingAll.mpr
      ⟨.line (arrow ctx facets e enclosing c).text, ?_, List.mem_singleton_self _⟩))
    exact List.mem_append_right _ (List.mem_map_of_mem (List.mem_map_of_mem hc))

namespace Override

/-- The first property for the log is an override, which no facet lists. -/
def declarations : List Declaration :=
  [⟨"Service", .classType, "src/Service.cs", 1, [],
      [.property ⟨"Ba\nse", "Log", 2, [], true⟩, .property ⟨"Sink", "Log", 3, [], false⟩], none, []⟩,
    ⟨"Log", .classType, "src/Log.cs", 1, [], [], none, [⟨3, []⟩]⟩]

def model : Project.Model := Project.Model.build .standard [] declarations

def context : DiagramContext :=
  ⟨model.index, model.graph, .standard, ⟨false, false, false⟩, .relative 1⟩

def service : Entity := ⟨.file "src/Service.cs", declarations[0]?, none, none⟩

def log : Entity := ⟨.file "src/Log.cs", declarations[1]?, none, none⟩

theorem entities_model : model.index.entities = [service, log] := by decide +kernel

/-- The log is drawn in the service, for the property that is listed. -/
theorem log_mem_children : log ∈ children context (Facet.registry Facet.all) service [] := by
  have hall : ∀ f ∈ Facet.all, f ∈ Facet.registry Facet.all := fun f hf =>
    List.mem_mergeSort.mpr hf
  have hsink : ⟨some log, "Log", some "Sink", 3⟩ ∈ Facet.properties.items context service :=
    mem_ofDeclaration.mpr ⟨_, rfl, mem_sortByName.mpr (by decide +kernel)⟩
  have hcontent : Facet.constructors.items context log ≠ [] := List.cons_ne_nil _ _
  have hdrawable : Drawable context (Facet.registry Facet.all) service log :=
    ⟨by decide +kernel, .properties, hall _ (by decide), ⟨_, hsink, rfl⟩,
      .inr ⟨rfl, .constructors, hall _ (by decide), hcontent⟩⟩
  exact (mem_children_iff (by simp [context, entities_model])).mpr ⟨hdrawable, List.not_mem_nil⟩

theorem oneLine : context.OneLine (Facet.registry Facet.all) := by
  have hitems : ∀ e ∈ context.index.entities, ∀ f ∈ Facet.all, ∀ item ∈ f.items context e,
      IsLine item.typeName ∧ ∀ name ∈ item.name, IsLine name := by decide +kernel
  exact
    { origin := by decide
      name := by decide +kernel
      file := by decide +kernel
      linkTarget := by decide +kernel
      declared := by decide +kernel
      typeName := fun e he f hf item h => (hitems e he f (List.mem_mergeSort.mp hf) item h).1
      item := fun e he f hf item h => (hitems e he f (List.mem_mergeSort.mp hf) item h).2 }

end Override

/-- Every name that is listed is one line, but the arrow to the log starts at the override and takes
two. So the text splits into other lines than those of a tree of blocks. -/
theorem arrow_breaks_line :
    Override.context.OneLine (Facet.registry Facet.all) ∧
      Override.service ∈ Override.context.index.entities ∧
      ¬ ∃ tree, BlockOf Override.context (Facet.registry Facet.all) Override.service [] tree ∧
        (Override.service.diagram Override.context
            (Facet.registry Facet.all)).render.toList.splitOn '\n' =
          (tree.listing 0).map String.toList := by
  refine ⟨Override.oneLine, by simp [Override.context, Override.entities_model], ?_⟩
  rintro ⟨tree, htree, hsplit⟩
  have harrow := List.mem_map_of_mem (f := String.toList)
    (htree.arrow_mem_listing Override.log_mem_children)
  rw [← hsplit] at harrow
  refine mark_notMem_of_mem_splitOn harrow ?_
  -- The member that the graph names for the log is the override.
  have hmember : (arrow Override.context (Facet.registry Facet.all) Override.service []
      Override.log).member = "Ba\nse" := by decide +kernel
  simp only [indented, Arrow.text, hmember, String.toList_append, List.mem_append]
  decide +kernel

end Drawing

end SceneDiagram
