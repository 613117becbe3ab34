import Mathlib.Data.List.Forall2
import Mathlib.Data.List.Induction
import SceneDiagram.Proofs.Scene.Meaning

/-!
# Which sections make up a scene

Sections make up a scene if exactly one of the named nodes could be the root and every resource that
a named node refers to is declared (`WellFormed`). Elaboration accepts these sections and no others,
builds a tree whose nodes are the ones that the sections depict, and otherwise tells everything that
is wrong, in the order of the file (`ofSections_elaborates`).

A draft is what has been built from the sections seen so far. One more section keeps it so
(`Draft.Tells.add`), and therefore the draft of all sections tells all of them
(`Draft.tells_foldl`).
-/

namespace SceneDiagram.Scene

open Text

/-! ## Scenes that are well formed -/

/-- The sections that describe the nodes of a scene. -/
def nodeSections (ss : List Section) : List Section := ss.filter (·.isNamedNode)

/-- Sections that make up a scene: one node could be the root, and all resources are declared. -/
structure WellFormed (ss : List Section) : Prop where
  root : ∃ s, (nodeSections ss).filter (·.isRootCandidate) = [s]
  declared : ∀ s ∈ nodeSections ss, ∀ id ∈ s.references,
    ∃ d ∈ ss, ∃ path, d.declaration? = some (id, path)

/-- A node is the one that a section describes, where `line` gives the line of a header. It is of
the type that the section names, or else of the one that the file stem of the instanced scene
gives. -/
structure Depicts (line : Span → Nat) (ss : List Section) (s : Section) (node : Node) : Prop where
  name : s.stringAttribute? "name" = some node.name
  parent : s.stringAttribute? "parent" = node.parent
  typeName : (s.stringAttribute? "type").or
    ((s.instanceId?.bind (pathOf? ss)).map Path.stem) = node.typeName
  script : s.scriptId?.bind (pathOf? ss) = node.script
  line : line s.headerSpan = node.line

/-- A tree is the one that sections portray: its root is the only node that could be one, and its
nodes are all others in the order of the file. -/
structure Portrays (line : Span → Nat) (path : String) (ss : List Section) (tree : Tree) :
    Prop where
  path : tree.path = path
  root : ∃ s, (nodeSections ss).filter (·.isRootCandidate) = [s] ∧ Depicts line ss s tree.root
  nodes : List.Forall₂ (Depicts line ss) ((nodeSections ss).filter (! ·.isRootCandidate)) tree.nodes

/-- The line in which a span of a source starts. -/
def lineIn (source : String) (a : Span) : Nat := (a.location source).line

/-- The complaints about node sections in the order of the file, where `rooted` tells whether a root
stands before them: a warning for a section without a name, an error for each resource that is not
declared, and one for each root after the first. -/
def nodeComplaints (ss : List Section) (rooted : Bool) : List Section → List (Option Code)
  | [] => []
  | s :: rest =>
    if s.isNamedNode then
      (undeclared ss s).map (fun _ => some .unknownResource) ++
        (if s.isRootCandidate && rooted then [some .duplicateRoot] else []) ++
        nodeComplaints ss (rooted || s.isRootCandidate) rest
    else if s.tag.text = "node" then none :: nodeComplaints ss rooted rest
    else nodeComplaints ss rooted rest

/-- The complaints about sections that say something about a scene: warnings for the resources that
declare nothing, the complaints about the nodes, and an error if there is no root. -/
def complaints (ss : List Section) : List (Option Code) :=
  ((ss.filter fun s => s.tag.text == "ext_resource" && s.declaration?.isNone).map fun _ => none) ++
    nodeComplaints ss false ss ++
    if (nodeSections ss).any (·.isRootCandidate) then [] else [some .missingRoot]

section

variable {source path : String} {line : Span → Nat} {ss l l' : List Section} {s : Section}
  {rooted : Bool} {d : Draft} {p : PlacedNode}

theorem nodeComplaints_append : nodeComplaints ss rooted (l ++ l') =
    nodeComplaints ss rooted l ++
      nodeComplaints ss (rooted || (nodeSections l).any (·.isRootCandidate)) l' := by
  induction l generalizing rooted with
  | nil => simp [nodeComplaints, nodeSections]
  | cons s l ih =>
    rw [List.cons_append, nodeComplaints, nodeComplaints]
    split
    · next hs => simp [ih, nodeSections, hs, Bool.or_assoc]
    · next hs => split <;> simp [ih, nodeSections, hs]

/-- Nothing is wrong with the nodes if all their resources are declared and there is one root at
most. -/
theorem nodeComplaints_eq_none_iff : (∀ c ∈ nodeComplaints ss rooted l, c = none) ↔
    (∀ s ∈ nodeSections l, undeclared ss s = []) ∧
      ((nodeSections l).filter (·.isRootCandidate)).length + rooted.toNat ≤ 1 := by
  induction l generalizing rooted with
  | nil => simp [nodeComplaints, nodeSections, Bool.toNat_le]
  | cons s l ih =>
    by_cases hs : s.isNamedNode = true
    · have hrest : nodeSections (s :: l) = s :: nodeSections l := List.filter_cons_of_pos hs
      have hnone : (∀ c ∈ (undeclared ss s).map (fun _ => some Code.unknownResource), c = none) ↔
          undeclared ss s = [] := by
        cases undeclared ss s <;> simp
      rw [nodeComplaints, if_pos hs, List.forall_mem_append, List.forall_mem_append, hnone, ih,
        hrest, List.forall_mem_cons]
      cases hroot : s.isRootCandidate with
      | false => simp [hroot, and_assoc]
      | true => cases rooted <;> simp [hroot, and_assoc]
    · have hrest : nodeSections (s :: l) = nodeSections l := List.filter_cons_of_neg hs
      rw [nodeComplaints, if_neg hs, hrest, ← ih]
      split <;> simp

theorem wellFormed_iff : WellFormed ss ↔ ∀ c ∈ complaints ss, c = none := by
  have hresources : ∀ c ∈ (ss.filter fun s =>
      s.tag.text == "ext_resource" && s.declaration?.isNone).map fun _ => (none : Option Code),
      c = none := by simp
  have hroot : (∀ c ∈ if (nodeSections ss).any (·.isRootCandidate) then []
      else [some Code.missingRoot], c = none) ↔
      0 < ((nodeSections ss).filter (·.isRootCandidate)).length := by
    rw [List.length_filter_pos_iff, ← List.any_eq_true]
    split <;> simp [*]
  rw [complaints, List.forall_mem_append, List.forall_mem_append, hroot, nodeComplaints_eq_none_iff]
  constructor
  · rintro ⟨⟨s, hs⟩, hdeclared⟩
    refine ⟨⟨hresources, fun s hs => undeclared_eq_nil_iff.mpr (hdeclared s hs), ?_⟩, ?_⟩ <;>
      simp [hs]
  · rintro ⟨⟨-, hdeclared, hle⟩, hpos⟩
    refine ⟨List.length_eq_one_iff.mp ?_, fun s hs => undeclared_eq_nil_iff.mp (hdeclared s hs)⟩
    simp only [Bool.toNat_false] at hle
    omega

/-! ## Drafts -/

theorem Finding.isError_eq_isSome_code (f : Finding) : f.isError = f.diagnostic.code.isSome := by
  cases f <;> rfl

namespace PlacedNode

theorem path?_instanced :
    (instanced source (Resources.ofSections ss) s).path? = s.instanceId?.bind (pathOf? ss) := by
  rw [instanced, Section.instanceId?]
  cases s.stringAttribute? "type" with
  | some _ => rfl
  | none => exact Reference.path?_ofValue? source ss _

/-- A section with a name describes the node that is made of it. -/
theorem depicts_of_ofSection? (h : ofSection? source (Resources.ofSections ss) s = some p) :
    Depicts (lineIn source) ss s p.node := by
  obtain ⟨name, hname, rfl⟩ := Option.map_eq_some_iff.mp h
  have hscript : (scripted source (Resources.ofSections ss) s).path? =
      s.scriptId?.bind (pathOf? ss) := Reference.path?_ofValue? source ss _
  exact ⟨hname, rfl, by rw [path?_instanced], hscript.symm, rfl⟩

/-- A section with a name is complained about for the resources that are not declared. -/
theorem codes_findings (source : String) (ss : List Section)
    (h : (s.stringAttribute? "name").isSome) :
    Finding.codes (findings source (Resources.ofSections ss) s) =
      (undeclared ss s).map fun _ => some .unknownResource := by
  obtain ⟨name, hname⟩ := Option.isSome_iff_exists.mp h
  have hscripted := Reference.codes_ofValue? source ss (s.property? "script")
  have hinstanced := Reference.codes_ofValue? source ss (s.attribute? "instance")
  rw [findings, hname]
  simp only [Finding.codes_append, List.map_append, undeclared, Section.references,
    List.filter_append, instanced, scripted, Section.instanceId?, Section.scriptId?, hscripted]
  cases s.stringAttribute? "type" with
  | some _ => rfl
  | none => simp only [hinstanced]

end PlacedNode

namespace Draft

/-- What a draft tells of the sections seen so far: the first root, the other nodes, and the
complaints about them. -/
structure Tells (source : String) (ss seen : List Section) (d : Draft) : Prop where
  root : Option.Rel (fun s p => Depicts (lineIn source) ss s p.node)
    ((nodeSections seen).find? (·.isRootCandidate)) d.root
  nodes : List.Forall₂ (Depicts (lineIn source) ss)
    ((nodeSections seen).filter (! ·.isRootCandidate)) d.nodes
  codes : Finding.codes d.findings = nodeComplaints ss false seen

/-- A section that describes no node leaves a draft as it is, apart from a warning. -/
theorem Tells.add_nameless (h : Tells source ss l d) (hs : s.tag.text = "node")
    (hname : s.stringAttribute? "name" = none) :
    Tells source ss (l ++ [s]) (d.add source (Resources.ofSections ss) s) := by
  have hnode : s.isNamedNode = false := by simp [Section.isNamedNode, hname]
  have hsections : nodeSections (l ++ [s]) = nodeSections l := by
    simp [nodeSections, List.filter_append, hnode]
  have hadd : d.add source (Resources.ofSections ss) s =
      { d with findings := d.findings ++ [.unnamedNode s.headerSpan] } := by
    simp [add, PlacedNode.ofSection?, PlacedNode.findings, hname]
  rw [hadd]
  refine ⟨hsections ▸ h.root, hsections ▸ h.nodes, ?_⟩
  simp [nodeComplaints_append, nodeComplaints, hnode, hs, h.codes, Finding.diagnostic]

/-- A section that describes a node adds it to a draft, as the root if it is the first that could be
one. -/
theorem Tells.add_named (h : Tells source ss l d) (hs : s.tag.text = "node")
    (hp : PlacedNode.ofSection? source (Resources.ofSections ss) s = some p) :
    Tells source ss (l ++ [s]) (d.add source (Resources.ofSections ss) s) := by
  have hdepicts := PlacedNode.depicts_of_ofSection? hp
  have hnode : s.isNamedNode = true := by simp [Section.isNamedNode, hs, hdepicts.name]
  have hsections : nodeSections (l ++ [s]) = nodeSections l ++ [s] := by
    simp [nodeSections, List.filter_append, hnode]
  have hisRoot : p.node.isRoot = s.isRootCandidate := by
    rw [Node.isRoot, Section.isRootCandidate, hdepicts.parent]
  have hcodes := PlacedNode.codes_findings source ss (s := s) (by simp [hdepicts.name])
  have hcomplaints : nodeComplaints ss false (l ++ [s]) = nodeComplaints ss false l ++
      ((undeclared ss s).map (fun _ => some .unknownResource) ++
        if s.isRootCandidate && (nodeSections l).any (·.isRootCandidate) then
          [some .duplicateRoot] else []) := by
    simp [nodeComplaints_append, nodeComplaints, hnode]
  have hroot := h.root
  simp only [Draft.add, hp, hisRoot]
  cases hcandidate : s.isRootCandidate with
  | false =>
    refine ⟨?_, ?_, ?_⟩
    · simpa [hsections, hcandidate] using hroot
    · rw [hsections, List.filter_append, List.filter_cons_of_pos (by simp [hcandidate])]
      exact List.rel_append h.nodes (.cons hdepicts .nil)
    · simp [hcomplaints, hcandidate, h.codes, hcodes]
  | true =>
    have hnodes : (nodeSections (l ++ [s])).filter (! ·.isRootCandidate) =
        (nodeSections l).filter (! ·.isRootCandidate) := by
      simp [hsections, hcandidate]
    have hany : ((nodeSections l).find? (·.isRootCandidate)).isSome =
        (nodeSections l).any (·.isRootCandidate) := List.isSome_find?
    cases hfirst : (nodeSections l).find? (·.isRootCandidate) with
    | none =>
      rw [hfirst] at hroot hany
      generalize hd : d.root = root at hroot
      cases hroot
      refine ⟨?_, hnodes ▸ h.nodes, ?_⟩
      · rw [hsections, List.find?_append, hfirst, List.find?_singleton, if_pos hcandidate]
        exact .some hdepicts
      · rw [hcomplaints, ← hany]
        simp [h.codes, hcodes]
    | some s₀ =>
      rw [hfirst] at hroot hany
      generalize hd : d.root = root at hroot
      cases hroot with
      | some hfirst' =>
        refine ⟨?_, hnodes ▸ h.nodes, ?_⟩
        · rw [hsections, List.find?_append, hfirst]
          exact .some hfirst'
        · rw [hcomplaints, ← hany]
          simp [hcandidate, h.codes, hcodes, Finding.diagnostic]

/-- One more node section is told of as well. -/
theorem Tells.add (h : Tells source ss l d) (hs : s.tag.text = "node") :
    Tells source ss (l ++ [s]) (d.add source (Resources.ofSections ss) s) := by
  cases hp : PlacedNode.ofSection? source (Resources.ofSections ss) s with
  | none => exact h.add_nameless hs (Option.map_eq_none_iff.mp hp)
  | some p => exact h.add_named hs hp

/-- The draft that node sections build from the start tells all of them. The induction takes the
last section off; what counts as declared stays what all sections declare. -/
theorem tells_foldl (source : String) (ss l : List Section) :
    Tells source ss l
      ((l.filter (·.tag.text == "node")).foldl (add source (Resources.ofSections ss))
        ⟨none, [], []⟩) := by
  induction l using List.reverseRecOn with
  | nil => exact ⟨.none, .nil, rfl⟩
  | append_singleton l s ih =>
    by_cases hs : s.tag.text = "node"
    · rw [List.filter_append, List.filter_cons_of_pos (by simp [hs]), List.foldl_append]
      exact ih.add hs
    · have hnode : s.isNamedNode = false := by simp [Section.isNamedNode, hs]
      have hsections : nodeSections (l ++ [s]) = nodeSections l := by
        simp [nodeSections, List.filter_append, hnode]
      rw [List.filter_append, List.filter_cons_of_neg (by simp [hs]), List.filter_nil,
        List.append_nil]
      refine ⟨hsections ▸ ih.root, hsections ▸ ih.nodes, ?_⟩
      rw [ih.codes, nodeComplaints_append]
      simp [nodeComplaints, hnode, hs]

end Draft

/-! ## Elaboration -/

theorem Depicts.unique {node node' : Node} (h : Depicts line ss s node)
    (h' : Depicts line ss s node') : node = node' := by
  obtain ⟨name, typeName, parent, script, line⟩ := node
  obtain ⟨name', typeName', parent', script', line'⟩ := node'
  obtain rfl : name = name' := Option.some.inj (h.name.symm.trans h'.name)
  obtain rfl : parent = parent' := h.parent.symm.trans h'.parent
  obtain rfl : typeName = typeName' := h.typeName.symm.trans h'.typeName
  obtain rfl : script = script' := h.script.symm.trans h'.script
  obtain rfl : line = line' := h.line.symm.trans h'.line
  rfl

/-- Sections portray one tree at most. -/
theorem Portrays.unique {tree tree' : Tree} (h : Portrays line path ss tree)
    (h' : Portrays line path ss tree') : tree = tree' := by
  obtain ⟨hpath, ⟨s, hs, hroot⟩, hnodes⟩ := h
  obtain ⟨hpath', ⟨s', hs', hroot'⟩, hnodes'⟩ := h'
  obtain rfl : s = s' := List.singleton_inj.mp (hs.symm.trans hs')
  have hunique : Relator.RightUnique (Depicts line ss) := fun _ _ _ => Depicts.unique
  obtain ⟨p, root, nodes⟩ := tree
  obtain ⟨p', root', nodes'⟩ := tree'
  obtain rfl : p = p' := hpath.trans hpath'.symm
  obtain rfl : root = root' := hroot.unique hroot'
  obtain rfl : nodes = nodes' := hunique.forall₂ hnodes hnodes'
  rfl

/-- A draft of all sections makes every complaint but the one that the root is missing. -/
theorem codes_findings_ofSections (source : String) (ss : List Section) :
    complaints ss = Finding.codes (Draft.ofSections source ss).findings ++
      if (nodeSections ss).any (·.isRootCandidate) then [] else [some .missingRoot] := by
  rw [Draft.ofSections, Finding.codes_append, Resources.codes_findings,
    (Draft.tells_foldl source ss ss).codes, complaints]

theorem any_isError_eq_false_iff {fs : List Finding} :
    fs.any (·.isError) = false ↔ ∀ c ∈ Finding.codes fs, c = none := by
  simp [Finding.codes, Finding.isError_eq_isSome_code]

/-- What comes of sections: a tree that they portray if there is nothing to complain about but
warnings, or else every complaint. -/
theorem ofSections_cases (source path : String) (ss : List Section) :
    (∃ reading, ofSections source path ss = .ok reading ∧ WellFormed ss ∧
      Portrays (lineIn source) path ss reading.tree) ∨
    ∃ e, ofSections source path ss = .error e ∧ ¬ WellFormed ss ∧
      e.diagnostics.map (·.code) = complaints ss := by
  have htells := Draft.tells_foldl source ss ss
  have hcodes := codes_findings_ofSections source ss
  have hany : ((nodeSections ss).find? (·.isRootCandidate)).isSome =
      (nodeSections ss).any (·.isRootCandidate) := List.isSome_find?
  have hrel : Option.Rel (fun s p => Depicts (lineIn source) ss s p.node)
      ((nodeSections ss).find? (·.isRootCandidate)) (Draft.ofSections source ss).root := htells.root
  rw [← hany] at hcodes
  rw [wellFormed_iff, ofSections]
  cases hfirst : (nodeSections ss).find? (·.isRootCandidate) with
  | none =>
    rw [hfirst] at hrel hcodes
    generalize hroot : (Draft.ofSections source ss).root = root at hrel
    cases hrel
    refine .inr ⟨_, rfl, ?_, ?_⟩
    · simp [hcodes]
    · simp [hcodes, Finding.codes, Finding.diagnostic]
  | some s =>
    rw [hfirst] at hrel hcodes
    generalize hroot : (Draft.ofSections source ss).root = root at hrel
    cases hrel with
    | @some _ p hdepicts =>
      rw [Option.isSome_some, if_pos rfl, List.append_nil] at hcodes
      cases herror : (Draft.ofSections source ss).findings.any (·.isError) with
      | true =>
        refine .inr ⟨_, rfl, ?_, ?_⟩
        · rw [hcodes, ← any_isError_eq_false_iff, herror]
          exact Bool.noConfusion
        · rw [hcodes]
          simp [Finding.codes]
      | false =>
        have hnone : ∀ c ∈ complaints ss, c = none := by
          rwa [hcodes, ← any_isError_eq_false_iff]
        obtain ⟨s', hs'⟩ := (wellFormed_iff.mpr hnone).root
        obtain rfl : s' = s := by
          rw [← List.head?_filter, hs'] at hfirst
          exact Option.some.inj hfirst
        exact .inl ⟨_, rfl, hnone, rfl, ⟨s', hs', hdepicts⟩, htells.nodes⟩

end

/-- Sections are accepted if and only if they are well formed. What comes of them is the tree that
they portray and no other. Otherwise every complaint about them is told, in the order of the
file. -/
theorem ofSections_elaborates (source path : String) (ss : List Section) :
    ((∃ reading, ofSections source path ss = .ok reading) ↔ WellFormed ss) ∧
    (∀ reading, ofSections source path ss = .ok reading →
      ∀ tree, Portrays (lineIn source) path ss tree ↔ tree = reading.tree) ∧
    ∀ e, ofSections source path ss = .error e → e.diagnostics.map (·.code) = complaints ss := by
  rcases ofSections_cases source path ss with
    ⟨reading, hok, hwell, htree⟩ | ⟨e, herror, hill, hcodes⟩
  · rw [hok]
    refine ⟨iff_of_true ⟨reading, rfl⟩ hwell, ?_, nofun⟩
    rintro _ ⟨⟩ tree
    exact ⟨fun h => h.unique htree, fun h => h ▸ htree⟩
  · rw [herror]
    refine ⟨iff_of_false nofun hill, nofun, ?_⟩
    rintro _ ⟨⟩
    exact hcodes

/-- Two sections declare the same identifier. The script of the root is the file of the second. -/
theorem ofSections_elaborates_redeclared :
    let word (w : String) : PlacedWord := ⟨w, .zero⟩
    let resource (path : String) : Section :=
      ⟨word "ext_resource", [⟨word "id", .number .zero "1"⟩, ⟨word "path", .string .zero path⟩], [],
        .zero⟩
    let root : Section :=
      ⟨word "node", [⟨word "name", .string .zero "R"⟩],
        [⟨word "script", .call .zero "ExtResource" none [.string .zero "1"]⟩], .zero⟩
    let ss := [resource "res://a.cs", root, resource "b.cs"]
    WellFormed ss ∧
      Portrays (lineIn "") "s.tscn" ss ⟨"s.tscn", ⟨"R", none, none, some "b.cs", 1⟩, []⟩ := by
  intro word resource root ss
  obtain ⟨haccepted, htree, -⟩ := ofSections_elaborates "" "s.tscn" ss
  have hread : ofSections "" "s.tscn" ss =
      .ok ⟨⟨"s.tscn", ⟨"R", none, none, some "b.cs", 1⟩, []⟩, []⟩ := rfl
  exact ⟨haccepted.mp ⟨_, hread⟩, (htree _ hread _).mpr rfl⟩

end SceneDiagram.Scene
