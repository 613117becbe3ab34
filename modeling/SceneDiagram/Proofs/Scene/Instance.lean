import SceneDiagram.Proofs.Scene.Elaboration

/-!
# Nodes that are instances of other scenes

A scene names the files that it uses in resource sections, and its nodes refer to them by
identifier. The last section that declares an identifier gives it its path. So a node that is an
instance of an identifier has the file stem of that path as its type, whatever was declared before
(`Portrays.exists_instance`).
-/

namespace SceneDiagram

open Text

namespace Section

/-- A section declares an identifier and writes a path for it. -/
structure Declares (d : Section) (id path : String) : Prop where
  tag : d.tag.text = "ext_resource"
  id : (d.attribute? "id").bind (·.asKey?) = some id
  path : d.stringAttribute? "path" = some path

/-- A section describes a node with a name and a parent. The node has no type of its own, but is an
instance of a resource. -/
structure Instances (s : Section) (name id : String) : Prop where
  tag : s.tag.text = "node"
  name : s.stringAttribute? "name" = some name
  parent : ∃ parent, s.stringAttribute? "parent" = some parent
  untyped : s.stringAttribute? "type" = none
  reference : ∃ v, s.attribute? "instance" = some v ∧ v.externalId? = some id

variable {d s : Section} {id name file : String}

theorem declaration?_eq_some_iff : d.declaration? = some (id, file) ↔
    ∃ path, d.Declares id path ∧ file = Scene.Resources.projectPath path := by
  constructor
  · intro h
    unfold declaration? at h
    split at h
    · next htag =>
      split at h
      · next id' path hid hpath =>
        obtain ⟨rfl, rfl⟩ := Prod.mk.inj (Option.some.inj h)
        exact ⟨path, ⟨htag, hid, hpath⟩, rfl⟩
      · cases h
    · cases h
  · rintro ⟨path, ⟨htag, hid, hpath⟩, rfl⟩
    rw [declaration?, if_pos htag, hid, hpath]

theorem Instances.instanceId? (h : s.Instances name id) : s.instanceId? = some id := by
  obtain ⟨v, hv, hid⟩ := h.reference
  rw [Section.instanceId?, h.untyped, hv, Option.bind_some, hid]

end Section

namespace Scene

/-- The last section that declares `id` and writes a path writes `path`. -/
def DeclaresLast (ss : List Section) (id path : String) : Prop :=
  ∃ before d after, ss = before ++ d :: after ∧ d.Declares id path ∧
    ∀ d' ∈ after, ∀ path', ¬ d'.Declares id path'

variable {ss : List Section} {s : Section} {id name path file : String} {line : Span → Nat}
  {tree : Tree}

/-- Behind the mark of the project root stands the path in the project, whatever it looks like. -/
theorem Resources.projectPath_append (file : String) : projectPath ("res://" ++ file) = file := by
  have hrest : List.isPrefixOf? "res://".toList ("res://" ++ file).toList = some file.toList := by
    rw [String.toList_append]
    exact List.isPrefixOf?_eq_some_iff_append_eq.mpr rfl
  rw [projectPath, hrest]
  exact String.ofList_toList

/-- An identifier means the path that is written for it last. -/
theorem DeclaresLast.pathOf?_eq (h : DeclaresLast ss id path) :
    pathOf? ss id = some (Resources.projectPath path) := by
  obtain ⟨before, d, after, rfl, hd, hlast⟩ := h
  have hdeclared : d.declaration? = some (id, Resources.projectPath path) :=
    Section.declaration?_eq_some_iff.mpr ⟨path, hd, rfl⟩
  have hafter : (after.filterMap (·.declaration?)).reverse.lookup id = none := by
    rw [List.lookup_eq_none_iff]
    rintro ⟨id', file⟩ hmem
    obtain ⟨d', hd', hdeclared'⟩ := List.mem_filterMap.mp (List.mem_reverse.mp hmem)
    obtain ⟨path', hpath', -⟩ := Section.declaration?_eq_some_iff.mp hdeclared'
    rw [bne_iff_ne]
    rintro rfl
    exact hlast d' hd' path' hpath'
  rw [pathOf?, List.filterMap_append, List.filterMap_cons_some hdeclared, List.reverse_append,
    List.reverse_cons, List.append_assoc, List.lookup_append, hafter, Option.none_or,
    List.singleton_append, List.lookup_cons_self]

/-- Every section that describes a node below another one is depicted by a node of the tree. -/
theorem Portrays.exists_node (h : Portrays line path ss tree) (hs : s ∈ ss)
    (hnamed : s.isNamedNode = true) (hbelow : s.isRootCandidate = false) :
    ∃ node ∈ tree.nodes, Depicts line ss s node := by
  have hmem : s ∈ (nodeSections ss).filter (! ·.isRootCandidate) :=
    List.mem_filter.mpr ⟨List.mem_filter.mpr ⟨hs, hnamed⟩, by simp [hbelow]⟩
  obtain ⟨i, hi, rfl⟩ := List.getElem_of_mem hmem
  obtain ⟨hlength, hdepicts⟩ := List.forall₂_iff_get.mp h.nodes
  exact ⟨tree.nodes[i], List.getElem_mem _, hdepicts i hi (hlength ▸ hi)⟩

/-- A node that is an instance of a scene file has the stem of the file as its type. -/
theorem Portrays.exists_instance (h : Portrays line path ss tree) (hs : s ∈ ss)
    (hinstance : s.Instances name id) (hlast : DeclaresLast ss id ("res://" ++ file)) :
    ∃ node ∈ tree.nodes, node.name = name ∧ node.typeName = some (Path.stem file) ∧
      node.line = line s.headerSpan := by
  obtain ⟨parent, hparent⟩ := hinstance.parent
  have hnamed : s.isNamedNode = true := by
    simp [Section.isNamedNode, hinstance.tag, hinstance.name]
  have hbelow : s.isRootCandidate = false := by simp [Section.isRootCandidate, hparent]
  obtain ⟨node, hnode, hdepicts⟩ := h.exists_node hs hnamed hbelow
  refine ⟨node, hnode, Option.some.inj (hdepicts.name.symm.trans hinstance.name), ?_,
    hdepicts.line.symm⟩
  rw [← hdepicts.typeName, hinstance.untyped, hinstance.instanceId?, Option.bind_some,
    hlast.pathOf?_eq, Resources.projectPath_append, Option.map_some, Option.none_or]

end Scene

end SceneDiagram
