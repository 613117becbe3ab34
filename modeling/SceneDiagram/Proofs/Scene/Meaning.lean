import Mathlib.Data.List.Basic
import SceneDiagram.Scene.Reading

/-!
# What the sections of a scene mean

The words for what a section says, on their own: which resource it declares, which resources it
refers to, whether it describes a node, and whether that node could be the root. The path that an
identifier means is that of the last section that declares it. The laws tie these words to the
tables and look-ups by which a scene is read: a table gives an identifier the path that it means
(`Resources.path_lookup_ofSections`), and a look-up finds that path or makes the one finding that
it has to make (`Reference.path?_ofValue?`, `Reference.codes_ofValue?`).
-/

namespace SceneDiagram

open Text

/-- The identifier by which a value refers to an external resource. -/
def Value.externalId? : Value → Option String
  | .call _ "ExtResource" _ [id] => id.asKey?
  | _ => none

namespace Section

/-- The identifier that a section declares, with the path in the project that it gives to it. -/
def declaration? (s : Section) : Option (String × String) :=
  if s.tag.text = "ext_resource" then
    match (s.attribute? "id").bind (·.asKey?), s.stringAttribute? "path" with
    | some id, some path => some (id, Scene.Resources.projectPath path)
    | _, _ => none
  else none

/-- Whether a section describes a node: it is tagged so and has a name. -/
def isNamedNode (s : Section) : Bool :=
  s.tag.text == "node" && (s.stringAttribute? "name").isSome

/-- Whether the node of a section could be the root: it names no parent. -/
def isRootCandidate (s : Section) : Bool := (s.stringAttribute? "parent").isNone

/-- The resource that a section names as its script. -/
def scriptId? (s : Section) : Option String := (s.property? "script").bind (·.externalId?)

/-- The resource that a section is an instance of. A section that names a type is none. -/
def instanceId? (s : Section) : Option String :=
  match s.stringAttribute? "type" with
  | some _ => none
  | none => (s.attribute? "instance").bind (·.externalId?)

/-- The resources that a section refers to. -/
def references (s : Section) : List String := s.instanceId?.toList ++ s.scriptId?.toList

end Section

namespace Scene

/-- The path in the project that an identifier means: that of the last section that declares it. -/
def pathOf? (ss : List Section) (id : String) : Option String :=
  (ss.filterMap (·.declaration?)).reverse.lookup id

/-- The resources that a section refers to and no section declares. -/
def undeclared (ss : List Section) (s : Section) : List String :=
  s.references.filter fun id => (pathOf? ss id).isNone

/-- The codes of findings. A warning has none. -/
def Finding.codes (fs : List Finding) : List (Option Code) := fs.map (·.diagnostic.code)

@[simp] theorem Finding.codes_nil : codes [] = [] := rfl

@[simp] theorem Finding.codes_cons {f : Finding} {fs : List Finding} :
    codes (f :: fs) = f.diagnostic.code :: codes fs := rfl

@[simp] theorem Finding.codes_append {fs gs : List Finding} :
    codes (fs ++ gs) = codes fs ++ codes gs := List.map_append

variable {ss : List Section} {s : Section} {source id key : String} {rs : Resources} {v : Value}
  {r : Resource}

theorem pathOf?_isSome_iff :
    (pathOf? ss id).isSome ↔ ∃ d ∈ ss, ∃ path, d.declaration? = some (id, path) := by
  rw [pathOf?, List.lookup_isSome_iff]
  constructor
  · rintro ⟨⟨k, path⟩, hmem, hid⟩
    obtain ⟨d, hd, hdeclared⟩ := List.mem_filterMap.mp (List.mem_reverse.mp hmem)
    obtain rfl : id = k := eq_of_beq hid
    exact ⟨d, hd, path, hdeclared⟩
  · rintro ⟨d, hd, path, hdeclared⟩
    exact ⟨(id, path), List.mem_reverse.mpr (List.mem_filterMap.mpr ⟨d, hd, hdeclared⟩), BEq.rfl⟩

theorem undeclared_eq_nil_iff : undeclared ss s = [] ↔
    ∀ id ∈ s.references, ∃ d ∈ ss, ∃ path, d.declaration? = some (id, path) := by
  rw [undeclared, List.filter_eq_nil_iff]
  refine forall₂_congr fun id _ => ?_
  rw [← pathOf?_isSome_iff]
  simp [Option.isSome_iff_ne_none]

/-! ## Declared resources -/

namespace Resources

/-- Of several declarations of an identifier the last one counts. -/
theorem lookup_foldl_put {ds : List (String × Resource)} :
    (ds.foldl (fun rs (key, r) => Keyed.put key r rs) rs).lookup id =
      (ds.reverse.lookup id).or (rs.lookup id) := by
  induction ds generalizing rs with
  | nil => rfl
  | cons d ds ih =>
    obtain ⟨key, r⟩ := d
    rw [List.foldl_cons, ih, Keyed.lookup_put, List.reverse_cons, List.lookup_append,
      Option.or_assoc, Keyed.lookup_cons]
    split <;> rfl

theorem lookup_map_path {ds : List (String × Resource)} :
    (ds.map fun (key, r) => (key, r.path)).lookup id = (ds.lookup id).map (·.path) := by
  induction ds with
  | nil => rfl
  | cons d ds ih =>
    obtain ⟨key, r⟩ := d
    rw [List.map_cons, Keyed.lookup_cons, Keyed.lookup_cons, ih]
    split <;> rfl

theorem declaration?_eq_map_ofSection? (hs : s.tag.text = "ext_resource") :
    s.declaration? = (ofSection? s).map fun (key, r) => (key, r.path) := by
  rw [Section.declaration?, if_pos hs, ofSection?]
  cases (s.attribute? "id").bind (·.asKey?) <;> cases s.stringAttribute? "path" <;> rfl

/-- A table of resources gives an identifier the path that it means. -/
theorem path_lookup_ofSections :
    ((ofSections ss).lookup id).map (·.path) = pathOf? ss id := by
  have hdeclared : ((sections ss).filterMap ofSection?).map (fun (key, r) => (key, r.path)) =
      ss.filterMap (·.declaration?) := by
    rw [List.map_filterMap, sections, List.filterMap_filter]
    refine List.filterMap_congr fun s _ => ?_
    by_cases hs : s.tag.text = "ext_resource"
    · simp [hs, declaration?_eq_map_ofSection? hs]
    · simp [hs, Section.declaration?]
  rw [ofSections, lookup_foldl_put, List.lookup_nil, Option.or_none, pathOf?, ← hdeclared,
    ← List.map_reverse, lookup_map_path]

/-- A resource section that declares nothing is passed over with a warning. -/
theorem codes_findings : Finding.codes (findings ss) =
    (ss.filter fun s => s.tag.text == "ext_resource" && s.declaration?.isNone).map fun _ =>
      none := by
  have hidle : (sections ss).filter (fun s => (ofSection? s).isNone) =
      ss.filter fun s => s.tag.text == "ext_resource" && s.declaration?.isNone := by
    rw [sections, List.filter_filter]
    refine List.filter_congr fun s _ => ?_
    by_cases hs : s.tag.text = "ext_resource"
    · rw [declaration?_eq_map_ofSection? hs, Option.isNone_map, Bool.and_comm]
    · rw [beq_false_of_ne hs, Bool.and_false, Bool.false_and]
  rw [findings, hidle, Finding.codes, List.map_map]
  rfl

end Resources

/-! ## References -/

namespace Reference

theorem bind_resourceId? (v : Value) : v.resourceId?.bind (·.asKey?) = v.externalId? := by
  unfold Value.resourceId?
  split
  · rfl
  · next h =>
    rw [Value.externalId?.eq_2 v h]
    rfl

theorem ofValue_of_externalId?_eq_none (h : v.externalId? = .none) :
    ofValue source rs v = .none := by
  rw [← bind_resourceId?] at h
  rw [ofValue]
  cases hid : v.resourceId? with
  | none => rfl
  | some id =>
    have hkey : id.asKey? = .none := by rwa [hid] at h
    simp only [hkey]

theorem ofValue_of_externalId?_eq_some (source : String) (rs : Resources)
    (h : v.externalId? = some key) :
    (∃ r, rs.lookup key = some r ∧ ofValue source rs v = .found r) ∨
      ∃ written first, rs.lookup key = .none ∧
        ofValue source rs v = .missing (.unknownResource key v.span written first) := by
  rw [← bind_resourceId?] at h
  obtain ⟨id, hid, hkey⟩ := Option.bind_eq_some_iff.mp h
  rw [ofValue, hid]
  simp only [hkey]
  cases hlookup : rs.lookup key with
  | some r => exact .inl ⟨r, rfl, rfl⟩
  | none => exact .inr ⟨_, _, rfl, rfl⟩

/-- A look-up finds the path that an identifier means. -/
theorem path?_ofValue? (source : String) (ss : List Section) (v : Option Value) :
    (ofValue? source (Resources.ofSections ss) v).path? =
      (v.bind (·.externalId?)).bind (pathOf? ss) := by
  cases v with
  | none => rfl
  | some v =>
    rw [ofValue?, Option.bind_some]
    cases hid : v.externalId? with
    | none =>
      rw [ofValue_of_externalId?_eq_none hid]
      rfl
    | some id =>
      rw [Option.bind_some, ← Resources.path_lookup_ofSections]
      rcases ofValue_of_externalId?_eq_some source (Resources.ofSections ss) hid with
        ⟨r, hlookup, hfound⟩ | ⟨_, _, hlookup, hmissing⟩
      · rw [hfound, hlookup]
        rfl
      · rw [hmissing, hlookup]
        rfl

/-- A look-up complains if no section declares the identifier, and only then. -/
theorem codes_ofValue? (source : String) (ss : List Section) (v : Option Value) :
    Finding.codes (ofValue? source (Resources.ofSections ss) v).findings =
      ((v.bind (·.externalId?)).toList.filter fun id => (pathOf? ss id).isNone).map fun _ =>
        some .unknownResource := by
  cases v with
  | none => rfl
  | some v =>
    rw [ofValue?, Option.bind_some]
    cases hid : v.externalId? with
    | none => rw [ofValue_of_externalId?_eq_none hid]; rfl
    | some id =>
      have hpath : ((Resources.ofSections ss).lookup id).map (·.path) = pathOf? ss id :=
        Resources.path_lookup_ofSections
      rcases ofValue_of_externalId?_eq_some source (Resources.ofSections ss) hid with
        ⟨r, hlookup, hfound⟩ | ⟨_, _, hlookup, hmissing⟩
      · rw [hlookup, Option.map_some] at hpath
        simp [hfound, findings, ← hpath]
      · rw [hlookup, Option.map_none] at hpath
        simp [hmissing, findings, Finding.diagnostic, ← hpath]

end Reference

end Scene

end SceneDiagram
