import SceneDiagram.Proofs.Scene.Elaboration
import SceneDiagram.Proofs.Section.Recognition
import SceneDiagram.Proofs.Token.Padding

/-!
# Line ends of a scene source

What sections mean does not depend on where they stand, except for the lines of their headers
(`complaints_mapSpan`, `portrays_mapSpan`). So a source that is padded at its line ends, with blanks
or comments or the carriage returns of another system, is the same scene
(`parse_padLines`).
-/

namespace SceneDiagram

open Text

variable {f g : Span → Span} {s : Section} {ss : List Section} {v : Value}

/-! ## What sections say elsewhere -/

namespace Value

@[simp] theorem asString?_mapSpan : (v.mapSpan f).asString? = v.asString? := by
  cases v <;> rfl

@[simp] theorem asKey?_mapSpan : (v.mapSpan f).asKey? = v.asKey? := by
  cases v <;> rfl

@[simp] theorem externalId?_mapSpan : (v.mapSpan f).externalId? = v.externalId? := by
  unfold externalId?
  split
  · next heq =>
    cases v with
    | call a name typeParam args =>
      rw [mapSpan, mapSpanItems_eq_map, call.injEq] at heq
      obtain ⟨-, rfl, -, hargs⟩ := heq
      obtain ⟨id, rfl, rfl⟩ := List.map_eq_singleton_iff.mp hargs
      exact asKey?_mapSpan
    | _ => cases heq
  · next hother =>
    split
    · next a typeParam id => exact absurd rfl (hother (f a) _ (id.mapSpan f))
    · rfl

end Value

theorem Property.lookup?_mapSpan (ps : List Property) (key : String) :
    Property.lookup? (ps.map (Property.mapSpan f)) key =
      (Property.lookup? ps key).map (Value.mapSpan f) := by
  rw [lookup?, lookup?, List.find?_map, Option.map_map, Option.map_map]
  rfl

namespace Section

@[simp] theorem attribute?_mapSpan (key : String) :
    (s.mapSpan f).attribute? key = (s.attribute? key).map (Value.mapSpan f) :=
  Property.lookup?_mapSpan s.attributes key

@[simp] theorem property?_mapSpan (key : String) :
    (s.mapSpan f).property? key = (s.property? key).map (Value.mapSpan f) :=
  Property.lookup?_mapSpan s.properties key

@[simp] theorem stringAttribute?_mapSpan (key : String) :
    (s.mapSpan f).stringAttribute? key = s.stringAttribute? key := by
  simp [stringAttribute?, Option.bind_map]

@[simp] theorem tag_mapSpan : (s.mapSpan f).tag.text = s.tag.text := rfl

@[simp] theorem declaration?_mapSpan : (s.mapSpan f).declaration? = s.declaration? := by
  simp [declaration?, Option.bind_map]

@[simp] theorem isNamedNode_mapSpan : (s.mapSpan f).isNamedNode = s.isNamedNode := by
  simp [isNamedNode]

@[simp] theorem isRootCandidate_mapSpan : (s.mapSpan f).isRootCandidate = s.isRootCandidate := by
  simp [isRootCandidate]

@[simp] theorem scriptId?_mapSpan : (s.mapSpan f).scriptId? = s.scriptId? := by
  simp [scriptId?, Option.bind_map]

@[simp] theorem instanceId?_mapSpan : (s.mapSpan f).instanceId? = s.instanceId? := by
  simp [instanceId?, Option.bind_map]

@[simp] theorem references_mapSpan : (s.mapSpan f).references = s.references := by
  simp [references]

end Section

namespace Scene

@[simp] theorem pathOf?_mapSpan : pathOf? (ss.map (Section.mapSpan f)) = pathOf? ss := by
  funext id
  simp [pathOf?, List.filterMap_map]

@[simp] theorem undeclared_mapSpan :
    undeclared (ss.map (Section.mapSpan f)) (s.mapSpan f) = undeclared ss s := by
  simp [undeclared]

theorem nodeSections_mapSpan :
    nodeSections (ss.map (Section.mapSpan f)) = (nodeSections ss).map (Section.mapSpan f) := by
  simp [nodeSections, List.filter_map, Function.comp_def]

theorem nodeComplaints_mapSpan (rooted : Bool) (l : List Section) :
    nodeComplaints (ss.map (Section.mapSpan f)) rooted (l.map (Section.mapSpan f)) =
      nodeComplaints ss rooted l := by
  induction l generalizing rooted with
  | nil => rfl
  | cons s l ih => simp [nodeComplaints, ih]

/-- Sections are complained about in the same way wherever they stand. -/
theorem complaints_mapSpan : complaints (ss.map (Section.mapSpan f)) = complaints ss := by
  simp [complaints, nodeComplaints_mapSpan, nodeSections_mapSpan, List.filter_map,
    Function.comp_def]

variable {line line' : Span → Nat} {path : String} {node : Node} {tree : Tree}

theorem depicts_mapSpan (hline : line' (f s.headerSpan) = line s.headerSpan) :
    Depicts line' (ss.map (Section.mapSpan f)) (s.mapSpan f) node ↔ Depicts line ss s node := by
  have hheader : line' (s.mapSpan f).headerSpan = line s.headerSpan := hline
  constructor
  · intro h
    exact ⟨by simpa using h.name, by simpa using h.parent, by simpa using h.typeName,
      by simpa using h.script, hheader ▸ h.line⟩
  · intro h
    exact ⟨by simpa using h.name, by simpa using h.parent, by simpa using h.typeName,
      by simpa using h.script, hheader.trans h.line⟩

theorem forall₂_depicts_mapSpan {l : List Section} {nodes : List Node}
    (hline : ∀ s ∈ l, line' (f s.headerSpan) = line s.headerSpan) :
    List.Forall₂ (Depicts line' (ss.map (Section.mapSpan f))) (l.map (Section.mapSpan f)) nodes ↔
      List.Forall₂ (Depicts line ss) l nodes := by
  induction l generalizing nodes with
  | nil => simp
  | cons s l ih =>
    obtain ⟨hs, hl⟩ := List.forall_mem_cons.mp hline
    cases nodes with
    | nil => simp
    | cons node nodes => rw [List.map_cons, List.forall₂_cons, List.forall₂_cons, ih hl,
        depicts_mapSpan hs]

/-- Sections portray the same tree wherever they stand, if the lines of the headers are the same. -/
theorem portrays_mapSpan (hline : ∀ s ∈ ss, line' (f s.headerSpan) = line s.headerSpan) :
    Portrays line' path (ss.map (Section.mapSpan f)) tree ↔ Portrays line path ss tree := by
  have hmem : ∀ {p : Section → Bool}, ∀ s ∈ (nodeSections ss).filter p,
      line' (f s.headerSpan) = line s.headerSpan :=
    fun s hs => hline s (List.mem_of_mem_filter (List.mem_of_mem_filter hs))
  have hfilter : ∀ {p : Section → Bool}, (∀ s, p (s.mapSpan f) = p s) →
      (nodeSections (ss.map (Section.mapSpan f))).filter p =
        ((nodeSections ss).filter p).map (Section.mapSpan f) := by
    intro p hp
    simp [nodeSections_mapSpan, List.filter_map, Function.comp_def, hp]
  have hroot := hfilter (p := (·.isRootCandidate)) (by simp)
  have hnodes := hfilter (p := (! ·.isRootCandidate)) (by simp)
  constructor
  · rintro ⟨hpath, ⟨s', hs', hdepicts⟩, hrest⟩
    rw [hroot] at hs'
    obtain ⟨s, hs, rfl⟩ := List.map_eq_singleton_iff.mp hs'
    rw [hnodes, forall₂_depicts_mapSpan hmem] at hrest
    exact ⟨hpath, ⟨s, hs, (depicts_mapSpan (hmem s (by rw [hs]; simp))).mp hdepicts⟩, hrest⟩
  · rintro ⟨hpath, ⟨s, hs, hdepicts⟩, hrest⟩
    refine ⟨hpath, ⟨s.mapSpan f, by rw [hroot, hs]; rfl, ?_⟩, ?_⟩
    · exact (depicts_mapSpan (hmem s (by rw [hs]; simp))).mpr hdepicts
    · rwa [hnodes, forall₂_depicts_mapSpan hmem]

/-! ## Outcomes -/

/-- Two sources are the same scene, or both are none for the same reasons. -/
def SameOutcome : Except ParseError Reading → Except ParseError Reading → Prop
  | .ok r, .ok r' => r.tree = r'.tree
  | .error e, .error e' => e.diagnostics.map (·.code) = e'.diagnostics.map (·.code)
  | _, _ => False

/-- Sections that are alike up to their places, and have their headers in the same lines, are the
same scene. -/
theorem sameOutcome_ofSections {source source' : String} {ss ss' : List Section}
    (h : ss.map (Section.mapSpan f) = ss'.map (Section.mapSpan g))
    (hline : ∀ s ∈ ss, line (f s.headerSpan) = lineIn source s.headerSpan)
    (hline' : ∀ s ∈ ss', line (g s.headerSpan) = lineIn source' s.headerSpan) :
    SameOutcome (ofSections source path ss) (ofSections source' path ss') := by
  have hcomplaints : complaints ss = complaints ss' := by
    rw [← complaints_mapSpan (f := f), h, complaints_mapSpan]
  have hwell : WellFormed ss ↔ WellFormed ss' := by
    rw [wellFormed_iff, wellFormed_iff, hcomplaints]
  rcases ofSections_cases source path ss with ⟨r, hr, hok, htree⟩ | ⟨e, he, herror, hcodes⟩
  · rcases ofSections_cases source' path ss' with ⟨r', hr', -, htree'⟩ | ⟨e', -, herror', -⟩
    · rw [hr, hr']
      rw [← portrays_mapSpan hline, h, portrays_mapSpan hline'] at htree
      exact htree.unique htree'
    · exact absurd (hwell.mp hok) herror'
  · rcases ofSections_cases source' path ss' with ⟨r', -, hok', -⟩ | ⟨e', he', -, hcodes'⟩
    · exact absurd (hwell.mpr hok') herror
    · rw [he, he']
      exact hcodes.trans (hcomplaints.trans hcodes'.symm)

end Scene

/-- The spans of sections are not changed by a function that keeps joins and does not change the
spans of the tokens. -/
theorem Section.map_mapSpan_of_ofLexemes {ts : List Lexeme}
    (hf : ∀ a b, f (a.join b) = (f a).join (f b)) (hts : ts.map (Lexeme.mapSpan f) = ts)
    (h : Section.ofLexemes ts = .ok ss) : ss.map (Section.mapSpan f) = ss := by
  have hform := (Section.ofLexemes_eq_ok_iff_sceneForm.mp h).mapSpan hf
  rw [hts, ← Section.ofLexemes_eq_ok_iff_sceneForm, h, Except.ok.injEq] at hform
  exact hform.symm

namespace Scene

/-- The header of a section starts between two characters, so it lies in the line of its start. -/
theorem lineIn_headerSpan {source : String} {ts : List Lexeme} (hts : tokenize source = .ok ts)
    (hss : Section.ofLexemes ts = .ok ss) :
    ∀ s ∈ ss, (s.headerSpan.lines source.toList).start = lineIn source s.headerSpan := by
  have hfixed := (tokenize_eq_ok_iff.mp hts).mapEnds_floorAt byteLength_nil
    (List.append_nil _).symm
  have hsections := Section.map_mapSpan_of_ofLexemes
    (Span.mapEnds_join (floorAt_mono source.toList)) hfixed hss
  intro s hs
  have hs' : s.mapSpan (Span.mapEnds (floorAt source.toList)) = s :=
    List.map_inj_left.mp (hsections.trans (List.map_id ss).symm) s hs
  have hstart := congrArg (·.headerSpan.start) hs'
  exact (Span.line_location hstart).symm

/-! ## Padded sources -/

theorem parse_of_tokenize_eq_error {source : String} {e : ParseError}
    (he : tokenize source = .error e) : parse source path = .error e := by
  simp [parse, sections, he, bind, Except.bind]

section

variable {source : String} {ts : List Lexeme} (hts : tokenize source = .ok ts)
include hts

theorem parse_of_ofLexemes_eq_ok (hss : Section.ofLexemes ts = .ok ss) :
    parse source path = ofSections source path ss := by
  simp [parse, sections, hts, hss, bind, Except.bind]

theorem parse_of_ofLexemes_eq_error {e : SyntaxError} (he : Section.ofLexemes ts = .error e) :
    parse source path = .error ⟨[e.diagnostic]⟩ := by
  simp [parse, sections, hts, he, bind, Except.bind]

end

theorem code_diagnostic (e : SyntaxError) :
    e.diagnostic.code = some (if e.found.isSome then .unexpectedToken else .incompleteInput) := by
  rw [SyntaxError.diagnostic]
  cases e.found <;> rfl

/-- A source that is padded at its line ends is the same scene: the tree is the same with its line
numbers, or if there is none, the same is complained about in the same order. -/
theorem parse_padLines {source path : String} {ts : List Lexeme} {pad : Nat → List Char}
    (hts : tokenize source = .ok ts)
    (hpad : ∀ l ∈ ts, l.token = .newline → IsPadding (pad l.span.start)) :
    SameOutcome (parse source path) (parse (padLines pad source ts) path) := by
  obtain ⟨us, hus, hmap⟩ := tokenize_padLines hts hpad
  generalize padLines pad source ts = source' at hus hmap
  -- The tokens that count are the same in the same lines, so they are read alike.
  have hresult : SectionReader.mapResult (Span.lines source.toList)
      (SectionReader.initial.skim (spaced false ts)) =
      SectionReader.mapResult (Span.lines source'.toList)
        (SectionReader.initial.skim (spaced false us)) := by
    rw [← SectionReader.skim_mapSpan (Span.lines_join _),
      ← SectionReader.skim_mapSpan (Span.lines_join _), hmap]
    rfl
  rcases Section.ofLexemes_cases hresult with
    ⟨ss, ss', hss, hss', hsections⟩ | ⟨e, e', he, he', -, hfound⟩
  · rw [parse_of_ofLexemes_eq_ok hts hss, parse_of_ofLexemes_eq_ok hus hss']
    exact sameOutcome_ofSections hsections (lineIn_headerSpan hts hss) (lineIn_headerSpan hus hss')
  · have hsome := congrArg Option.isSome hfound
    rw [Option.isSome_map, Option.isSome_map] at hsome
    rw [parse_of_ofLexemes_eq_error hts he, parse_of_ofLexemes_eq_error hus he']
    simp [SameOutcome, code_diagnostic, hsome]

/-- A carriage return after a header and a comment after a word, right behind the blank that stands
there, make no other scene. -/
theorem parse_padLines_carriage_return :
    let source := "[node name=\"R\"]\nk = w \n"
    let pad (n : Nat) : List Char := if n = 15 then ['\r'] else [';', '[']
    let tokens : List Lexeme :=
      [⟨.punct .leftBracket, ⟨0, 1⟩⟩, ⟨.word "node", ⟨1, 5⟩⟩, ⟨.space, ⟨5, 6⟩⟩,
        ⟨.word "name", ⟨6, 10⟩⟩, ⟨.punct .equals, ⟨10, 11⟩⟩, ⟨.string "R", ⟨11, 14⟩⟩,
        ⟨.punct .rightBracket, ⟨14, 15⟩⟩, ⟨.newline, ⟨15, 16⟩⟩, ⟨.word "k", ⟨16, 17⟩⟩,
        ⟨.space, ⟨17, 18⟩⟩, ⟨.punct .equals, ⟨18, 19⟩⟩, ⟨.space, ⟨19, 20⟩⟩, ⟨.word "w", ⟨20, 21⟩⟩,
        ⟨.space, ⟨21, 22⟩⟩, ⟨.newline, ⟨22, 23⟩⟩]
    tokenize source = .ok tokens ∧
      padLines pad source tokens = "[node name=\"R\"]\r\nk = w ;[\n" ∧
      SameOutcome (parse source "s.tscn") (parse "[node name=\"R\"]\r\nk = w ;[\n" "s.tscn") := by
  intro source pad tokens
  have hread : tokenize source = .ok tokens := by cbv
  have htext : padLines pad source tokens = "[node name=\"R\"]\r\nk = w ;[\n" := by decide
  have hpad : ∀ l ∈ tokens, l.token = .newline → IsPadding (pad l.span.start) := by
    intro l _ _
    by_cases h : l.span.start = 15
    · rw [show pad l.span.start = ['\r'] from if_pos h]
      exact .of_isSpace (by simp [Token.IsSpace, isBlank])
    · rw [show pad l.span.start = [';', '['] from if_neg h]
      exact .of_comment (by simp)
  have hsame : SameOutcome (parse source "s.tscn") (parse (padLines pad source tokens) "s.tscn") :=
    parse_padLines hread hpad
  rw [htext] at hsame
  exact ⟨hread, htext, hsame⟩

end Scene

end SceneDiagram
