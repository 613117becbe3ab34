import SceneDiagram.Proofs.Scene.LineEnd
import SceneDiagram.Proofs.Section.Outline
import SceneDiagram.Proofs.Section.Refusal
import SceneDiagram.Proofs.Token.Fault

/-!
# The labels of a failed reading

Every label of a finding points at text of the source, in whichever phase the finding arises: at the
part in which there is a lexical fault, at tokens, or at headers and values of sections. One kind of
label is too short: that of an unexpected character has one byte, whatever the character has
(`parse_denotes_labels`).
-/

namespace SceneDiagram

open Text Grammar

variable {source path : String} {ss : List Section} {s : Section} {P : Span → Prop}

theorem Property.value_mem_of_lookup? {ps : List Property} {key : String} {v : Value}
    (h : lookup? ps key = some v) : v ∈ ps.map (·.value) := by
  obtain ⟨p, hp, rfl⟩ := Option.map_eq_some_iff.mp h
  exact List.mem_map_of_mem (List.mem_of_find?_eq_some hp)

namespace Section

theorem mem_values_of_attribute? {key : String} {v : Value} (h : s.attribute? key = some v) :
    v ∈ s.values := by
  rw [values, List.map_append]
  exact List.mem_append_left _ (Property.value_mem_of_lookup? h)

theorem mem_values_of_property? {key : String} {v : Value} (h : s.property? key = some v) :
    v ∈ s.values := by
  rw [values, List.map_append]
  exact List.mem_append_right _ (Property.value_mem_of_lookup? h)

end Section

namespace Scene

/-! ## Findings about sections -/

/-- All labels of a finding are at such spans. -/
def Finding.LabelsAt (P : Span → Prop) (f : Finding) : Prop :=
  ∀ label ∈ f.diagnostic.labels, P label.span

/-- The headers of sections and the values in them are at such spans. -/
structure PlacedAt (P : Span → Prop) (ss : List Section) : Prop where
  header : ∀ s ∈ ss, P s.headerSpan
  value : ∀ s ∈ ss, ∀ v ∈ s.values, P v.span

namespace Resources

theorem mem_foldl_put {ds : List (String × Resource)} {rs : Resources} {x : String × Resource}
    (h : x ∈ ds.foldl (fun rs (key, r) => Keyed.put key r rs) rs) : x ∈ rs ∨ x ∈ ds := by
  induction ds generalizing rs with
  | nil => exact .inl h
  | cons d ds ih =>
    rcases ih h with h | h
    · refine (Keyed.mem_put h).imp_right fun hx => ?_
      rw [hx]
      exact List.mem_cons_self
    · exact .inr (List.mem_cons_of_mem _ h)

/-- Every resource is kept with the header of a section. -/
theorem exists_header_of_mem {x : String × Resource} (h : x ∈ ofSections ss) :
    ∃ s ∈ ss, x.2.header = s.headerSpan := by
  have hdeclared := (mem_foldl_put h).resolve_left List.not_mem_nil
  obtain ⟨s, hs, hx⟩ := List.mem_filterMap.mp hdeclared
  refine ⟨s, (List.mem_filter.mp hs).1, ?_⟩
  unfold ofSection? at hx
  split at hx <;> cases hx
  rfl

theorem labelsAt_findings (h : PlacedAt P ss) : ∀ f ∈ findings ss, f.LabelsAt P := by
  intro f hf
  obtain ⟨s, hs, rfl⟩ := List.mem_map.mp hf
  have hmem : s ∈ ss := (List.mem_filter.mp (List.mem_filter.mp hs).1).1
  simpa [Finding.LabelsAt, Finding.diagnostic] using h.header s hmem

end Resources

/-- A reference to what is missing is told at the reference and at the first resource. -/
theorem Reference.labelsAt_findings {rs : Resources} (hrs : ∀ x ∈ rs, P x.2.header)
    {v? : Option Value} (hv : ∀ v ∈ v?, P v.span) :
    ∀ f ∈ (ofValue? source rs v?).findings, f.LabelsAt P := by
  cases v? with
  | none => exact fun f hf => absurd hf List.not_mem_nil
  | some v =>
    intro f hf
    simp only [ofValue?, ofValue] at hf
    split at hf
    · cases hf
    split at hf
    · cases hf
    split at hf
    · cases hf
    · obtain rfl := List.mem_singleton.mp hf
      intro label hlabel
      simp only [Finding.diagnostic, List.mem_cons, Option.mem_toList, Option.map_map,
        Option.map_eq_some_iff, Function.comp_apply] at hlabel
      rcases hlabel with rfl | ⟨x, hx, rfl⟩
      · exact hv v rfl
      · exact hrs x (List.mem_of_head? hx)

theorem PlacedNode.labelsAt_findings {rs : Resources} (hrs : ∀ x ∈ rs, P x.2.header)
    (hheader : P s.headerSpan) (hvalue : ∀ v ∈ s.values, P v.span) :
    ∀ f ∈ findings source rs s, f.LabelsAt P := by
  unfold findings
  split
  · simpa [Finding.LabelsAt, Finding.diagnostic] using hheader
  · intro f hf
    rcases List.mem_append.mp hf with hf | hf
    · unfold instanced at hf
      split at hf
      · cases hf
      · exact Reference.labelsAt_findings hrs
          (fun v hv => hvalue v (Section.mem_values_of_attribute? hv)) f hf
    · exact Reference.labelsAt_findings hrs
        (fun v hv => hvalue v (Section.mem_values_of_property? hv)) f hf

/-- The root of a draft and the findings in it are at such spans. -/
structure Draft.PlacedAt (P : Span → Prop) (d : Draft) : Prop where
  root : ∀ p ∈ d.root, P p.header
  findings : ∀ f ∈ d.findings, f.LabelsAt P

theorem Draft.PlacedAt.add {rs : Resources} {d : Draft} (h : d.PlacedAt P)
    (hrs : ∀ x ∈ rs, P x.2.header) (hheader : P s.headerSpan)
    (hvalue : ∀ v ∈ s.values, P v.span) : (d.add source rs s).PlacedAt P := by
  have hfound : ∀ f ∈ d.findings ++ PlacedNode.findings source rs s, f.LabelsAt P := by
    intro f hf
    rcases List.mem_append.mp hf with hf | hf
    · exact h.findings f hf
    · exact PlacedNode.labelsAt_findings hrs hheader hvalue f hf
  unfold Draft.add
  cases hp : PlacedNode.ofSection? source rs s with
  | none => exact ⟨h.root, hfound⟩
  | some p =>
    have hplace : P p.header := by
      obtain ⟨name, -, rfl⟩ := Option.map_eq_some_iff.mp hp
      exact hheader
    dsimp only
    split
    · split
      · exact ⟨fun q hq => Option.some.inj hq ▸ hplace, hfound⟩
      · next first hfirst =>
        refine ⟨h.root, fun f hf => ?_⟩
        rcases List.mem_append.mp hf with hf | hf
        · exact hfound f hf
        · obtain rfl := List.mem_singleton.mp hf
          simpa [Finding.LabelsAt, Finding.diagnostic] using ⟨hplace, h.root first hfirst⟩
    · exact ⟨h.root, hfound⟩

theorem Draft.placedAt_ofSections (h : Scene.PlacedAt P ss) :
    (ofSections source ss).PlacedAt P := by
  have hrs : ∀ x ∈ Resources.ofSections ss, P x.2.header := by
    intro x hx
    obtain ⟨s, hs, hheader⟩ := Resources.exists_header_of_mem hx
    rw [hheader]
    exact h.header s hs
  have hfold : ∀ (l : List Section) (d : Draft), (∀ s ∈ l, s ∈ ss) → d.PlacedAt P →
      (l.foldl (add source (Resources.ofSections ss)) d).PlacedAt P := by
    intro l
    induction l with
    | nil => exact fun _ _ hd => hd
    | cons s l ih =>
      intro d hl hd
      have hs := hl s List.mem_cons_self
      exact ih _ (fun s' hs' => hl s' (List.mem_cons_of_mem _ hs'))
        (hd.add hrs (h.header s hs) (h.value s hs))
  have hdraft := hfold (ss.filter (·.tag.text == "node")) ⟨none, [], []⟩
    (fun s hs => (List.mem_filter.mp hs).1) ⟨nofun, nofun⟩
  refine ⟨hdraft.root, fun f hf => ?_⟩
  rcases List.mem_append.mp hf with hf | hf
  · exact Resources.labelsAt_findings h f hf
  · exact hdraft.findings f hf

/-- All that is told about sections of which no scene can be made is told at their headers and
values, or at the start of the source if there is no section. -/
theorem labels_of_ofSections {e : ParseError} (h : PlacedAt P ss) (hzero : P .zero)
    (he : ofSections source path ss = .error e) :
    ∀ d ∈ e.diagnostics, ∀ label ∈ d.labels, P label.span := by
  have hdraft : ∀ f ∈ (Draft.ofSections source ss).findings, f.LabelsAt P :=
    (Draft.placedAt_ofSections h).findings
  have hplace : P ((ss.head?.map (·.headerSpan)).getD .zero) := by
    cases hhead : ss.head? with
    | none => exact hzero
    | some s => exact h.header s (List.mem_of_head? hhead)
  unfold ofSections at he
  intro d hd
  dsimp only at he
  split at he
  · cases he
    obtain ⟨f, hf, rfl⟩ := List.mem_map.mp hd
    rcases List.mem_append.mp hf with hf | hf
    · exact hdraft f hf
    · obtain rfl := List.mem_singleton.mp hf
      simpa [Finding.diagnostic] using hplace
  · split at he
    · cases he
      obtain ⟨f, hf, rfl⟩ := List.mem_map.mp hd
      exact hdraft f hf
    · cases he

/-- The headers of sections that are read from a source, and the values in them, denote its text. -/
theorem placedAt_of_ofLexemes {tokens : List Lexeme} (htokens : tokenize source = .ok tokens)
    (hss : Section.ofLexemes tokens = .ok ss) : PlacedAt (·.Denotes source) ss := by
  have hscene := Section.ofLexemes_eq_ok_iff_sceneForm.mp hss
  constructor
  · intro s hs
    obtain ⟨ts, hts, hform⟩ := FileForm.exists_infix hscene hs
    obtain ⟨hs', ps, rfl, -, -, hheader⟩ := hform.exists_header
    obtain ⟨n, m, habut, hdenotes⟩ :=
      denotes_of_infix htokens ((List.prefix_append hs' ps).isInfix.trans hts)
    rw [(hheader habut).1]
    exact hdenotes
  · intro s hs v hv
    obtain ⟨ts, hts, hform⟩ := FileForm.exists_infix hscene hs
    obtain ⟨us, hus, hform⟩ := hform.exists_infix hv
    obtain ⟨n, m, habut, hdenotes⟩ := denotes_of_infix htokens (hus.trans hts)
    rw [hform.span_eq habut]
    exact hdenotes

theorem denotes_zero (source : String) : Span.zero.Denotes source := by
  have hsplit : source.toList = [] ++ [] ++ source.toList := rfl
  exact Span.denotes_of_append hsplit

/-! ## Failed readings -/

/-- Every label of a failed reading, primary or secondary, denotes text of the source: it lies
within the source, cuts no character in two, and the text at its span is what it labels. The only
labels that do not are those of unexpected characters that take more than one byte, of which the
span holds the first. -/
theorem parse_denotes_labels {e : ParseError} (h : parse source path = .error e) :
    ∀ d ∈ e.diagnostics, ∀ label ∈ d.labels,
      label.span.Denotes source ∨
        d.code = some .unexpectedCharacter ∧ label.span.HalvesCharacter source := by
  intro d hd label hlabel
  cases htokens : tokenize source with
  | error faults =>
    have hparse : parse source path = .error faults := by
      simp [parse, sections, htokens, bind, Except.bind]
    cases hparse.symm.trans h
    obtain ⟨fault, a, rfl, hstands⟩ := stands_of_tokenize htokens d hd
    obtain rfl := List.mem_singleton.mp hlabel
    refine hstands.denotes_or_halves.imp_right fun hhalf => ⟨?_, hhalf.2⟩
    rw [hhalf.1]
    rfl
  | ok tokens =>
    left
    cases hss : Section.ofLexemes tokens with
    | error refused =>
      rw [parse_of_ofLexemes_eq_error htokens hss] at h
      cases h
      obtain rfl := List.mem_singleton.mp hd
      exact refused.denotes_labels htokens hss label hlabel
    | ok ss =>
      rw [parse_of_ofLexemes_eq_ok htokens hss] at h
      exact labels_of_ofSections (placedAt_of_ofLexemes htokens hss) (denotes_zero source) h d hd
        label hlabel

/-- The label of an unexpected word with a letter of two bytes denotes the whole word. -/
theorem parse_denotes_labels_word :
    let d : Diagnostic :=
      { severity := .error
        code := some .unexpectedToken
        message := "unexpected `\u00e9`"
        labels := [⟨true, ⟨0, 2⟩, "expected section header"⟩]
        help := none }
    parse "\u00e9" "s.tscn" = .error ⟨[d]⟩ ∧ (Span.mk 0 2).Denotes "\u00e9" := by
  intro d
  have hread : parse "\u00e9" "s.tscn" = .error ⟨[d]⟩ := by cbv
  refine ⟨hread, ?_⟩
  rcases parse_denotes_labels hread d (List.mem_singleton_self d) ⟨true, ⟨0, 2⟩, _⟩
    (List.mem_singleton_self _) with hdenotes | ⟨hcode, -⟩
  · exact hdenotes
  · cases hcode

/-- The label of a copyright sign, which has two bytes, denotes nothing: it ends inside the sign. -/
theorem parse_label_copyright_sign :
    let d : Diagnostic :=
      { severity := .error
        code := some .unexpectedCharacter
        message := "unexpected character"
        labels := [⟨true, ⟨0, 1⟩, "unexpected character"⟩]
        help := none }
    parse "\u00a9" "s.tscn" = .error ⟨[d]⟩ ∧ ¬ (Span.mk 0 1).Denotes "\u00a9" ∧
      (Span.mk 0 1).text "\u00a9" = "" := by
  intro d
  have hread : parse "\u00a9" "s.tscn" = .error ⟨[d]⟩ := by cbv
  have hhalf : (Span.mk 0 1).HalvesCharacter "\u00a9" :=
    ⟨[], '\u00a9', [], by decide, by decide, rfl⟩
  exact ⟨hread, hhalf.not_denotes.2.2⟩

end Scene

end SceneDiagram
