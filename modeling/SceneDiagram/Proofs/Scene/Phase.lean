import SceneDiagram.Proofs.Scene.Elaboration
import SceneDiagram.Proofs.Scene.LineEnd
import SceneDiagram.Proofs.Token.Fault

/-!
# The phase that fails

A scene is read in three phases, and a phase is reached only if none before it found an error. Each
has its own way to tell what it found: the lexical one tells every fault, the syntactic one stops at
the first, and the structural one tells every error along with its warnings. Whoever shows the
findings of a failed reading can rely on what these have in common (`parse_fails_in_one_phase`).
-/

namespace SceneDiagram

open Text

variable {source path : String} {ss : List Section} {tokens : List Lexeme} {d : Diagnostic}
  {ds : List Diagnostic} {phase : Code.Phase}

/-! ## What a phase tells -/

namespace Diagnostic

/-- An error of a kind that arises in a phase. -/
def IsErrorOf (phase : Code.Phase) (d : Diagnostic) : Prop :=
  d.severity = .error ∧ ∃ code, d.code = some code ∧ code.phase = phase

/-- A warning that has no code. -/
def IsWarning (d : Diagnostic) : Prop := d.severity = .warning ∧ d.code = none

/-- The first label is primary and no other is. -/
def PrimaryFirst (d : Diagnostic) : Prop :=
  ∃ label others, d.labels = label :: others ∧ label.primary = true ∧
    ∀ l ∈ others, l.primary = false

/-- A primary label may have a secondary one after it. -/
theorem primaryFirst_of_labels {a : Span} {message message' : String} {second : Option Span}
    (h : d.labels = ⟨true, a, message⟩ :: (second.map (⟨false, ·, message'⟩)).toList) :
    d.PrimaryFirst := by
  refine ⟨_, _, h, rfl, ?_⟩
  intro label hlabel
  obtain ⟨b, -, rfl⟩ := Option.map_eq_some_iff.mp (Option.mem_toList.mp hlabel)
  rfl

theorem PrimaryFirst.exists_primarySpan? (h : d.PrimaryFirst) :
    ∃ label, d.labels.head? = some label ∧ d.primarySpan? = some label.span := by
  obtain ⟨label, others, hlabels, hprimary, -⟩ := h
  refine ⟨label, ?_, ?_⟩
  · rw [hlabels, List.head?_cons]
  · rw [primarySpan?, hlabels, List.find?_cons_of_pos hprimary, Option.map_some]

end Diagnostic

/-- If all findings have a primary label, the place to point at is the first label of the first. -/
theorem ParseError.exists_primarySpan? {e : ParseError} (h : ∀ d ∈ e.diagnostics, d.PrimaryFirst)
    (hne : e.diagnostics ≠ []) :
    ∃ d label, e.diagnostics.head? = some d ∧ d.labels.head? = some label ∧
      e.primarySpan? = some label.span := by
  obtain ⟨d, ds, hds⟩ := List.exists_cons_of_ne_nil hne
  obtain ⟨label, hlabel, hspan⟩ := (h d (hds ▸ List.mem_cons_self)).exists_primarySpan?
  refine ⟨d, label, ?_, hlabel, ?_⟩
  · rw [hds, List.head?_cons]
  · rw [primarySpan?, hds, List.findSome?_cons, hspan]

/-- What the findings of a phase look like. -/
inductive Code.Phase.Tells : Code.Phase → List Diagnostic → Prop
  | lexical {ds : List Diagnostic} : (∀ d ∈ ds, d.IsErrorOf .lexical) → Tells .lexical ds
  | syntactic {d : Diagnostic} : d.IsErrorOf .syntactic → Tells .syntactic [d]
  | structural {ds : List Diagnostic} : (∀ d ∈ ds, d.IsErrorOf .structural ∨ d.IsWarning) →
      Tells .structural ds

/-- An error that a phase tells has a code. -/
theorem Code.Phase.Tells.code_ne_none (h : phase.Tells ds) (hd : d ∈ ds)
    (herror : d.severity = .error) : d.code ≠ none := by
  have hcode : d.IsErrorOf phase → d.code ≠ none := by
    rintro ⟨-, code, hcode, -⟩ hnone
    cases hcode.symm.trans hnone
  cases h with
  | lexical h => exact hcode (h d hd)
  | syntactic h =>
    obtain rfl := List.mem_singleton.mp hd
    exact hcode h
  | structural h =>
    apply hcode
    apply (h d hd).resolve_right
    intro hwarning
    cases herror.symm.trans hwarning.1

/-! ## One finding -/

namespace LexicalFault

variable (fault : LexicalFault) (a : Span)

theorem isErrorOf_diagnostic : (fault.diagnostic a).IsErrorOf .lexical := by
  refine ⟨rfl, fault.code, rfl, ?_⟩
  cases fault <;> rfl

theorem primaryFirst_diagnostic : (fault.diagnostic a).PrimaryFirst :=
  ⟨_, [], rfl, rfl, nofun⟩

end LexicalFault

namespace SyntaxError

variable (e : SyntaxError)

theorem isErrorOf_diagnostic : e.diagnostic.IsErrorOf .syntactic := by
  unfold diagnostic
  cases e.found with
  | none => exact ⟨rfl, _, rfl, rfl⟩
  | some l => exact ⟨rfl, _, rfl, rfl⟩

theorem primaryFirst_diagnostic : e.diagnostic.PrimaryFirst := by
  unfold diagnostic
  cases e.found with
  | none => exact ⟨_, [], rfl, rfl, nofun⟩
  | some l => exact Diagnostic.primaryFirst_of_labels rfl

end SyntaxError

namespace Scene

namespace Finding

variable (f : Finding)

theorem isErrorOf_or_isWarning_diagnostic :
    f.diagnostic.IsErrorOf .structural ∨ f.diagnostic.IsWarning := by
  cases f with
  | incompleteResource | unnamedNode => exact .inr ⟨rfl, rfl⟩
  | unknownResource | secondRoot | missingRoot => exact .inl ⟨rfl, _, rfl, rfl⟩

theorem isError_eq_true_iff : f.isError = true ↔ f.diagnostic.severity = .error := by
  cases f <;> simp [isError, diagnostic]

theorem primaryFirst_diagnostic : f.diagnostic.PrimaryFirst := by
  cases f with
  | incompleteResource | unnamedNode | missingRoot => exact ⟨_, [], rfl, rfl, nofun⟩
  | unknownResource => exact Diagnostic.primaryFirst_of_labels rfl
  | secondRoot name header first firstHeader =>
    exact @Diagnostic.primaryFirst_of_labels _ _ _ _ (some firstHeader) rfl

end Finding

/-! ## The findings of each phase -/

/-- All findings about the sections of a scene: those about single sections, and that no section is
the root. -/
def findings (source : String) (ss : List Section) : List Finding :=
  let draft := Draft.ofSections source ss
  match draft.root with
  | none => draft.findings ++ [.missingRoot ((ss.head?.map (·.headerSpan)).getD .zero)]
  | some _ => draft.findings

/-- What a phase finds in a source. A phase that is not reached finds nothing. -/
def found (source : String) : Code.Phase → List Diagnostic
  | .lexical => Piece.diagnostics 0 (Piece.readAll source.toList)
  | .syntactic =>
    match tokenize source with
    | .error _ => []
    | .ok tokens =>
      match Section.ofLexemes tokens with
      | .error e => [e.diagnostic]
      | .ok _ => []
  | .structural =>
    match sections source with
    | .error _ => []
    | .ok ss => (findings source ss).map Finding.diagnostic

/-- Everything that is found about sections is told, whatever comes of them. -/
theorem ofSections_tells (source path : String) (ss : List Section) :
    let ds := (findings source ss).map Finding.diagnostic
    (ofSections source path ss = .error ⟨ds⟩ ∧ ∃ f ∈ findings source ss, f.isError = true) ∨
      ∃ tree, ofSections source path ss = .ok ⟨tree, ds⟩ ∧
        ∀ f ∈ findings source ss, ¬ f.isError = true := by
  unfold ofSections findings
  dsimp only
  cases (Draft.ofSections source ss).root with
  | none => exact .inl ⟨rfl, _, List.mem_append_right _ (List.mem_singleton_self _), rfl⟩
  | some root =>
    by_cases herror : (Draft.ofSections source ss).findings.any (·.isError)
    · exact .inl ⟨if_pos herror, List.any_eq_true.mp herror⟩
    · refine .inr ⟨_, if_neg herror, ?_⟩
      intro f hf hf'
      exact herror (List.any_eq_true.mpr ⟨f, hf, hf'⟩)

theorem primaryFirst_of_mem_found (hd : d ∈ found source phase) : d.PrimaryFirst := by
  cases phase with
  | lexical =>
    rw [found, Piece.diagnostics_eq_filterMap] at hd
    obtain ⟨fault, a, rfl, -⟩ := (attempted_readAll 0 source.toList).stands_of_mem hd
    exact fault.primaryFirst_diagnostic a
  | syntactic =>
    simp only [found] at hd
    split at hd
    · cases hd
    split at hd
    · obtain rfl := List.mem_singleton.mp hd
      exact SyntaxError.primaryFirst_diagnostic _
    · cases hd
  | structural =>
    simp only [found] at hd
    split at hd
    · cases hd
    · obtain ⟨f, -, rfl⟩ := List.mem_map.mp hd
      exact f.primaryFirst_diagnostic

/-- Whether all that is found in a source are such findings of one phase. -/
def FindsOnly (source : String) (phase : Code.Phase) (ds : List Diagnostic) : Prop :=
  ∀ other, found source other = if other = phase then ds else []

theorem findsOnly_lexical {e : ParseError} (h : tokenize source = .error e) :
    FindsOnly source .lexical e.diagnostics := by
  have hsections : sections source = .error e := by simp [sections, h, bind, Except.bind]
  intro other
  cases other with
  | lexical => exact (tokenize_eq_error_iff.mp h).2
  | syntactic => simp [found, h]
  | structural => simp [found, hsections]

section

variable (htokens : tokenize source = .ok tokens)

include htokens

theorem findsOnly_syntactic {e : SyntaxError} (he : Section.ofLexemes tokens = .error e) :
    FindsOnly source .syntactic [e.diagnostic] := by
  have hsections : sections source = .error ⟨[e.diagnostic]⟩ := by
    simp [sections, htokens, he, bind, Except.bind]
  intro other
  cases other with
  | lexical => exact (tokenize_eq_ok_iff_diagnostics.mp htokens).1
  | syntactic => simp [found, htokens, he]
  | structural => simp [found, hsections]

theorem findsOnly_structural (hss : Section.ofLexemes tokens = .ok ss) :
    FindsOnly source .structural ((findings source ss).map Finding.diagnostic) := by
  have hsections : sections source = .ok ss := by
    simp [sections, htokens, hss, bind, Except.bind]
  intro other
  cases other with
  | lexical => exact (tokenize_eq_ok_iff_diagnostics.mp htokens).1
  | syntactic => simp [found, htokens, hss]
  | structural => simp [found, hsections]

end

/-! ## Failed readings -/

/-- A reading that fails tells all that was found, by one phase and with an error among it. One that
succeeds tells all that was found as well, and there are only warnings. -/
theorem parse_tells (source path : String) :
    (∃ e, parse source path = .error e ∧ (∃ d ∈ e.diagnostics, d.severity = .error) ∧
      ∃ phase : Code.Phase, phase.Tells e.diagnostics ∧ FindsOnly source phase e.diagnostics) ∨
    ∃ reading, parse source path = .ok reading ∧ (∀ d ∈ reading.warnings, d.IsWarning) ∧
      FindsOnly source .structural reading.warnings := by
  cases htokens : tokenize source with
  | error e =>
    have hlexical : ∀ d ∈ e.diagnostics, d.IsErrorOf .lexical := by
      intro d hd
      obtain ⟨fault, a, rfl, -⟩ := stands_of_tokenize htokens d hd
      exact fault.isErrorOf_diagnostic a
    obtain ⟨hne, heq⟩ := tokenize_eq_error_iff.mp htokens
    obtain ⟨d, hd⟩ := List.exists_mem_of_ne_nil _ (heq ▸ hne)
    exact .inl ⟨e, parse_of_tokenize_eq_error htokens, ⟨d, hd, (hlexical d hd).1⟩, .lexical,
      .lexical hlexical, findsOnly_lexical htokens⟩
  | ok tokens =>
    cases hss : Section.ofLexemes tokens with
    | error e =>
      have herror := e.isErrorOf_diagnostic
      exact .inl ⟨_, parse_of_ofLexemes_eq_error htokens hss,
        ⟨_, List.mem_singleton_self _, herror.1⟩, .syntactic, .syntactic herror,
        findsOnly_syntactic htokens hss⟩
    | ok ss =>
      have honly := findsOnly_structural htokens hss
      rw [parse_of_ofLexemes_eq_ok htokens hss]
      rcases ofSections_tells source path ss with ⟨hread, f, hf, herror⟩ | ⟨tree, hread, hnone⟩
      · refine .inl ⟨_, hread, ?_, .structural, .structural ?_, honly⟩
        · exact ⟨_, List.mem_map_of_mem hf, f.isError_eq_true_iff.mp herror⟩
        · rw [List.forall_mem_map]
          exact fun f _ => f.isErrorOf_or_isWarning_diagnostic
      · refine .inr ⟨_, hread, ?_, honly⟩
        rw [List.forall_mem_map]
        intro f hf
        apply f.isErrorOf_or_isWarning_diagnostic.resolve_left
        intro herror
        exact hnone f hf (f.isError_eq_true_iff.mpr herror.1)

/-- A reading that fails tells what one phase found, and no other phase found anything: faults in
the text and nothing else, or one syntax error, or errors in the structure, with the warnings about
it. There is an error among the findings, every error has a code, and every finding has one primary
label, which is its first, so that there is a place to point at. A reading that succeeds tells the
warnings about the structure, and no phase found anything else. -/
theorem parse_fails_in_one_phase (source path : String) :
    (∀ e, parse source path = .error e →
      (∃ d ∈ e.diagnostics, d.severity = .error) ∧
      (∀ d ∈ e.diagnostics, d.PrimaryFirst ∧ (d.severity = .error → d.code ≠ none)) ∧
      (∃ d label, e.diagnostics.head? = some d ∧ d.labels.head? = some label ∧
        e.primarySpan? = some label.span) ∧
      ∃ phase : Code.Phase, phase.Tells e.diagnostics ∧ FindsOnly source phase e.diagnostics) ∧
    ∀ reading, parse source path = .ok reading →
      (∀ d ∈ reading.warnings, d.IsWarning) ∧
        FindsOnly source .structural reading.warnings := by
  rcases parse_tells source path with ⟨e, hread, herror, phase, htells, honly⟩ | ⟨_, hread, hall⟩
  · rw [hread]
    refine ⟨?_, nofun⟩
    rintro _ ⟨⟩
    have hfound : found source phase = e.diagnostics := by rw [honly, if_pos rfl]
    have hprimary : ∀ d ∈ e.diagnostics, d.PrimaryFirst := by
      intro d hd
      rw [← hfound] at hd
      exact primaryFirst_of_mem_found hd
    refine ⟨herror, fun d hd => ⟨hprimary d hd, htells.code_ne_none hd⟩, ?_, phase, htells, honly⟩
    obtain ⟨d, hd, -⟩ := herror
    exact ParseError.exists_primarySpan? hprimary (List.ne_nil_of_mem hd)
  · rw [hread]
    refine ⟨nofun, ?_⟩
    rintro _ ⟨⟩
    exact hall

/-- A resource without a path is warned about, and the warning is told together with the error that
there is no root. -/
theorem parse_fails_in_one_phase_warned :
    let incomplete := Finding.incompleteResource ⟨0, 19⟩
    let missing := Finding.missingRoot ⟨0, 19⟩
    let e : ParseError := ⟨[incomplete.diagnostic, missing.diagnostic]⟩
    parse "[ext_resource id=1]" "s.tscn" = .error e ∧ e.primarySpan? = some ⟨0, 19⟩ ∧
      (∀ d ∈ e.diagnostics, d.PrimaryFirst) ∧
      FindsOnly "[ext_resource id=1]" .structural e.diagnostics := by
  intro incomplete missing e
  have hread : parse "[ext_resource id=1]" "s.tscn" = .error e := by cbv
  obtain ⟨-, hall, -, phase, htells, honly⟩ :=
    (parse_fails_in_one_phase "[ext_resource id=1]" "s.tscn").1 e hread
  refine ⟨hread, rfl, fun d hd => (hall d hd).1, ?_⟩
  cases htells with
  | lexical h =>
    obtain ⟨hseverity, -⟩ := h incomplete.diagnostic List.mem_cons_self
    cases hseverity
  | structural _ => exact honly

end Scene

end SceneDiagram
