import SceneDiagram.Proofs.Section.Viability
import SceneDiagram.Proofs.Text.Denotation
import SceneDiagram.Proofs.Token.Locality

/-!
# Where syntax errors are found

A refusal names the construct that is open by the span of its first token. A reader that refuses a
token names the same construct as it would at the end of the input (`opened_of_step`), and that is
the one which the grammar finds open. So all that a syntax error points at are tokens of the source
and, where the input is incomplete, the text from one of them to the last.
-/

namespace SceneDiagram

open Text Grammar

namespace SectionReader

variable {r : SectionReader} {l : Lexeme} {refusal : Refusal} {slot : Slot}

/-- What is refused in the place of a value is refused in the construct that waits for it. -/
theorem opened_of_stepValue (h : r.stepValue slot l = .error refusal) :
    refusal.opened = some slot.start := by
  unfold stepValue at h
  split at h <;> cases h
  rfl

theorem opened_of_stepItem (h : r.stepItem slot l = .error refusal) :
    refusal.opened = some slot.start := by
  unfold stepItem at h
  split at h
  · split at h
    · cases h
    · exact opened_of_stepValue h
  · exact opened_of_stepValue h

theorem opened_of_stepSeparator {g : Group} (h : r.stepSeparator slot g l = .error refusal) :
    refusal.opened = some g.start := by
  unfold stepSeparator at h
  split at h
  · cases h
  split at h
  · cases h
  · cases h
    rfl

theorem opened_of_stepMark {mark : Punct} {start : Span} {next : Stage}
    (h : r.stepMark mark start next l = .error refusal) : refusal.opened = some start := by
  unfold stepMark at h
  split at h
  · cases h
  · cases h
    rfl

/-- A reader with no word kept apart refuses a token in the construct in which it would be refused
the end, or between sections, where none is open. -/
theorem opened_of_stepSettled (hword : r.word = none) (h : r.stepSettled l = .error refusal) :
    refusal.opened = none ∨ ∃ expected, r.finish = .error ⟨expected, refusal.opened⟩ := by
  obtain ⟨done, body, stage, word⟩ := r
  obtain rfl : word = none := hword
  cases stage with
  | outside =>
    left
    simp only [stepSettled, stepOutside] at h
    split at h <;> cases h
    rfl
  | tag start =>
    right
    simp only [stepSettled] at h
    split at h <;> cases h
    exact ⟨_, rfl⟩
  | header header =>
    right
    simp only [stepSettled, stepHeader] at h
    split at h <;> cases h
    exact ⟨_, rfl⟩
  | equals header key => exact .inr ⟨_, by rw [opened_of_stepMark h]; rfl⟩
  | value slot => exact .inr ⟨_, by rw [opened_of_stepItem h]; rfl⟩
  | text slot kind start =>
    right
    simp only [stepSettled] at h
    split at h <;> cases h
    exact ⟨_, rfl⟩
  | argument slot c key =>
    right
    simp only [stepSettled] at h
    split at h
    · cases h
    · exact ⟨_, by rw [opened_of_stepSeparator h]; rfl⟩
  | separator slot g => exact .inr ⟨_, by rw [opened_of_stepSeparator h]; rfl⟩
  | colon slot d key => exact .inr ⟨_, by rw [opened_of_stepMark h]; rfl⟩
  | closeType slot t param => exact .inr ⟨_, by rw [opened_of_stepMark h]; rfl⟩
  | openArgs slot t param => exact .inr ⟨_, by rw [opened_of_stepMark h]; rfl⟩

theorem word_settle : r.settle.word = none := by
  unfold settle
  split
  · assumption
  · exact receive_word

theorem finish_settle : r.settle.finish = r.finish := by
  rw [finish, finish, settle_of_word_eq_none word_settle]

/-- What a reader refuses is refused once a word that is kept apart is settled. -/
theorem stepSettled_of_step_eq_error (h : r.step l = .error refusal) :
    r.settle.stepSettled l = .error refusal := by
  unfold step at h
  split at h
  · split at h
    · cases h
    split at h
    · cases h
    split at h
    · cases h
    · exact h
  · next hword =>
    rw [settle_of_word_eq_none hword]
    split at h
    · cases h
    · exact h

theorem opened_of_step (h : r.step l = .error refusal) :
    refusal.opened = none ∨ ∃ expected, r.finish = .error ⟨expected, refusal.opened⟩ := by
  rw [← finish_settle]
  exact opened_of_stepSettled word_settle (stepSettled_of_step_eq_error h)

end SectionReader

open SectionReader

variable {source : String} {tokens : List Lexeme} {e : SyntaxError}

/-- The construct that a syntax error names starts at one of the tokens. -/
theorem Section.startsIn_of_ofLexemes (h : ofLexemes tokens = .error e) :
    StartsIn tokens e.refusal.opened := by
  rcases refused_of_ofLexemes h with
    ⟨r, hrun, hfinish, -⟩ | ⟨accepted, l, us, r, rfl, hrun, hstep, -⟩
  · obtain ⟨start, hopened, hstart⟩ := exists_sceneUpTo hrun hfinish
    rw [hstart]
    exact hopened.startsIn
  · rcases opened_of_step hstep with hnone | ⟨expected, hfinish⟩
    · rw [hnone]
      exact startsIn_none
    · obtain ⟨start, hopened, hstart⟩ := exists_sceneUpTo hrun hfinish
      rw [hstart]
      exact hopened.startsIn.mono (List.subset_append_left _ _)

/-- Some consecutive tokens of a source denote its text from the first to the last of them. -/
theorem denotes_of_infix {us : List Lexeme} (htokens : tokenize source = .ok tokens)
    (hus : us <:+: tokens) :
    ∃ n m, Abut n (us.map (·.span)) m ∧ (Span.mk n m).Denotes source := by
  obtain ⟨n, m, habut, hcuts, -⟩ := tokenize_infix htokens hus
  exact ⟨n, m, habut, Span.denotes_of_cuts habut.le hcuts⟩

theorem denotes_of_mem {l : Lexeme} (htokens : tokenize source = .ok tokens) (hl : l ∈ tokens) :
    l.span.Denotes source := by
  obtain ⟨before, after, rfl⟩ := List.append_of_mem hl
  have hinfix : [l] <:+: before ++ l :: after := ⟨before, after, by simp⟩
  obtain ⟨n, m, habut, hdenotes⟩ := denotes_of_infix htokens hinfix
  rw [List.map_singleton] at habut
  rw [habut.singleton_eq]
  exact hdenotes

/-- A token of a source and the last one together denote the text from the one to the end. -/
theorem denotes_join_getLast {first last : Lexeme} (htokens : tokenize source = .ok tokens)
    (hfirst : first ∈ tokens) (hlast : last ∈ tokens.getLast?) :
    (first.span.join last.span).Denotes source := by
  obtain ⟨before, after, rfl⟩ := List.append_of_mem hfirst
  obtain ⟨n, m, habut, hdenotes⟩ :=
    denotes_of_infix htokens (List.suffix_append before (first :: after)).isInfix
  have hspan : last.span ∈ ((first :: after).map (·.span)).getLast? := by
    rw [List.getLast?_append_of_ne_nil _ (List.cons_ne_nil _ _)] at hlast
    rw [List.getLast?_map, Option.mem_def.mp hlast]
    rfl
  have hjoin : first.span.join last.span = ⟨first.span.start, m⟩ :=
    habut.join_getLast (List.mem_map_of_mem List.mem_cons_self) hspan
  rw [hjoin, habut.start_eq]
  exact hdenotes

/-- All labels of a syntax error denote text of the source. -/
theorem SyntaxError.denotes_labels (htokens : tokenize source = .ok tokens)
    (h : Section.ofLexemes tokens = .error e) :
    ∀ label ∈ e.diagnostic.labels, label.span.Denotes source := by
  have hopened : ∀ start ∈ e.refusal.opened, ∃ l ∈ tokens, l.span = start :=
    Section.startsIn_of_ofLexemes h
  obtain ⟨last, hlast, hspan⟩ := Section.last_of_ofLexemes_eq_error h
  obtain ⟨accepted, rest, r, hsplit, -, -, hfound, -⟩ := Section.exists_accepted h
  intro label hlabel
  rw [diagnostic] at hlabel
  cases hnext : e.found with
  | some l =>
    simp only [hnext, List.mem_cons, Option.mem_toList, Option.map_eq_some_iff,
      Option.filter_eq_some_iff] at hlabel
    rcases hlabel with rfl | ⟨start, ⟨hstart, -⟩, rfl⟩
    · rw [hfound] at hnext
      refine denotes_of_mem htokens ?_
      rw [hsplit]
      exact List.mem_append_right _ (List.mem_of_find?_eq_some hnext)
    · obtain ⟨l', hl', rfl⟩ := hopened start hstart
      exact denotes_of_mem htokens hl'
  | none =>
    simp only [hnext, List.mem_singleton] at hlabel
    subst hlabel
    rw [hspan]
    cases hstart : e.refusal.opened with
    | none => exact denotes_of_mem htokens (List.mem_of_getLast? hlast)
    | some start =>
      obtain ⟨first, hfirst, rfl⟩ := hopened start hstart
      exact denotes_join_getLast htokens hfirst hlast

end SceneDiagram
