import SceneDiagram.Proofs.Section.Refusal

/-!
# What a syntax error expects

A syntax error quotes a token and says what was expected in its place. What is expected is never a
description of the token that a reader refuses (`not_describes_of_step`). The token that is quoted
is another one where the refused one is trivia, which happens in two places only: behind the mark of
a prefixed string and between the brackets of a typed call. There the error may well quote what it
expects, and complain of nothing but the gap (`Section.ofLexemes_complains`).
-/

namespace SceneDiagram

open Text Grammar

namespace Expectation

/-- The tokens that an expectation describes. Those that a value can begin with are read off the
grammar. -/
inductive Describes : Expectation → Token → Prop
  | string {s : String} : Describes .string (.string s)
  | value {l : Lexeme} {ts : List Lexeme} {v : Value} : ValueForm (l :: ts) v →
      Describes .value l.token
  | comma {close : Punct} : Describes (.commaOr close) (.punct .comma)
  | close {close : Punct} : Describes (.commaOr close) (.punct close)
  | mark {mark : Punct} : Describes (.mark mark) (.punct mark)
  | sectionHeader : Describes .sectionHeader (.punct .leftBracket)
  | sectionTag {w : String} : Describes .sectionTag (.word w)
  | headerKey {w : String} : Describes .headerItem (.word w)
  | headerEnd : Describes .headerItem (.punct .rightBracket)

/-- What has to touch the token before it: a string its mark, and the arguments of a typed call the
bracket that closes the type. -/
inductive Touches : Token → Expectation → Prop
  | stringName : Touches (.punct .ampersand) .string
  | nodePath : Touches (.punct .caret) .string
  | arguments : Touches (.punct .rightBracket) (.mark .leftParen)

variable {token : Token} {punct close : Punct}

theorem describes_string_iff : Describes .string token ↔ ∃ s, token = .string s := by
  constructor
  · rintro ⟨⟩
    exact ⟨_, rfl⟩
  · rintro ⟨s, rfl⟩
    exact .string

theorem describes_commaOr_iff :
    Describes (.commaOr close) token ↔ token = .punct .comma ∨ token = .punct close := by
  constructor
  · rintro (_ | _)
    · exact .inl rfl
    · exact .inr rfl
  · rintro (rfl | rfl)
    · exact .comma
    · exact .close

theorem describes_mark_iff : Describes (.mark punct) token ↔ token = .punct punct := by
  constructor
  · rintro ⟨⟩
    rfl
  · rintro rfl
    exact .mark

theorem describes_sectionHeader_iff :
    Describes .sectionHeader token ↔ token = .punct .leftBracket := by
  constructor
  · rintro ⟨⟩
    rfl
  · rintro rfl
    exact .sectionHeader

theorem describes_sectionTag_iff : Describes .sectionTag token ↔ ∃ w, token = .word w := by
  constructor
  · rintro ⟨⟩
    exact ⟨_, rfl⟩
  · rintro ⟨w, rfl⟩
    exact .sectionTag

theorem describes_headerItem_iff :
    Describes .headerItem token ↔ (∃ w, token = .word w) ∨ token = .punct .rightBracket := by
  constructor
  · rintro (_ | _)
    · exact .inl ⟨_, rfl⟩
    · exact .inr rfl
  · rintro (⟨w, rfl⟩ | rfl)
    · exact .headerKey
    · exact .headerEnd

/-- All expectations. -/
def all : List Expectation :=
  [string, value, sectionHeader, sectionTag, headerItem] ++
    Punct.all.map commaOr ++ Punct.all.map mark

theorem mem_all (x : Expectation) : x ∈ all := by
  have hpunct : ∀ p : Punct, p ∈ Punct.all := by rintro ⟨⟩ <;> decide
  cases x with
  | commaOr p => simp [all, hpunct p]
  | mark p => simp [all, hpunct p]
  | _ => simp [all]

/-- No two expectations are put in the same words. -/
theorem render_injective : Function.Injective render := by
  have hnodup : (all.map render).Nodup := by decide
  exact fun x y h => List.inj_on_of_nodup_map hnodup (mem_all x) (mem_all y) h

end Expectation

open Expectation

namespace SectionReader

variable {r next : SectionReader} {l m : Lexeme} {refusal : Refusal} {slot : Slot}

/-! ## The token that is refused -/

theorem not_describes_of_stepValue (h : r.stepValue slot l = .error refusal) :
    ¬ refusal.expected.Describes l.token := by
  obtain ⟨expected, opened⟩ := refusal
  obtain ⟨token, span⟩ := l
  obtain rfl : expected = .value := by
    unfold stepValue at h
    split at h <;> cases h
    rfl
  intro hdescribes
  generalize ht : token = t at hdescribes
  cases hdescribes with
  | value hform => cases hform <;> subst ht <;> cases h

theorem not_describes_of_stepItem (h : r.stepItem slot l = .error refusal) :
    ¬ refusal.expected.Describes l.token := by
  unfold stepItem at h
  split at h
  · split at h
    · cases h
    · exact not_describes_of_stepValue h
  · exact not_describes_of_stepValue h

theorem not_describes_of_stepSeparator {g : Group} (h : r.stepSeparator slot g l = .error refusal) :
    ¬ refusal.expected.Describes l.token := by
  unfold stepSeparator at h
  split at h
  · cases h
  split at h
  · cases h
  next hclose hcomma =>
    cases h
    rw [describes_commaOr_iff, not_or]
    exact ⟨hcomma, hclose⟩

theorem not_describes_of_stepMark {mark : Punct} {start : Span} {stage : Stage}
    (h : r.stepMark mark start stage l = .error refusal) :
    ¬ refusal.expected.Describes l.token := by
  unfold stepMark at h
  split at h
  · cases h
  next hmark =>
    cases h
    rwa [describes_mark_iff]

/-- The token that a reader refuses is none that it expects. -/
theorem not_describes_of_stepSettled (h : r.stepSettled l = .error refusal) :
    ¬ refusal.expected.Describes l.token := by
  obtain ⟨done, body, stage, word⟩ := r
  cases stage with
  | outside =>
    simp only [stepSettled, stepOutside] at h
    split at h <;> cases h
    next hbracket _ =>
      rw [describes_sectionHeader_iff]
      exact hbracket
  | tag start =>
    simp only [stepSettled] at h
    split at h <;> cases h
    next hword =>
      rw [describes_sectionTag_iff]
      rintro ⟨w, ht⟩
      exact hword w ht
  | header header =>
    simp only [stepSettled, stepHeader] at h
    split at h <;> cases h
    next hword hbracket =>
      rw [describes_headerItem_iff]
      rintro (⟨w, ht⟩ | ht)
      · exact hword w ht
      · exact hbracket ht
  | equals header key => exact not_describes_of_stepMark h
  | value slot => exact not_describes_of_stepItem h
  | text slot kind start =>
    simp only [stepSettled] at h
    split at h <;> cases h
    next hstring =>
      rw [describes_string_iff]
      rintro ⟨s, ht⟩
      exact hstring s ht
  | argument slot c key =>
    simp only [stepSettled] at h
    split at h
    · cases h
    · exact not_describes_of_stepSeparator h
  | separator slot g => exact not_describes_of_stepSeparator h
  | colon slot d key => exact not_describes_of_stepMark h
  | closeType slot t param => exact not_describes_of_stepMark h
  | openArgs slot t param => exact not_describes_of_stepMark h

theorem not_describes_of_step (h : r.step l = .error refusal) :
    ¬ refusal.expected.Describes l.token :=
  not_describes_of_stepSettled (stepSettled_of_step_eq_error h)

/-! ## A gap that is refused -/

theorem pause_receive {v : Value} : (r.receive slot v).pause = .ok (r.receive slot v) :=
  pause_of_isTight_eq_false receive_word isTight_receive

theorem touches_of_stepValue (h : r.stepValue slot l = .ok next)
    (hpause : next.pause = .error refusal) : refusal.expected.Touches l.token := by
  unfold stepValue at h
  split at h <;> cases h
  case h_1 | h_2 =>
    rw [pause_receive] at hpause
    cases hpause
  case h_3 | h_6 | h_7 => cases hpause
  case h_4 ht =>
    cases hpause
    rw [ht]
    exact .stringName
  case h_5 ht =>
    cases hpause
    rw [ht]
    exact .nodePath

theorem touches_of_stepItem (h : r.stepItem slot l = .ok next)
    (hpause : next.pause = .error refusal) : refusal.expected.Touches l.token := by
  unfold stepItem at h
  split at h
  · split at h
    · cases h
      rw [pause_receive] at hpause
      cases hpause
    · exact touches_of_stepValue h hpause
  · exact touches_of_stepValue h hpause

theorem pause_of_stepSeparator {g : Group} (h : r.stepSeparator slot g l = .ok next) :
    next.pause = .ok next := by
  obtain ⟨-, rfl⟩ | ⟨-, rfl⟩ := stepSeparator_eq_ok_iff.mp h
  · exact pause_receive
  · rfl

/-- A gap is refused behind a token only where something has to touch that token. -/
theorem touches_of_stepSettled (h : r.stepSettled l = .ok next)
    (hpause : next.pause = .error refusal) : refusal.expected.Touches l.token := by
  obtain ⟨done, body, stage, word⟩ := r
  cases stage with
  | outside =>
    simp only [stepSettled, stepOutside] at h
    split at h <;> cases h <;> cases hpause
  | tag start =>
    simp only [stepSettled] at h
    split at h <;> cases h
    cases hpause
  | header header =>
    simp only [stepSettled, stepHeader] at h
    split at h <;> cases h <;> cases hpause
  | value slot => exact touches_of_stepItem h hpause
  | text slot kind start =>
    simp only [stepSettled] at h
    split at h <;> cases h
    rw [pause_receive] at hpause
    cases hpause
  | argument slot c key =>
    simp only [stepSettled] at h
    split at h
    · cases h
      cases hpause
    · rw [pause_of_stepSeparator h] at hpause
      cases hpause
  | separator slot g =>
    rw [pause_of_stepSeparator h] at hpause
    cases hpause
  | equals | colon | openArgs =>
    obtain ⟨-, rfl⟩ := stepMark_eq_ok_iff.mp h
    cases hpause
  | closeType slot t param =>
    obtain ⟨ht, rfl⟩ := stepMark_eq_ok_iff.mp h
    cases hpause
    rw [ht]
    exact .arguments

theorem touches_of_step (h : r.step l = .ok next) (hpause : next.pause = .error refusal) :
    refusal.expected.Touches l.token := by
  unfold step at h
  split at h
  · next slot w hword =>
    split at h
    · cases h
      cases hpause
    split at h
    · cases h
      cases hpause
    split at h
    · cases h
      rw [settle, hword, pause_receive] at hpause
      cases hpause
    · exact touches_of_stepSettled h hpause
  · next hword =>
    split at h
    · next hloose =>
      cases h
      rw [Bool.and_eq_true, Bool.not_eq_true'] at hloose
      rw [pause_of_isTight_eq_false hword hloose.2] at hpause
      cases hpause
    · exact touches_of_stepSettled h hpause

/-- A reader that refuses a gap has just read the token that has to be touched. -/
theorem exists_touched_of_run {accepted : List Lexeme} (hrun : initial.run accepted = .ok r)
    (hpause : r.pause = .error refusal) :
    ∃ before last, accepted = before ++ [last] ∧ refusal.expected.Touches last.token := by
  obtain rfl | ⟨before, last, rfl⟩ := List.eq_nil_or_concat' accepted
  · cases hrun
    cases hpause
  · rw [run_append] at hrun
    cases hbefore : initial.run before with
    | error refused =>
      rw [hbefore] at hrun
      cases hrun
    | ok previous =>
      rw [hbefore] at hrun
      simp only [run] at hrun
      cases hstep : previous.step last with
      | error refused =>
        rw [hstep] at hrun
        cases hrun
      | ok next =>
        rw [hstep] at hrun
        cases hrun
        exact ⟨before, last, rfl, touches_of_step hstep hpause⟩

end SectionReader

open SectionReader

/-! ## The token that is quoted -/

/-- Trivia stands in a gap that an expectation does not allow. -/
def Expectation.Separated (x : Expectation) (ts : List Lexeme) : Prop :=
  ∃ before last gap, ts = before ++ last :: gap ∧ x.Touches last.token ∧ gap ≠ [] ∧ IsTrivia gap

namespace Section

variable {tokens : List Lexeme} {e : SyntaxError}

/-- A syntax error that quotes a token expects something else there, or the token is what is
expected and should have touched the one before it. -/
theorem not_describes_or_separated {l : Lexeme} (h : ofLexemes tokens = .error e)
    (hfound : e.found = some l) :
    ∃ before after, tokens = before ++ l :: after ∧ l.token.isTrivia = false ∧
      (¬ e.refusal.expected.Describes l.token ∨ e.refusal.expected.Separated before) := by
  rcases refused_of_ofLexemes h with
    ⟨-, -, -, hnone⟩ | ⟨accepted, m, us, r, rfl, hrun, hstep, hrest⟩
  · rw [hnone] at hfound
    cases hfound
  · rw [hrest] at hfound
    obtain ⟨hl, gap, after, hsplit, hgap⟩ := List.find?_eq_some_iff_append.mp hfound
    have hgap : IsTrivia gap := by simpa [IsTrivia] using hgap
    refine ⟨accepted ++ gap, after, by rw [hsplit, List.append_assoc], by simpa using hl, ?_⟩
    cases gap with
    | nil =>
      obtain ⟨rfl, -⟩ := List.cons.inj hsplit
      exact .inl (not_describes_of_step hstep)
    | cons first gap =>
      obtain ⟨rfl, -⟩ := List.cons.inj hsplit
      rw [step_eq_pause (isTrivia_cons.mp hgap).1] at hstep
      obtain ⟨before, last, rfl, htouches⟩ := exists_touched_of_run hrun hstep
      exact .inr ⟨before, last, m :: gap, by simp, htouches, List.cons_ne_nil _ _, hgap⟩

/-- A finding about an unexpected token quotes a token and says what was expected in its place.
Whatever the words describe, the token is nothing of the kind, with one exception: a string that
does not touch its mark, or a bracket that does not touch the type of its call, is quoted as if it
were wrong in itself. -/
theorem ofLexemes_complains (h : ofLexemes tokens = .error e)
    (hcode : e.diagnostic.code = some .unexpectedToken) :
    ∃ before l after words, tokens = before ++ l :: after ∧
      e.diagnostic.message = "unexpected `" ++ l.token.render ++ "`" ∧
      e.diagnostic.labels.head? = some ⟨true, l.span, "expected " ++ words⟩ ∧
      (∃ x : Expectation, x.render = words) ∧
      ∀ x : Expectation, x.render = words → x.Describes l.token → x.Separated before := by
  cases hfound : e.found with
  | none => simp [SyntaxError.diagnostic, hfound] at hcode
  | some l =>
    obtain ⟨before, after, hsplit, -, hdescribes⟩ := not_describes_or_separated h hfound
    refine ⟨before, l, after, e.refusal.expected.render, hsplit, ?_, ?_, ⟨_, rfl⟩, ?_⟩
    · simp only [SyntaxError.diagnostic, hfound]
    · simp only [SyntaxError.diagnostic, hfound, List.head?_cons]
    · intro x hwords hx
      obtain rfl := render_injective hwords
      exact hdescribes.resolve_left (not_not_intro hx)

/-- A parenthesis in the place of a value is none that a value can begin with. -/
theorem ofLexemes_complains_parenthesis :
    let tokens : List Lexeme :=
      [⟨.punct .leftBracket, ⟨0, 1⟩⟩, ⟨.word "a", ⟨1, 2⟩⟩, ⟨.punct .rightBracket, ⟨2, 3⟩⟩,
        ⟨.word "k", ⟨3, 4⟩⟩, ⟨.punct .equals, ⟨4, 5⟩⟩, ⟨.punct .rightParen, ⟨5, 6⟩⟩]
    ∃ e, ofLexemes tokens = .error e ∧ e.diagnostic.code = some .unexpectedToken ∧
      e.diagnostic.labels.head? = some ⟨true, ⟨5, 6⟩, "expected value"⟩ ∧
      ¬ Expectation.value.Describes (.punct .rightParen) := by
  intro tokens
  have hread : ofLexemes tokens =
      .error ⟨⟨.value, some ⟨3, 4⟩⟩, some ⟨.punct .rightParen, ⟨5, 6⟩⟩, ⟨5, 6⟩⟩ := rfl
  refine ⟨_, hread, rfl, rfl, fun hvalue => ?_⟩
  obtain ⟨before, l, after, words, hsplit, -, hlabel, -, hwords⟩ := ofLexemes_complains hread rfl
  have htoken : ∀ l ∈ tokens, (⟨5, 6⟩ : Span) = l.span → l.token = .punct .rightParen := by decide
  have hlabels : (⟨true, ⟨5, 6⟩, "expected " ++ "value"⟩ : Label) =
      ⟨true, l.span, "expected " ++ words⟩ := Option.some.inj hlabel
  injection hlabels with _ hspan htext
  have hrender : "value" = words := (String.append_right_inj "expected ").mp htext
  rw [← htoken l (by simp [hsplit]) hspan] at hvalue
  obtain ⟨_, ⟨_, _⟩, _, -, htouches, -⟩ := hwords .value hrender hvalue
  cases htouches

/-- A string behind a blank is quoted where a string is expected, and so is a parenthesis where a
parenthesis is expected. -/
theorem complains_of_expected :
    (∃ tokens e, tokenize "[a]k=& \"x\"" = .ok tokens ∧ ofLexemes tokens = .error e ∧
      e.diagnostic.code = some .unexpectedToken ∧
      e.diagnostic.message = "unexpected `" ++ (Token.string "x").render ++ "`" ∧
      e.diagnostic.labels.head? = some ⟨true, ⟨7, 10⟩, "expected string"⟩ ∧
      Expectation.string.Describes (.string "x")) ∧
    ∃ tokens e, tokenize "[a]k=A[b] (c)" = .ok tokens ∧ ofLexemes tokens = .error e ∧
      e.diagnostic.code = some .unexpectedToken ∧
      e.diagnostic.message = "unexpected `" ++ (Token.punct .leftParen).render ++ "`" ∧
      e.diagnostic.labels.head? = some ⟨true, ⟨10, 11⟩, "expected `(`"⟩ ∧
      (Expectation.mark .leftParen).Describes (.punct .leftParen) := by
  constructor
  · refine ⟨_, _, by cbv, rfl, rfl, rfl, rfl, .string⟩
  · refine ⟨_, _, by cbv, rfl, rfl, rfl, rfl, .mark⟩

end Section

end SceneDiagram
