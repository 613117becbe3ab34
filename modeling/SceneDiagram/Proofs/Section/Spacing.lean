import SceneDiagram.Proofs.Section.Continuation
import SceneDiagram.Proofs.Section.Placement

/-!
# Where trivia counts

`spaced` keeps of a list of tokens those that count, each with whether trivia stands right before
it. Reading depends on nothing else (`ofLexemes_eq_skim`), and on a gap only where the token before
it and the token after it would be read together if they touched (`Token.binds`). So trivia can be
put into all other gaps and taken out of them without any change but that of the places
(`Section.ofLexemes_respaced`).
-/

namespace SceneDiagram

open Text

/-- Whether a token is read together with the next one when the two touch: a word is the name of a
call, a mark makes a string another value, and a bracket ends the type of a call. -/
def Token.binds : Token → Token → Bool
  | .word _, .punct .leftParen | .word _, .punct .leftBracket => true
  | .punct .ampersand, .string _ | .punct .caret, .string _ => true
  | .punct .rightBracket, .punct .leftParen => true
  | _, _ => false

/-- A token that counts, and whether trivia stands right before it. -/
structure Spaced where
  gap : Bool
  lexeme : Lexeme
deriving Repr, DecidableEq

/-- A token that counts at another place. -/
def Spaced.mapSpan (f : Span → Span) (x : Spaced) : Spaced :=
  { x with lexeme := x.lexeme.mapSpan f }

/-- The tokens of a list that count, where `gap` tells whether trivia stands before the list. -/
def spaced : (gap : Bool) → List Lexeme → List Spaced
  | _, [] => []
  | gap, l :: ts => if l.token.isTrivia then spaced true ts else ⟨gap, l⟩ :: spaced false ts

section

variable {gap : Bool} {l : Lexeme} {ts us : List Lexeme}

@[simp] theorem spaced_nil : spaced gap [] = [] := rfl

theorem spaced_cons_of_isTrivia (hl : l.token.isTrivia = true) :
    spaced gap (l :: ts) = spaced true ts := if_pos hl

theorem spaced_cons_of_not_isTrivia (hl : l.token.isTrivia = false) :
    spaced gap (l :: ts) = ⟨gap, l⟩ :: spaced false ts := by
  rw [spaced, hl]
  rfl

theorem map_lexeme_spaced (gap : Bool) (ts : List Lexeme) :
    (spaced gap ts).map (·.lexeme) = ts.filter (! ·.token.isTrivia) := by
  induction ts generalizing gap with
  | nil => rfl
  | cons l ts ih =>
    cases hl : l.token.isTrivia with
    | true => simp [spaced_cons_of_isTrivia hl, hl, ih]
    | false => simp [spaced_cons_of_not_isTrivia hl, hl, ih]

theorem isTrivia_of_mem_spaced {x : Spaced} (hx : x ∈ spaced gap ts) :
    x.lexeme.token.isTrivia = false := by
  have hmem : x.lexeme ∈ (spaced gap ts).map (·.lexeme) := List.mem_map_of_mem hx
  rw [map_lexeme_spaced] at hmem
  simpa using (List.mem_filter.mp hmem).2

end

namespace SectionReader

variable {r r' next : SectionReader} {l m : Lexeme} {ts : List Lexeme} {x : Spaced}
  {xs ys : List Spaced} {e : Refusal} {slot : Slot} {v : Value}

/-! ## What a gap does to a reader -/

/-- What trivia does to a reader: it settles a word, and where the next token has to touch the last
one it is refused. -/
def pause (r : SectionReader) : Except Refusal SectionReader :=
  match r.word with
  | some _ => .ok r.settle
  | none =>
    match r.stage with
    | .text _ _ start => .error ⟨.string, some start⟩
    | .openArgs _ t _ => .error ⟨.mark .leftParen, some t.start⟩
    | _ => .ok r

theorem step_eq_pause (hl : l.token.isTrivia = true) : r.step l = r.pause := by
  obtain ⟨done, body, stage, word⟩ := r
  obtain ⟨token, a⟩ := l
  cases word with
  | none =>
    cases stage with
    | text slot kind start =>
      cases token with
      | string | number | word | punct => cases hl
      | _ => rfl
    | openArgs slot t param =>
      have hmark : token ≠ .punct .leftParen := by
        rintro rfl
        cases hl
      simp only [step, hl, Stage.isTight, Bool.not_true, Bool.and_false, stepSettled, stepMark,
        hmark, if_false, pause]
      rfl
    | _ => exact step_of_isTrivia rfl rfl hl
  | some held =>
    have hparen : token ≠ .punct .leftParen := by
      rintro rfl
      cases hl
    have hbracket : token ≠ .punct .leftBracket := by
      rintro rfl
      cases hl
    simp only [step, hparen, hbracket, hl, if_true, if_false, pause]

/-- A reader that is refused a gap is at a place where the tokens cannot end either. -/
theorem finish_of_pause_eq_error (h : r.pause = .error e) : r.finish = .error e := by
  obtain ⟨done, body, stage, word⟩ := r
  cases word with
  | some held => cases h
  | none =>
    cases stage with
    | text | openArgs =>
      obtain rfl := Except.error.inj h
      rfl
    | _ => cases h

theorem pause_of_isTight_eq_false (hword : r.word = none) (hloose : r.stage.isTight = false) :
    r.pause = .ok r := by
  obtain ⟨done, body, stage, word⟩ := r
  obtain rfl : word = none := hword
  cases stage <;> first | rfl | cases hloose

/-- A gap is a gap, however much trivia is in it. -/
theorem pause_of_pause_eq_ok (h : r.pause = .ok r') : r'.pause = .ok r' := by
  obtain ⟨done, body, stage, word⟩ := r
  cases word with
  | some held =>
    obtain rfl : settle _ = r' := Except.ok.inj h
    exact pause_of_isTight_eq_false receive_word isTight_receive
  | none =>
    cases stage with
    | text | openArgs => cases h
    | _ =>
      obtain rfl := Except.ok.inj h
      rfl

theorem finish_of_pause_eq_ok (h : r.pause = .ok r') : r'.finish = r.finish := by
  obtain ⟨done, body, stage, word⟩ := r
  cases word with
  | some held =>
    obtain rfl : settle _ = r' := Except.ok.inj h
    have hsettled : (settle ⟨done, body, stage, some held⟩).settle =
        settle ⟨done, body, stage, some held⟩ := settle_of_word_eq_none receive_word
    rw [finish, finish, hsettled]
  | none =>
    cases stage with
    | text | openArgs => cases h
    | _ =>
      obtain rfl := Except.ok.inj h
      rfl

/-! ## Reading the tokens that count -/

/-- Moves a reader over a token that counts and the gap before it. -/
def enter (r : SectionReader) (x : Spaced) : Except Refusal SectionReader :=
  if x.gap then r.pause.bind (·.step x.lexeme) else r.step x.lexeme

/-- The sections that come of the tokens that count, or why and at which of them reading ends. -/
def skim : SectionReader → List Spaced → Except (Refusal × Option Lexeme) (List Section)
  | r, [] => r.finish.mapError (·, none)
  | r, x :: xs =>
    match r.enter x with
    | .ok next => next.skim xs
    | .error e => .error (e, some x.lexeme)

/-- The sections that come of tokens, or why reading ends and the first token from there on that
counts. -/
def outcome (r : SectionReader) (ts : List Lexeme) :
    Except (Refusal × Option Lexeme) (List Section) :=
  match r.run ts with
  | .ok last => last.finish.mapError (·, none)
  | .error (e, rest) => .error (e, rest.find? (! ·.token.isTrivia))

theorem outcome_cons : r.outcome (l :: ts) =
    match r.step l with
    | .ok next => next.outcome ts
    | .error e => .error (e, (l :: ts).find? (! ·.token.isTrivia)) := by
  rw [outcome, run]
  cases r.step l <;> rfl

/-- Reading depends on the tokens that count and the gaps before them. The induction goes through
the tokens one by one and keeps apart whether the reader stands after trivia. -/
theorem outcome_eq_skim_and_pause (ts : List Lexeme) : ∀ r : SectionReader,
    r.outcome ts = r.skim (spaced false ts) ∧
      (match r.pause with
        | .ok r' => r'.outcome ts
        | .error e => .error (e, ts.find? (! ·.token.isTrivia))) = r.skim (spaced true ts) := by
  induction ts with
  | nil =>
    intro r
    refine ⟨rfl, ?_⟩
    cases hpause : r.pause with
    | ok r' => exact congrArg (Except.mapError (·, none)) (finish_of_pause_eq_ok hpause)
    | error e =>
      simp only [spaced_nil, skim, finish_of_pause_eq_error hpause]
      rfl
  | cons l ts ih =>
    intro r
    cases hl : l.token.isTrivia with
    | true =>
      have hfind : (l :: ts).find? (! ·.token.isTrivia) = ts.find? (! ·.token.isTrivia) := by
        simp [hl]
      rw [spaced_cons_of_isTrivia hl, spaced_cons_of_isTrivia hl, ← (ih r).2, hfind]
      constructor
      · rw [outcome_cons, step_eq_pause hl, hfind]
      · cases hpause : r.pause with
        | error e => rfl
        | ok r' => simp only [outcome_cons, step_eq_pause hl, pause_of_pause_eq_ok hpause]
    | false =>
      have hfind : (l :: ts).find? (! ·.token.isTrivia) = some l := by simp [hl]
      rw [spaced_cons_of_not_isTrivia hl, spaced_cons_of_not_isTrivia hl, hfind]
      constructor
      · rw [outcome_cons, hfind, skim, enter]
        cases hstep : r.step l with
        | error e => simp
        | ok next => simp [(ih next).1]
      · rw [skim, enter]
        cases hpause : r.pause with
        | error e => rfl
        | ok r' =>
          simp only [outcome_cons, hfind, if_true, Except.bind]
          cases hstep : r'.step l with
          | error e => rfl
          | ok next => exact (ih next).1

theorem outcome_eq_skim : r.outcome ts = r.skim (spaced false ts) :=
  (outcome_eq_skim_and_pause ts r).1

/-! ## Gaps that do not count -/

/-- Whether a reader would take the next token together with the last one. -/
def Joins (r : SectionReader) (l : Lexeme) : Prop :=
  match r.word with
  | some _ => l.token = .punct .leftParen ∨ l.token = .punct .leftBracket
  | none =>
    match r.stage with
    | .text .. => ∃ s, l.token = .string s
    | .openArgs .. => l.token = .punct .leftParen
    | _ => False

theorem not_joins_of_isTight_eq_false (hword : r.word = none) (hloose : r.stage.isTight = false) :
    ¬ r.Joins l := by
  obtain ⟨done, body, stage, word⟩ := r
  obtain rfl : word = none := hword
  cases stage <;> first | exact id | cases hloose

/-- A gap makes no difference to a token that the reader would not take together with the last. -/
theorem pause_bind_step (hl : l.token.isTrivia = false) (h : ¬ r.Joins l) :
    r.pause.bind (·.step l) = r.step l := by
  obtain ⟨done, body, stage, word⟩ := r
  cases word with
  | some held =>
    obtain ⟨hparen, hbracket⟩ := not_or.mp h
    have hloose : (settle ⟨done, body, stage, some held⟩).word = none := receive_word
    have hstep := step_of_not_isTrivia hloose hl
    simp only [pause, Except.bind, hstep]
    simp only [step, hparen, hbracket, hl, if_false]
    rfl
  | none =>
    cases stage with
    | text slot kind start =>
      obtain ⟨token, a⟩ := l
      rw [step_of_not_isTrivia rfl hl]
      cases token with
      | string s => exact absurd ⟨s, rfl⟩ h
      | _ => rfl
    | openArgs slot t param =>
      rw [step_of_not_isTrivia rfl hl]
      exact (if_neg h).symm
    | _ => rfl

theorem enter_congr {x y : Spaced} (hlexeme : x.lexeme = y.lexeme)
    (hx : x.lexeme.token.isTrivia = false) (hgap : r.Joins x.lexeme → x.gap = y.gap) :
    r.enter x = r.enter y := by
  obtain ⟨gap, l⟩ := x
  obtain ⟨gap', l'⟩ := y
  obtain rfl : l = l' := hlexeme
  by_cases hjoins : r.Joins l
  · obtain rfl : gap = gap' := hgap hjoins
    rfl
  · have hpause := pause_bind_step hx hjoins
    cases gap <;> cases gap' <;> simp [enter, hpause]

theorem not_joins_receive : ¬ (r.receive slot v).Joins m :=
  not_joins_of_isTight_eq_false receive_word isTight_receive

theorem not_joins_moveTo {stage : Stage} (h : stage.isTight = false) :
    ¬ (r.moveTo stage).Joins m :=
  not_joins_of_isTight_eq_false rfl h

theorem binds_of_stepValue (h : r.stepValue slot l = .ok next) (hjoins : next.Joins m) :
    l.token.binds m.token = true := by
  obtain ⟨token, a⟩ := l
  cases token with
  | string s =>
    obtain rfl := Except.ok.inj h
    exact absurd hjoins not_joins_receive
  | number n =>
    obtain rfl := Except.ok.inj h
    exact absurd hjoins not_joins_receive
  | word w =>
    obtain rfl := Except.ok.inj h
    rcases hjoins with hm | hm <;> simp [hm, Token.binds]
  | punct p =>
    cases p with
    | ampersand | caret =>
      obtain rfl := Except.ok.inj h
      obtain ⟨s, hm⟩ := hjoins
      simp [hm, Token.binds]
    | leftBracket | leftBrace =>
      obtain rfl := Except.ok.inj h
      exact absurd hjoins (not_joins_moveTo rfl)
    | _ => cases h
  | _ => cases h

theorem binds_of_stepItem (h : r.stepItem slot l = .ok next) (hjoins : next.Joins m) :
    l.token.binds m.token = true := by
  unfold stepItem at h
  split at h
  · split at h
    · obtain rfl := Except.ok.inj h
      exact absurd hjoins not_joins_receive
    · exact binds_of_stepValue h hjoins
  · exact binds_of_stepValue h hjoins

theorem not_joins_of_stepSeparator {g : Group} (h : r.stepSeparator slot g l = .ok next) :
    ¬ next.Joins m := by
  rcases stepSeparator_eq_ok_iff.mp h with ⟨-, rfl⟩ | ⟨-, rfl⟩
  · exact not_joins_receive
  · exact not_joins_moveTo rfl

theorem not_joins_of_stepMark {mark : Punct} {start : Span} {stage : Stage}
    (hloose : stage.isTight = false) (h : r.stepMark mark start stage l = .ok next) :
    ¬ next.Joins m := by
  obtain ⟨-, rfl⟩ := stepMark_eq_ok_iff.mp h
  exact not_joins_moveTo hloose

theorem not_joins_of_stepOutside (h : r.stepOutside l = .ok next) : ¬ next.Joins m := by
  unfold stepOutside at h
  split at h <;> cases h
  · exact id
  · exact not_joins_moveTo rfl

theorem not_joins_of_stepHeader {header : OpenHeader} (h : r.stepHeader header l = .ok next) :
    ¬ next.Joins m := by
  unfold stepHeader at h
  split at h <;> cases h
  · exact not_joins_moveTo rfl
  · exact id

theorem binds_of_stepSettled (h : r.stepSettled l = .ok next) (hjoins : next.Joins m) :
    l.token.binds m.token = true := by
  obtain ⟨done, body, stage, word⟩ := r
  cases stage with
  | outside => exact absurd hjoins (not_joins_of_stepOutside h)
  | tag start =>
    obtain ⟨token, a⟩ := l
    cases token with
    | word w =>
      obtain rfl := Except.ok.inj h
      exact absurd hjoins (not_joins_moveTo rfl)
    | _ => cases h
  | header header => exact absurd hjoins (not_joins_of_stepHeader h)
  | equals header key => exact absurd hjoins (not_joins_of_stepMark rfl h)
  | value slot => exact binds_of_stepItem h hjoins
  | text slot kind start =>
    obtain ⟨token, a⟩ := l
    cases token with
    | string s =>
      obtain rfl := Except.ok.inj h
      exact absurd hjoins not_joins_receive
    | _ => cases h
  | argument slot c key =>
    by_cases hcolon : l.token = .punct .colon
    · simp only [stepSettled, if_pos hcolon] at h
      obtain rfl := Except.ok.inj h
      exact absurd hjoins (not_joins_moveTo rfl)
    · simp only [stepSettled, if_neg hcolon] at h
      exact absurd hjoins (not_joins_of_stepSeparator h)
  | separator slot g => exact absurd hjoins (not_joins_of_stepSeparator h)
  | colon slot d key => exact absurd hjoins (not_joins_of_stepMark rfl h)
  | closeType slot t param =>
    -- The bracket after a type is bound to the one before the arguments.
    obtain ⟨hl, rfl⟩ := stepMark_eq_ok_iff.mp h
    have hm : m.token = .punct .leftParen := hjoins
    simp [hl, hm, Token.binds]
  | openArgs slot t param => exact absurd hjoins (not_joins_of_stepMark rfl h)

/-- What a reader would take together with the next token is bound to it. -/
theorem binds_of_step (hl : l.token.isTrivia = false) (h : r.step l = .ok next)
    (hjoins : next.Joins m) : l.token.binds m.token = true := by
  obtain ⟨done, body, stage, word⟩ := r
  cases word with
  | none =>
    rw [step_of_not_isTrivia rfl hl] at h
    exact binds_of_stepSettled h hjoins
  | some held =>
    simp only [step] at h
    split at h
    · obtain rfl := Except.ok.inj h
      exact absurd hjoins (not_joins_moveTo rfl)
    split at h
    · obtain rfl := Except.ok.inj h
      exact absurd hjoins (not_joins_moveTo rfl)
    rw [hl] at h
    exact binds_of_stepSettled h hjoins

theorem binds_of_enter (hx : x.lexeme.token.isTrivia = false) (h : r.enter x = .ok next)
    (hjoins : next.Joins m) : x.lexeme.token.binds m.token = true := by
  unfold enter at h
  split at h
  · cases hpause : r.pause with
    | error e =>
      rw [hpause] at h
      cases h
    | ok r' =>
      rw [hpause] at h
      exact binds_of_step hx h hjoins
  · exact binds_of_step hx h hjoins

/-- The same tokens are read alike if their gaps agree wherever two of them are bound. The induction
is on the tokens; what a reader would join with the next token is bound to it, so the gap that
decides is one that agrees. -/
theorem skim_congr (hlexemes : xs.map (·.lexeme) = ys.map (·.lexeme))
    (hcounts : ∀ x ∈ xs, x.lexeme.token.isTrivia = false)
    (hfirst : ∀ x ∈ xs.head?, ∀ y ∈ ys.head?, r.Joins x.lexeme → x.gap = y.gap)
    (hgaps : ∀ (n : Nat) (t u v : Spaced), xs[n]? = some t → xs[n + 1]? = some u →
      ys[n + 1]? = some v → t.lexeme.token.binds u.lexeme.token = true → u.gap = v.gap) :
    r.skim xs = r.skim ys := by
  induction xs generalizing r ys with
  | nil =>
    obtain rfl : ys = [] := List.map_eq_nil_iff.mp hlexemes.symm
    rfl
  | cons x xs ih =>
    cases ys with
    | nil => cases hlexemes
    | cons y ys =>
      obtain ⟨hlexeme, hlexemes⟩ : x.lexeme = y.lexeme ∧ xs.map (·.lexeme) = ys.map (·.lexeme) :=
        List.cons.inj hlexemes
      obtain ⟨hx, hcounts⟩ := List.forall_mem_cons.mp hcounts
      have henter : r.enter x = r.enter y := enter_congr hlexeme hx (hfirst x rfl y rfl)
      rw [skim, skim, ← henter, hlexeme]
      cases hnext : r.enter x with
      | error e => rfl
      | ok next =>
        refine ih hlexemes hcounts ?_ fun n t u v ht hu hv => hgaps (n + 1) t u v ht hu hv
        intro x' hx' y' hy' hjoins
        rw [Option.mem_def, List.head?_eq_getElem?] at hx' hy'
        exact hgaps 0 x x' y' rfl hx' hy' (binds_of_enter hx hnext hjoins)

/-! ## Gaps and places -/

/-- What comes of tokens, or why and where reading ends, at other places. -/
def mapResult (f : Span → Span) :
    Except (Refusal × Option Lexeme) (List Section) →
      Except (Refusal × Option Lexeme) (List Section)
  | .ok ss => .ok (ss.map (Section.mapSpan f))
  | .error (e, found) => .error (e.mapSpan f, found.map (Lexeme.mapSpan f))

variable {f : Span → Span} (hf : ∀ a b, f (a.join b) = (f a).join (f b))
include hf

theorem pause_mapSpan : (r.mapSpan f).pause = mapOutcome f (mapSpan f) r.pause := by
  have hsettle := mapSpan_settle hf (r := r)
  obtain ⟨done, body, stage, word⟩ := r
  cases word with
  | some held => exact congrArg Except.ok hsettle.symm
  | none => cases stage <;> rfl

theorem enter_mapSpan :
    (r.mapSpan f).enter (x.mapSpan f) = mapOutcome f (mapSpan f) (r.enter x) := by
  obtain ⟨gap, l⟩ := x
  cases gap with
  | false => exact step_mapSpan hf
  | true =>
    show (r.mapSpan f).pause.bind (·.step (l.mapSpan f)) =
      mapOutcome f (mapSpan f) (r.pause.bind (·.step l))
    rw [pause_mapSpan hf]
    cases r.pause with
    | error e => rfl
    | ok r' => exact step_mapSpan hf

/-- Reading gives the same wherever the tokens stand. -/
theorem skim_mapSpan :
    (r.mapSpan f).skim (xs.map (Spaced.mapSpan f)) = mapResult f (r.skim xs) := by
  induction xs generalizing r with
  | nil =>
    rw [List.map_nil, skim, skim, finish_mapSpan hf]
    cases r.finish <;> rfl
  | cons x xs ih =>
    rw [List.map_cons, skim, skim, enter_mapSpan hf]
    cases r.enter x with
    | error e => rfl
    | ok next => exact ih

end SectionReader

open SectionReader

theorem spaced_map {f : Span → Span} {gap : Bool} {ts : List Lexeme} :
    spaced gap (ts.map (Lexeme.mapSpan f)) = (spaced gap ts).map (Spaced.mapSpan f) := by
  induction ts generalizing gap with
  | nil => rfl
  | cons l ts ih =>
    cases hl : l.token.isTrivia with
    | true =>
      have hl' : (l.mapSpan f).token.isTrivia = true := hl
      rw [List.map_cons, spaced_cons_of_isTrivia hl, spaced_cons_of_isTrivia hl', ih]
    | false =>
      have hl' : (l.mapSpan f).token.isTrivia = false := hl
      rw [List.map_cons, spaced_cons_of_not_isTrivia hl, spaced_cons_of_not_isTrivia hl', ih]
      rfl

/-- Reading looks at the tokens that count and the gaps before them, and at the last of all tokens
only to say where an unfinished source ends. -/
theorem Section.ofLexemes_eq_skim (ts : List Lexeme) :
    Section.ofLexemes ts =
      (initial.skim (spaced false ts)).mapError fun (e, found) =>
        ⟨e, found, (ts.getLast?.map (·.span)).getD .zero⟩ := by
  rw [← outcome_eq_skim, Section.ofLexemes, outcome]
  cases initial.run ts with
  | error e => rfl
  | ok last =>
    simp only []
    cases last.finish <;> rfl

/-- Tokens that count and are read alike up to some change of the places make up sections that are
alike up to this change, or none. Then the same is expected and the same token is found in its
place, if any. -/
theorem Section.ofLexemes_cases {f g : Span → Span} {ts us : List Lexeme}
    (h : mapResult f (initial.skim (spaced false ts)) =
      mapResult g (initial.skim (spaced false us))) :
    (∃ ss ss', Section.ofLexemes ts = .ok ss ∧ Section.ofLexemes us = .ok ss' ∧
      ss.map (Section.mapSpan f) = ss'.map (Section.mapSpan g)) ∨
    ∃ e e', Section.ofLexemes ts = .error e ∧ Section.ofLexemes us = .error e' ∧
      e.refusal.expected = e'.refusal.expected ∧
      e.found.map (·.token) = e'.found.map (·.token) := by
  rw [Section.ofLexemes_eq_skim, Section.ofLexemes_eq_skim]
  cases hts : initial.skim (spaced false ts) with
  | ok ss =>
    cases hus : initial.skim (spaced false us) with
    | ok ss' =>
      rw [hts, hus] at h
      exact .inl ⟨ss, ss', rfl, rfl, Except.ok.inj h⟩
    | error e' =>
      rw [hts, hus] at h
      cases h
  | error e =>
    cases hus : initial.skim (spaced false us) with
    | ok ss' =>
      rw [hts, hus] at h
      cases h
    | error e' =>
      obtain ⟨refusal, found⟩ := e
      obtain ⟨refusal', found'⟩ := e'
      rw [hts, hus] at h
      obtain ⟨hrefusal, hfound⟩ := Prod.mk.inj (Except.error.inj h)
      have hexpected : refusal.expected = refusal'.expected := (Refusal.mk.inj hrefusal).1
      have htoken := congrArg (Option.map (·.token)) hfound
      refine .inr ⟨_, _, rfl, rfl, hexpected, ?_⟩
      simpa [Option.map_map, Function.comp_def, Lexeme.mapSpan] using htoken

/-- A section without the places that it was read from. -/
def Section.unplaced : Section → Section := Section.mapSpan fun _ => .zero

/-- Two lists of tokens with the same tokens that count, and with the same gaps wherever a token is
bound to the next one, are both read or both refused. If they are read, it is as the same sections
up to their places; if they are refused, the same is expected and the same token is found in its
place, if any. -/
theorem Section.ofLexemes_respaced {ts us : List Lexeme}
    (htokens : (ts.filter (! ·.token.isTrivia)).map (·.token) =
      (us.filter (! ·.token.isTrivia)).map (·.token))
    (hgaps : ∀ (n : Nat) (t u v : Spaced), (spaced false ts)[n]? = some t →
      (spaced false ts)[n + 1]? = some u → (spaced false us)[n + 1]? = some v →
      t.lexeme.token.binds u.lexeme.token = true → u.gap = v.gap) :
    (∃ ss ss', Section.ofLexemes ts = .ok ss ∧ Section.ofLexemes us = .ok ss' ∧
      ss.map Section.unplaced = ss'.map Section.unplaced) ∨
    ∃ e e', Section.ofLexemes ts = .error e ∧ Section.ofLexemes us = .error e' ∧
      e.refusal.expected = e'.refusal.expected ∧
      e.found.map (·.token) = e'.found.map (·.token) := by
  have hresult : mapResult (fun _ => .zero) (initial.skim (spaced false ts)) =
      mapResult (fun _ => .zero) (initial.skim (spaced false us)) := by
    rw [← skim_mapSpan (fun _ _ => rfl), ← skim_mapSpan (fun _ _ => rfl)]
    refine skim_congr ?_ ?_ (fun _ _ _ _ hjoins => absurd hjoins id) ?_
    · have hunplaced : ∀ ts : List Lexeme,
          ((spaced false ts).map (Spaced.mapSpan fun _ => .zero)).map (·.lexeme) =
            ((ts.filter (! ·.token.isTrivia)).map (·.token)).map (⟨·, .zero⟩) := by
        intro ts
        rw [← map_lexeme_spaced false]
        simp [Spaced.mapSpan, Lexeme.mapSpan]
      rw [hunplaced, hunplaced, htokens]
    · intro x hx
      obtain ⟨x', hx', rfl⟩ := List.mem_map.mp hx
      show x'.lexeme.token.isTrivia = false
      exact isTrivia_of_mem_spaced hx'
    · intro n t u v ht hu hv hbinds
      rw [List.getElem?_map] at ht hu hv
      obtain ⟨t', ht', rfl⟩ := Option.map_eq_some_iff.mp ht
      obtain ⟨u', hu', rfl⟩ := Option.map_eq_some_iff.mp hu
      obtain ⟨v', hv', rfl⟩ := Option.map_eq_some_iff.mp hv
      exact hgaps n t' u' v' ht' hu' hv' hbinds
  exact Section.ofLexemes_cases hresult

/-- Blanks, a line end and a comment make no difference to a call whose bracket touches its name. -/
theorem Section.ofLexemes_respaced_call :
    let ts : List Lexeme :=
      [⟨.punct .leftBracket, ⟨0, 1⟩⟩, ⟨.word "a", ⟨1, 2⟩⟩, ⟨.punct .rightBracket, ⟨2, 3⟩⟩,
        ⟨.word "k", ⟨3, 4⟩⟩, ⟨.punct .equals, ⟨4, 5⟩⟩, ⟨.word "f", ⟨5, 6⟩⟩,
        ⟨.punct .leftParen, ⟨6, 7⟩⟩, ⟨.punct .rightParen, ⟨7, 8⟩⟩]
    let us : List Lexeme :=
      [⟨.punct .leftBracket, ⟨0, 1⟩⟩, ⟨.word "a", ⟨1, 2⟩⟩, ⟨.punct .rightBracket, ⟨2, 3⟩⟩,
        ⟨.newline, ⟨3, 4⟩⟩, ⟨.word "k", ⟨4, 5⟩⟩, ⟨.space, ⟨5, 6⟩⟩, ⟨.punct .equals, ⟨6, 7⟩⟩,
        ⟨.word "f", ⟨7, 8⟩⟩, ⟨.punct .leftParen, ⟨8, 9⟩⟩, ⟨.comment "c", ⟨9, 11⟩⟩,
        ⟨.newline, ⟨11, 12⟩⟩, ⟨.punct .rightParen, ⟨12, 13⟩⟩]
    (∀ (n : Nat) (t u v : Spaced), (spaced false ts)[n]? = some t →
      (spaced false ts)[n + 1]? = some u → (spaced false us)[n + 1]? = some v →
      t.lexeme.token.binds u.lexeme.token = true → u.gap = v.gap) ∧
    ∃ ss ss', Section.ofLexemes ts = .ok ss ∧ Section.ofLexemes us = .ok ss' ∧
      ss.map Section.unplaced = ss'.map Section.unplaced := by
  intro ts us
  have hgaps : ∀ (n : Nat) (t u v : Spaced), (spaced false ts)[n]? = some t →
      (spaced false ts)[n + 1]? = some u → (spaced false us)[n + 1]? = some v →
      t.lexeme.token.binds u.lexeme.token = true → u.gap = v.gap := by
    have hall : ∀ n < 8, ∀ t ∈ (spaced false ts)[n]?, ∀ u ∈ (spaced false ts)[n + 1]?,
        ∀ v ∈ (spaced false us)[n + 1]?, t.lexeme.token.binds u.lexeme.token = true →
          u.gap = v.gap := by decide
    intro n t u v ht hu hv
    have hn : n < 8 := (List.getElem?_eq_some_iff.mp ht).1
    exact hall n hn t ht u hu v hv
  refine ⟨hgaps, (Section.ofLexemes_respaced (by decide) hgaps).resolve_right ?_⟩
  rintro ⟨e, -, hrefused, -⟩
  cases hrefused

end SceneDiagram
