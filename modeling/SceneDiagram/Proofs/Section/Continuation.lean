import SceneDiagram.Section.Reader
import SceneDiagram.Proofs.Section.Grammar

/-!
# What is still to come

A reader and the tokens that it has not seen yet belong together: `Reads r ts out` says that these
tokens take the reader to the end and that `out` comes of it, sections or the refusal of an end. The
laws here follow the reader over one token. It passes over trivia (`reads_append_trivia`), it
settles a word that no bracket touches (`reads_held`), and wherever it stands, the next token that
counts is one that it accepts (`reads_next`).
-/

namespace SceneDiagram.SectionReader

open Text Grammar

/-- The tokens to come take a reader to the end, and this comes of it there: the sections that it
has read then, or why it cannot end. -/
def Reads (r : SectionReader) (ts : List Lexeme) (out : Except Refusal (List Section)) : Prop :=
  ∃ last, r.run ts = .ok last ∧ last.finish = out

variable {r r' : SectionReader} {stage : Stage} {slot : Slot} {l : Lexeme}
  {ts us rest : List Lexeme} {ss : List Section} {out : Except Refusal (List Section)}
  {v : Value} {w : PlacedWord}

theorem ofLexemes_eq_ok_iff : Section.ofLexemes ts = .ok ss ↔ Reads initial ts (.ok ss) := by
  rw [Section.ofLexemes, Reads]
  cases hrun : initial.run ts with
  | error e => simp
  | ok last => cases hfinish : last.finish <;> simp [hfinish]

theorem reads_nil : Reads r [] out ↔ r.finish = out := by
  simp [Reads, run]

theorem reads_cons : Reads r (l :: ts) out ↔ ∃ next, r.step l = .ok next ∧ Reads next ts out := by
  rw [Reads, run]
  cases hstep : r.step l with
  | error e => simp
  | ok next => simp [Reads]

/-! ## Trivia and settled words -/

theorem step_of_isTrivia (hword : r.word = none) (hloose : r.stage.isTight = false)
    (hl : l.token.isTrivia = true) : r.step l = .ok r := by
  rw [step, hword]
  simp [hl, hloose]

theorem step_of_not_isTrivia (hword : r.word = none) (hl : l.token.isTrivia = false) :
    r.step l = r.stepSettled l := by
  rw [step, hword]
  simp [hl]

theorem reads_append_trivia (hword : r.word = none) (hloose : r.stage.isTight = false)
    (hts : IsTrivia ts) : Reads r (ts ++ us) out ↔ Reads r us out := by
  induction ts with
  | nil => rfl
  | cons l ts ih =>
    obtain ⟨hl, hts⟩ := isTrivia_cons.mp hts
    rw [List.cons_append, reads_cons, step_of_isTrivia hword hloose hl]
    simpa using ih hts

theorem reads_of_isTrivia (hword : r.word = none) (hloose : r.stage.isTight = false)
    (hts : IsTrivia ts) : Reads r ts out ↔ r.finish = out := by
  rw [← List.append_nil ts, reads_append_trivia hword hloose hts, reads_nil]

theorem settle_of_word_eq_none (h : r.word = none) : r.settle = r := by
  rw [settle, h]

theorem receive_word : (r.receive slot v).word = none := by
  unfold receive
  split <;> split <;> rfl

theorem isTight_receive : (r.receive slot v).stage.isTight = false := by
  unfold receive
  split <;> split <;> rfl

/-- The next token is a bracket that makes a call of a word which it touches. -/
def OpensCall (ts : List Lexeme) : Prop :=
  ∃ l ∈ ts.head?, l.token = .punct .leftParen ∨ l.token = .punct .leftBracket

@[simp] theorem not_opensCall_nil : ¬ OpensCall [] := by simp [OpensCall]

@[simp] theorem opensCall_cons :
    OpensCall (l :: ts) ↔ l.token = .punct .leftParen ∨ l.token = .punct .leftBracket := by
  simp [OpensCall]

theorem not_opensCall_of_apart (h : Apart ts) : ¬ OpensCall ts := by
  rintro ⟨l, hl, hopens⟩
  have htrivia := h l hl
  rcases hopens with hl' | hl' <;> simp [hl', Token.isTrivia] at htrivia

theorem not_opensCall_append (hts : IsTrivia ts) (hus : ¬ OpensCall us) :
    ¬ OpensCall (ts ++ us) := by
  cases ts with
  | nil => exact hus
  | cons l ts =>
    apply not_opensCall_of_apart
    simpa [Apart] using (isTrivia_cons.mp hts).1

/-- A word that no bracket touches is a value of its own. -/
theorem reads_held (h : ¬ OpensCall ts) :
    Reads { r with word := some (slot, w) } ts out ↔
      Reads (r.receive slot (.word w.span w.text)) ts out := by
  have hsettle : settle { r with word := some (slot, w) } =
      r.receive slot (.word w.span w.text) := rfl
  cases ts with
  | nil =>
    rw [reads_nil, reads_nil, finish, finish, hsettle, settle_of_word_eq_none receive_word]
  | cons l ts =>
    rw [opensCall_cons, not_or] at h
    have hstep : step { r with word := some (slot, w) } l =
        (r.receive slot (.word w.span w.text)).step l := by
      cases hl : l.token.isTrivia with
      | true => simp [step, h.1, h.2, hl, hsettle, receive_word, isTight_receive]
      | false => simp [step, h.1, h.2, hl, hsettle, receive_word]
    rw [reads_cons, reads_cons, hstep]

/-! ## The next token that counts -/

/-- A reader passes over trivia, and then it either comes to the end or accepts a token. -/
theorem reads_next (hword : r.word = none) (hloose : r.stage.isTight = false)
    (h : Reads r ts out) :
    (IsTrivia ts ∧ r.finish = out) ∨
      ∃ before l rest next, ts = before ++ l :: rest ∧ IsTrivia before ∧
        l.token.isTrivia = false ∧ r.stepSettled l = .ok next ∧ Reads next rest out := by
  induction ts with
  | nil => exact .inl ⟨isTrivia_nil, reads_nil.mp h⟩
  | cons l ts ih =>
    obtain ⟨next, hstep, hnext⟩ := reads_cons.mp h
    cases hl : l.token.isTrivia with
    | false =>
      rw [step_of_not_isTrivia hword hl] at hstep
      exact .inr ⟨[], l, ts, next, rfl, isTrivia_nil, hl, hstep, hnext⟩
    | true =>
      rw [step_of_isTrivia hword hloose hl, Except.ok.injEq] at hstep
      subst hstep
      rcases ih hnext with ⟨hts, hfinish⟩ | ⟨before, m, rest, next, rfl, hbefore, hm⟩
      · exact .inl ⟨isTrivia_cons.mpr ⟨hl, hts⟩, hfinish⟩
      · exact .inr ⟨l :: before, m, rest, next, rfl, isTrivia_cons.mpr ⟨hl, hbefore⟩, hm⟩

/-- Inside a construct the tokens cannot end, so a reader accepts one more after the trivia. -/
theorem reads_next_of_open (hword : r.word = none) (hloose : r.stage.isTight = false)
    (hopen : ∀ ss, r.finish ≠ .ok ss) (h : Reads r ts (.ok ss)) :
    ∃ before l rest next, ts = before ++ l :: rest ∧ IsTrivia before ∧
      l.token.isTrivia = false ∧ r.stepSettled l = .ok next ∧ Reads next rest (.ok ss) :=
  (reads_next hword hloose h).resolve_left fun hend => hopen ss hend.2

/-- Where the next token has to touch the last one, a reader accepts it at once. -/
theorem reads_next_of_tight (hword : r.word = none) (htight : r.stage.isTight = true)
    (hopen : ∀ ss, r.finish ≠ .ok ss) (h : Reads r ts (.ok ss)) :
    ∃ l rest next, ts = l :: rest ∧ r.stepSettled l = .ok next ∧ Reads next rest (.ok ss) := by
  cases ts with
  | nil => exact absurd (reads_nil.mp h) (hopen ss)
  | cons l ts =>
    obtain ⟨next, hstep, hnext⟩ := reads_cons.mp h
    have hsettled : r.step l = r.stepSettled l := by
      rw [step, hword]
      simp [htight]
    exact ⟨l, ts, next, rfl, hsettled ▸ hstep, hnext⟩

theorem stepMark_eq_ok_iff {mark : Punct} {start : Span} {stage : Stage} :
    r.stepMark mark start stage l = .ok r' ↔ l.token = .punct mark ∧ r' = r.moveTo stage := by
  unfold stepMark
  split <;> simp_all [eq_comm]

theorem Group.closing_ne_comma (g : Group) : g.closing ≠ .comma := by
  cases g <;> simp [Group.closing]

/-- After an item comes the mark that closes the group, or a comma. -/
theorem stepSeparator_eq_ok_iff {g : Group} :
    r.stepSeparator slot g l = .ok r' ↔
      (l.token = .punct g.closing ∧ r' = r.receive slot (g.close l.span)) ∨
        (l.token = .punct .comma ∧ r' = r.moveTo (.value (slot.push (.item g)))) := by
  have hcomma := g.closing_ne_comma
  unfold stepSeparator
  split
  · simp_all [eq_comm]
  · split <;> simp_all [eq_comm]

end SceneDiagram.SectionReader
