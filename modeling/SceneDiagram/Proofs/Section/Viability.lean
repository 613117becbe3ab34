import Mathlib.Order.Bounds.Basic
import SceneDiagram.Proofs.Section.Recognition
import SceneDiagram.Proofs.Section.Spacing
import SceneDiagram.Proofs.Section.Interruption

/-!
# A reader refuses as early as it can

Whatever a reader has accepted can go on to a scene source: wherever it stands, a few more tokens
close every open construct (`completable`). So the tokens before the first refused one are the
longest beginning that some source has, and a syntax error is reported right there
(`Section.ofLexemes_refuses`): at the next token that counts, or if there is none, for the construct
that is open.
-/

namespace SceneDiagram

open Text Grammar

namespace SectionReader

variable {r next : SectionReader} {slot : Slot} {g : Group} {d : OpenDict} {l : Lexeme}
  {ts us rest : List Lexeme} {e : Refusal} {v : Value}

/-! ## Closing what is open -/

/-- Some tokens take a reader to the end. -/
def Completable (r : SectionReader) : Prop := ∃ ts sections, Reads r ts (.ok sections)

/-- Once it has the value that is due, a reader can come to the end. -/
def CompletableAfter (slot : Slot) : Prop := ∀ {r : SectionReader} {v : Value},
  (r.receive slot v).Completable

theorem completable_of_step (l : Lexeme) (hstep : r.step l = .ok next) (h : next.Completable) :
    r.Completable := by
  obtain ⟨ts, sections, hreads⟩ := h
  exact ⟨l :: ts, sections, reads_cons.mpr ⟨next, hstep, hreads⟩⟩

theorem completable_of_finish {sections : List Section} (h : r.finish = .ok sections) :
    r.Completable :=
  ⟨[], sections, reads_nil.mpr h⟩

/-- Any string serves as a value. -/
theorem completable_value (h : CompletableAfter slot) :
    (r.moveTo (.value slot)).Completable :=
  completable_of_step ⟨.string "", .zero⟩ (step_value rfl (by rintro ⟨⟩ <;> nofun)) h

theorem completable_separator (h : CompletableAfter slot) :
    (r.moveTo (.separator slot g)).Completable := by
  have hstep : (r.moveTo (.separator slot g)).step ⟨.punct g.closing, .zero⟩ =
      .ok ((r.moveTo (.separator slot g)).receive slot (g.close .zero)) := by
    rw [step_of_not_isTrivia rfl rfl]
    exact stepSeparator_eq_ok_iff.mpr (.inl ⟨rfl, rfl⟩)
  exact completable_of_step _ hstep h

theorem completable_argument {c : OpenCall} (h : CompletableAfter slot) :
    (r.moveTo (.argument slot c v)).Completable :=
  completable_of_step ⟨.punct .rightParen, .zero⟩ rfl h

theorem completable_colon (h : CompletableAfter slot) :
    (r.moveTo (.colon slot d v)).Completable :=
  completable_of_step ⟨.punct .colon, .zero⟩ rfl (completable_value (completable_separator h))

theorem completable_openArgs {t : OpenType} (h : CompletableAfter slot) :
    (r.moveTo (.openArgs slot t v)).Completable :=
  completable_of_step ⟨.punct .leftParen, .zero⟩ rfl
    (completable_of_step ⟨.punct .rightParen, .zero⟩ rfl h)

theorem completable_closeType {t : OpenType} (h : CompletableAfter slot) :
    (r.moveTo (.closeType slot t v)).Completable :=
  completable_of_step ⟨.punct .rightBracket, .zero⟩ rfl (completable_openArgs h)

theorem completable_header {h : OpenHeader} : (r.moveTo (.header h)).Completable :=
  completable_of_step ⟨.punct .rightBracket, .zero⟩ rfl (completable_of_finish rfl)

/-- The constructs around a value are closed one after another, from the inside. -/
theorem completableAfter (slot : Slot) : CompletableAfter slot := by
  obtain ⟨header, key, frames⟩ := slot
  induction frames with
  | nil =>
    intro r v
    cases header with
    | none => exact completable_of_finish rfl
    | some header => exact completable_header
  | cons frame frames ih =>
    intro r v
    cases frame with
    | item g =>
      cases g with
      | array a => exact completable_separator ih
      | dict d => exact completable_colon ih
      | call c => exact completable_argument ih
    | entry d key => exact completable_separator ih
    | pair c key => exact completable_separator ih
    | typeParam t => exact completable_closeType ih

/-- Wherever a reader stands, some tokens take it to the end. -/
theorem completable (r : SectionReader) : r.Completable := by
  obtain ⟨done, body, stage, word⟩ := r
  cases word with
  | some held => exact completable_of_step ⟨.space, .zero⟩ rfl (completableAfter held.1)
  | none =>
    let r : SectionReader := ⟨done, body, .outside, none⟩
    show (r.moveTo stage).Completable
    cases stage with
    | outside => exact completable_of_finish rfl
    | tag start => exact completable_of_step ⟨.word "", .zero⟩ rfl completable_header
    | header h => exact completable_header
    | equals header key =>
      exact completable_of_step ⟨.punct .equals, .zero⟩ rfl (completable_value (completableAfter _))
    | value slot => exact completable_value (completableAfter slot)
    | text slot kind start =>
      exact completable_of_step ⟨.string "", .zero⟩ rfl (completableAfter slot)
    | argument slot c key => exact completable_argument (completableAfter slot)
    | separator slot g => exact completable_separator (completableAfter slot)
    | colon slot d key => exact completable_colon (completableAfter slot)
    | closeType slot t param => exact completable_closeType (completableAfter slot)
    | openArgs slot t param => exact completable_openArgs (completableAfter slot)

/-! ## Reading in two parts -/

theorem run_append (ts us : List Lexeme) : r.run (ts ++ us) =
    match r.run ts with
    | .ok next => next.run us
    | .error (e, rest) => .error (e, rest ++ us) := by
  induction ts generalizing r with
  | nil => rfl
  | cons l ts ih =>
    rw [List.cons_append, run, run]
    cases r.step l with
    | ok next => exact ih
    | error e => rfl

/-- What a reader refuses is one token, after others that it has accepted. -/
theorem exists_of_run_eq_error (h : r.run ts = .error (e, rest)) :
    ∃ accepted l us next, ts = accepted ++ l :: us ∧ rest = l :: us ∧
      r.run accepted = .ok next ∧ next.step l = .error e := by
  induction ts generalizing r with
  | nil => cases h
  | cons l ts ih =>
    rw [run] at h
    cases hstep : r.step l with
    | error e' =>
      rw [hstep] at h
      cases h
      exact ⟨[], l, ts, r, rfl, rfl, rfl, hstep⟩
    | ok next =>
      rw [hstep] at h
      obtain ⟨accepted, m, us, last, rfl, rfl, hrun, hlast⟩ := ih h
      refine ⟨l :: accepted, m, us, last, rfl, rfl, ?_, hlast⟩
      rw [run, hstep]
      exact hrun

end SectionReader

open SectionReader

/-- Tokens that can go on to a scene source. -/
def Section.Extendable (ts : List Lexeme) : Prop :=
  ∃ us sections, Section.ofLexemes (ts ++ us) = .ok sections

namespace Section

variable {tokens ts us : List Lexeme} {e : SyntaxError}

/-- Tokens are no scene source where a reader takes them all and is refused the end, or where it
refuses one of them. -/
theorem refused_of_ofLexemes (h : ofLexemes tokens = .error e) :
    (∃ r, initial.run tokens = .ok r ∧ r.finish = .error e.refusal ∧ e.found = none) ∨
      ∃ accepted l us r, tokens = accepted ++ l :: us ∧ initial.run accepted = .ok r ∧
        r.step l = .error e.refusal ∧ e.found = (l :: us).find? (! ·.token.isTrivia) := by
  rw [ofLexemes] at h
  cases hrun : initial.run tokens with
  | ok r =>
    simp only [hrun] at h
    cases hfinish : r.finish with
    | ok sections => simp [hfinish] at h
    | error refusal =>
      simp only [hfinish, Except.error.injEq] at h
      subst h
      exact .inl ⟨r, rfl, hfinish, rfl⟩
  | error refused =>
    obtain ⟨refusal, rest⟩ := refused
    obtain ⟨accepted, l, us, r, rfl, rfl, haccepted, hstep⟩ := exists_of_run_eq_error hrun
    simp only [hrun, Except.error.injEq] at h
    subst h
    exact .inr ⟨accepted, l, us, r, rfl, haccepted, hstep, rfl⟩

/-- Tokens can go on to a scene source as long as a reader refuses none of them. -/
theorem extendable_iff : Extendable ts ↔ ∃ r, initial.run ts = .ok r := by
  constructor
  · rintro ⟨us, sections, h⟩
    obtain ⟨last, hrun, -⟩ := ofLexemes_eq_ok_iff.mp h
    rw [run_append] at hrun
    cases hts : initial.run ts with
    | ok r => exact ⟨r, rfl⟩
    | error e =>
      rw [hts] at hrun
      cases hrun
  · rintro ⟨r, hr⟩
    obtain ⟨us, sections, last, hrun, hfinish⟩ := completable r
    refine ⟨us, sections, ofLexemes_eq_ok_iff.mpr ⟨last, ?_, hfinish⟩⟩
    rw [run_append, hr]
    exact hrun

/-- Tokens that can go on and do not make up a source break off inside a construct. -/
theorem exists_sceneUpTo {r : SectionReader} {refusal : Refusal} (hrun : initial.run ts = .ok r)
    (hfinish : r.finish = .error refusal) :
    ∃ start, SceneUpTo ts start ∧ refusal.opened = some start := by
  have hreads : Reads initial ts (.error refusal) := ⟨r, hrun, hfinish⟩
  obtain ⟨us, sections, hsections⟩ := extendable_iff.mpr ⟨r, hrun⟩
  rcases (ofLexemes_eq_ok_iff_sceneForm.mp hsections).cut (List.prefix_append ts us) with
    ⟨sections', hscene⟩ | ⟨start, hopened⟩
  · have haccepts := ofLexemes_eq_ok_iff.mp (ofLexemes_eq_ok_iff_sceneForm.mpr hscene)
    cases haccepts.unique hreads
  · obtain ⟨expected, hstops⟩ : Stops initial ts start := stops_of_sceneUpTo hopened
    obtain rfl := Except.error.inj (hreads.unique hstops)
    exact ⟨start, hopened, rfl⟩

/-- The number of tokens that a reader accepts is that of the longest beginning that can go on. -/
theorem isGreatest_extendable (accepted : List Lexeme) {l : Lexeme} {r : SectionReader}
    {refusal : Refusal} (hrun : initial.run accepted = .ok r) (hstep : r.step l = .error refusal) :
    IsGreatest {n | n ≤ (accepted ++ l :: us).length ∧ Extendable ((accepted ++ l :: us).take n)}
      accepted.length := by
  constructor
  · exact ⟨by simp, extendable_iff.mpr ⟨r, by simpa using hrun⟩⟩
  · rintro n ⟨-, hn⟩
    by_contra! hlt
    obtain ⟨m, rfl⟩ := Nat.exists_eq_add_of_lt hlt
    obtain ⟨last, hlast⟩ := extendable_iff.mp hn
    rw [Nat.add_assoc, List.take_length_add_append, List.take_succ_cons, run_append, hrun] at hlast
    simp only [run, hstep] at hlast
    cases hlast

/-- Tokens that are not read fall into those that a reader accepts, as many as can go on to a
source, and the others. If none of these counts, the reader is refused the end there. -/
theorem exists_accepted (h : ofLexemes tokens = .error e) :
    ∃ accepted rest r, tokens = accepted ++ rest ∧ initial.run accepted = .ok r ∧
      IsGreatest {n | n ≤ tokens.length ∧ Extendable (tokens.take n)} accepted.length ∧
      e.found = rest.find? (! ·.token.isTrivia) ∧
      (IsTrivia rest → r.finish = .error e.refusal) := by
  rcases refused_of_ofLexemes h with
    ⟨r, hrun, hfinish, hfound⟩ | ⟨accepted, l, us, r, rfl, hrun, hstep, hfound⟩
  · refine ⟨tokens, [], r, (List.append_nil tokens).symm, hrun, ?_, hfound, fun _ => hfinish⟩
    refine ⟨⟨Nat.le_refl _, ?_⟩, fun n hn => hn.1⟩
    exact extendable_iff.mpr ⟨r, by rwa [List.take_length]⟩
  · refine ⟨accepted, l :: us, r, rfl, hrun, isGreatest_extendable accepted hrun hstep, hfound,
      fun hrest => ?_⟩
    rw [step_eq_pause (isTrivia_cons.mp hrest).1] at hstep
    exact finish_of_pause_eq_error hstep

theorem last_of_ofLexemes_eq_error (h : ofLexemes tokens = .error e) :
    ∃ last ∈ tokens.getLast?, e.last = last.span := by
  cases hlast : tokens.getLast? with
  | none =>
    obtain rfl := List.getLast?_eq_none_iff.mp hlast
    cases h
  | some last =>
    refine ⟨last, rfl, ?_⟩
    rw [ofLexemes, hlast] at h
    split at h
    · cases h
      rfl
    · split at h <;> cases h
      rfl

/-- Tokens that are no scene source have a longest beginning that can go on to one, and reading them
complains about the place where it ends. If a token that counts is left from there on, the first of
these is unexpected: the finding quotes it and is put where it stands. If none is left, the input is
incomplete: of the constructs that are open there one is the innermost, and the finding is put on
the stretch from its first token to the last token of all, which for tokens right one after another
is all the text between the start of the one and the end of the other. -/
theorem ofLexemes_refuses (h : ofLexemes tokens = .error e) :
    ∃ k, IsGreatest {n | n ≤ tokens.length ∧ Extendable (tokens.take n)} k ∧
      match (tokens.drop k).find? (! ·.token.isTrivia) with
      | some l =>
        e.diagnostic.code = some .unexpectedToken ∧
          e.diagnostic.primarySpan? = some l.span ∧
          e.diagnostic.message = "unexpected `" ++ l.token.render ++ "`"
      | none =>
        e.diagnostic.code = some .incompleteInput ∧
          ∃ first ∈ tokens.take k, ∃ last ∈ tokens.getLast?,
            SceneUpTo (tokens.take k) first.span ∧
            (∀ start, SceneUpTo (tokens.take k) start → start = first.span) ∧
            e.diagnostic.primarySpan? = some (first.span.join last.span) ∧
            ∀ n m, Abut n (tokens.map (·.span)) m →
              first.span.join last.span = ⟨first.span.start, m⟩ := by
  obtain ⟨last, hlast, hspan⟩ := last_of_ofLexemes_eq_error h
  obtain ⟨accepted, rest, r, rfl, hrun, hgreatest, hfound, hfinish⟩ := exists_accepted h
  refine ⟨accepted.length, hgreatest, ?_⟩
  rw [List.drop_left, List.take_left]
  obtain ⟨refusal, found, last'⟩ := e
  obtain rfl : found = _ := hfound
  obtain rfl : last' = _ := hspan
  cases hnext : rest.find? (! ·.token.isTrivia) with
  | some l => exact ⟨rfl, rfl, rfl⟩
  | none =>
    obtain ⟨start, hopened, hstart⟩ :=
      exists_sceneUpTo hrun (hfinish (find?_eq_none_iff.mp hnext))
    obtain ⟨first, hfirst, rfl⟩ := hopened.startsIn start rfl
    obtain ⟨expected, opened⟩ := refusal
    obtain rfl : opened = _ := hstart
    refine ⟨rfl, first, hfirst, last, hlast, hopened, fun _ h' => h'.unique hopened, rfl, ?_⟩
    intro n m habut
    apply habut.join_getLast
    · exact List.mem_map_of_mem (List.mem_append_left rest hfirst)
    · rw [List.getLast?_map, Option.mem_def.mp hlast]
      rfl

/-- A mark, a blank and the end: the blank is refused, and as no token that counts is left, the
prefixed string that the mark opens is incomplete. -/
theorem ofLexemes_refuses_blank :
    let tokens : List Lexeme :=
      [⟨.punct .leftBracket, ⟨0, 1⟩⟩, ⟨.word "a", ⟨1, 2⟩⟩, ⟨.punct .rightBracket, ⟨2, 3⟩⟩,
        ⟨.word "k", ⟨3, 4⟩⟩, ⟨.punct .equals, ⟨4, 5⟩⟩, ⟨.punct .ampersand, ⟨5, 6⟩⟩,
        ⟨.space, ⟨6, 7⟩⟩]
    ∃ e, ofLexemes tokens = .error e ∧
      IsGreatest {n | n ≤ tokens.length ∧ Extendable (tokens.take n)} 6 ∧
      SceneUpTo (tokens.take 6) ⟨5, 6⟩ ∧
      e.diagnostic.code = some .incompleteInput ∧
      e.diagnostic.primarySpan? = some ⟨5, 7⟩ := by
  intro tokens
  have hread : ofLexemes tokens = .error ⟨⟨.string, some ⟨5, 6⟩⟩, none, ⟨6, 7⟩⟩ := rfl
  have hsix : IsGreatest {n | n ≤ tokens.length ∧ Extendable (tokens.take n)} 6 :=
    isGreatest_extendable (tokens.take 6) rfl rfl
  obtain ⟨k, hk, hfinding⟩ := ofLexemes_refuses hread
  obtain rfl : k = 6 := hk.unique hsix
  obtain ⟨hcode, first, -, last, hlast, hopened, hunique, hlabel, -⟩ := hfinding
  have hmark : SceneUpTo (tokens.take 6) ⟨5, 6⟩ := by
    have hheader := @SectionForm.mk ⟨0, 1⟩ ⟨1, 2⟩ ⟨2, 3⟩ "a" [] [] [] [] [] [] isTrivia_nil .nil
      isTrivia_nil .nil
    have hkey := @PropertyUpTo.value ⟨3, 4⟩ ⟨4, 5⟩ "k" [] [] _ _ isTrivia_nil isTrivia_nil
      (@ValueUpTo.stringName ⟨5, 6⟩)
    have hbody := @SectionUpTo.inBody _ [] _ _ _ hheader isTrivia_nil hkey
    exact @SceneUpTo.last [] _ _ isTrivia_nil hbody
  refine ⟨_, hread, hsix, hmark, hcode, ?_⟩
  obtain rfl := Option.some.inj hlast
  rw [hlabel, ← hunique _ hmark]
  rfl

end Section

end SceneDiagram
