import SceneDiagram.Proofs.Token.Tiling

/-!
# Words and numbers are read whole

A word or a number goes as far as it can: what comes after it carries no word on (`Word.Ends`). A
word is made of runs of word characters with single colons between them (`Word.Joined`), and
whatever is spelled like a numeral is a number and no word. So a key or a value is never taken apart
into a number and a rest (`tokenize_reads_whole`).
-/

namespace SceneDiagram

open Text

/-! ## Where words end, and what they are made of -/

namespace Word

variable {c : Char} {cs rest : List Char}

/-- A text with which no word goes on: it starts neither with a word character nor with a colon and
a word character. -/
structure Ends (rest : List Char) : Prop where
  char : ∀ c ∈ rest.head?, isWordChar c = false
  colon : ∀ c more, rest = ':' :: c :: more → isWordChar c = false

theorem ends_of_continues_eq_false (h : continues rest = false) : Ends rest := by
  constructor
  · exact isWordChar_head_of_continues_eq_false h
  · intro c more hrest
    subst hrest
    exact (continues_cons_eq_false.mp h).2 rfl

/-- Word characters, and at least one. -/
def IsRun (run : List Char) : Prop := run ≠ [] ∧ ∀ c ∈ run, isWordChar c = true

/-- Runs of word characters with single colons between them. -/
def Joined (text : List Char) : Prop :=
  ∃ runs : List (List Char), runs ≠ [] ∧ (∀ run ∈ runs, IsRun run) ∧
    text = [':'].intercalate runs

theorem isRun_singleton (hc : isWordChar c = true) : IsRun [c] :=
  ⟨List.cons_ne_nil _ _, List.forall_mem_singleton.mpr hc⟩

theorem IsRun.cons (hc : isWordChar c = true) (h : IsRun cs) : IsRun (c :: cs) :=
  ⟨List.cons_ne_nil _ _, List.forall_mem_cons.mpr ⟨hc, h.2⟩⟩

theorem joined_singleton (hc : isWordChar c = true) : Joined [c] :=
  ⟨[[c]], List.cons_ne_nil _ _, List.forall_mem_singleton.mpr (isRun_singleton hc), rfl⟩

/-- One more character makes the first run longer. -/
theorem Joined.cons (hc : isWordChar c = true) (h : Joined cs) : Joined (c :: cs) := by
  obtain ⟨runs, hne, hruns, rfl⟩ := h
  obtain ⟨run, runs, rfl⟩ := List.exists_cons_of_ne_nil hne
  obtain ⟨hrun, hruns⟩ := List.forall_mem_cons.mp hruns
  refine ⟨(c :: run) :: runs, List.cons_ne_nil _ _, ?_, ?_⟩
  · rw [List.forall_mem_cons]
    exact ⟨hrun.cons hc, hruns⟩
  · cases runs with
    | nil => simp
    | cons next runs => simp

/-- One more character and a colon make a run before the others. -/
theorem Joined.cons_colon (hc : isWordChar c = true) (h : Joined cs) : Joined (c :: ':' :: cs) := by
  obtain ⟨runs, hne, hruns, rfl⟩ := h
  obtain ⟨run, runs, rfl⟩ := List.exists_cons_of_ne_nil hne
  refine ⟨[c] :: run :: runs, List.cons_ne_nil _ _, ?_, ?_⟩
  · rw [List.forall_mem_cons]
    exact ⟨isRun_singleton hc, hruns⟩
  · simp

/-- What carries a word on consists, together with the character before it, of runs. -/
theorem Continuing.joined (h : Continuing cs) (hc : isWordChar c = true) : Joined (c :: cs) := by
  induction h generalizing c with
  | nil => exact joined_singleton hc
  | char hd _ ih => exact (ih hd).cons hc
  | colon hd _ ih => exact (ih hd).cons_colon hc

end Word

/-! ## Tokens of each kind -/

variable {token : Token} {text rest cs : List Char} {n : Nat} {w : String} {c : Char}
  {ts us : List Lexeme} {l l' : Lexeme}

/-- A word or a number with a given text. -/
def Token.IsBare (token : Token) (w : String) : Prop := token = .word w ∨ token = .number w

theorem Token.SpelledAs.eq_of_isBare (h : token.SpelledAs text) (hbare : token.IsBare w) :
    text = w.toList := by
  rcases hbare with rfl | rfl
  · exact h.1
  · exact h.1

theorem Token.Stops.ends (h : token.Stops text rest) (hbare : token.IsBare w) : Word.Ends rest := by
  apply Word.ends_of_continues_eq_false
  rcases hbare with rfl | rfl
  · exact h.1
  · exact h

theorem Token.SpelledAs.joined (h : (Token.word w).SpelledAs text) :
    (∃ c ∈ text.head?, Word.isStart c = true) ∧ Word.Joined text := by
  obtain ⟨-, c, more, rfl, hstart, hmore⟩ := h
  exact ⟨⟨c, rfl, hstart⟩, hmore.joined (Word.isWordChar_of_isStart hstart)⟩

/-- A token is a number exactly if its text is a numeral. No token but a word or a number starts as
a numeral does, and a word that stops is none. -/
theorem Token.SpelledAs.form_iff (h : token.SpelledAs text) (hstops : token.Stops text rest) :
    Numeral.Form text ↔ ∃ w, token = .number w := by
  constructor
  · intro hform
    obtain ⟨c, more, rfl⟩ := List.exists_cons_of_ne_nil h.ne_nil
    have hc := hform.isWordChar_or_sign c List.mem_cons_self
    cases token with
    | number w => exact ⟨w, rfl⟩
    | word w =>
      exfalso
      apply hstops.2 [] rest rfl hstops.1
      rwa [List.append_nil]
    | string s =>
      obtain ⟨spelling, heq, -⟩ := h
      obtain ⟨rfl, -⟩ := List.cons.inj heq
      exact absurd hc (by decide)
    | punct p =>
      obtain ⟨rfl, -⟩ := List.cons.inj h
      exact absurd hc (by cases p <;> decide)
    | comment s =>
      obtain ⟨rfl, -⟩ := List.cons.inj h.1
      exact absurd hc (by decide)
    | space =>
      have hspace := h.2 c List.mem_cons_self
      rw [Word.isWordChar_of_isBlank hspace.1] at hc
      rcases hc with hc | rfl | rfl
      · cases hc
      · exact absurd hspace.1 (by decide)
      · exact absurd hspace.1 (by decide)
    | newline =>
      obtain ⟨rfl, -⟩ := List.cons.inj h
      exact absurd hc (by decide)
  · intro hnumber
    obtain ⟨w, rfl⟩ := hnumber
    exact h.2

/-- Where a word ends no word starts, and no number but one with a sign. -/
theorem Token.SpelledAs.eq_sign_of_ends {v : String} (h : token.SpelledAs text)
    (hbare : token.IsBare v) (hends : Word.Ends (text ++ rest)) :
    token = .number v ∧ ∃ c ∈ text.head?, c = '+' ∨ c = '-' := by
  obtain ⟨c, more, rfl⟩ := List.exists_cons_of_ne_nil h.ne_nil
  have hc : Word.isWordChar c = false := hends.char c rfl
  rcases hbare with rfl | rfl
  · exfalso
    obtain ⟨-, d, more', heq, hstart, -⟩ := h
    obtain ⟨rfl, -⟩ := List.cons.inj heq
    rw [Word.isWordChar_of_isStart hstart] at hc
    cases hc
  · have hsign := h.2.isWordChar_or_sign c List.mem_cons_self
    rw [hc] at hsign
    exact ⟨rfl, c, rfl, hsign.resolve_left Bool.noConfusion⟩

/-- Of two bare tokens in a row the second is a number with a sign. -/
theorem Lexed.eq_sign_of_isBare {v : String} (h : Lexed rest n cs (ts ++ l :: l' :: us))
    (hbare : l.token.IsBare w) (hbare' : l'.token.IsBare v) :
    l'.token = .number v ∧ ∃ c ∈ v.toList.head?, c = '+' ∨ c = '-' := by
  obtain ⟨before, after, -, -, hrest⟩ := h.exists_append
  cases hrest with
  | cons hspelled hstops hrest =>
    cases hrest with
    | @cons _ token text after us hspelled' hstops' hrest =>
      have hends := hstops.ends hbare
      rw [List.append_assoc] at hends
      obtain ⟨hnumber, hsign⟩ := hspelled'.eq_sign_of_ends hbare' hends
      rw [hspelled'.eq_of_isBare hbare'] at hsign
      exact ⟨hnumber, hsign⟩

/-! ## All tokens of a source -/

/-- The words and numbers of a source that can be read are as long as they can be, words are runs of
word characters joined by colons, and the tokens whose text is a numeral are the numbers. If one word
or number comes right after another, it is a number with a sign. -/
theorem tokenize_reads_whole {source : String} {tokens : List Lexeme}
    (h : tokenize source = .ok tokens) :
    (∀ l ∈ tokens, ∃ before after,
      source.toList = before ++ (l.span.text source).toList ++ after ∧
      byteLength before = l.span.start ∧
      (∀ w, l.token.IsBare w → l.span.text source = w ∧ Word.Ends after) ∧
      (∀ w, l.token = .word w →
        (∃ c ∈ w.toList.head?, Word.isStart c = true) ∧ Word.Joined w.toList) ∧
      (Numeral.Form (l.span.text source).toList ↔ ∃ w, l.token = .number w)) ∧
    ∀ l l' w w', [l, l'] <:+: tokens → l.token.IsBare w → l'.token.IsBare w' →
      l'.token = .number w' ∧ ∃ c ∈ w'.toList.head?, c = '+' ∨ c = '-' := by
  constructor
  · intro l hl
    obtain ⟨before, after, hsource, hstart, hspelled, hstops⟩ := spelledAs_of_mem_tokenize h hl
    refine ⟨before, after, hsource, hstart, ?_, ?_, hspelled.form_iff hstops⟩
    · intro w hbare
      exact ⟨String.toList_inj.mp (hspelled.eq_of_isBare hbare), hstops.ends hbare⟩
    · intro w hword
      rw [hword] at hspelled
      have hjoined := hspelled.joined
      rwa [hspelled.1] at hjoined
  · intro l l' w w' hinfix hbare hbare'
    obtain ⟨ts, us, rfl⟩ := hinfix
    have hlexed := tokenize_eq_ok_iff.mp h
    rw [List.append_assoc] at hlexed
    exact hlexed.eq_sign_of_isBare hbare hbare'

/-- An exponent may cross a sign, `2d` and `inf:0` are words, and `+5` is a number of its own. -/
theorem tokenize_reads_whole_exponent :
    let source := "1e+5+5 2d inf:0"
    let tokens : List Lexeme :=
      [⟨.number "1e+5", ⟨0, 4⟩⟩, ⟨.number "+5", ⟨4, 6⟩⟩, ⟨.space, ⟨6, 7⟩⟩, ⟨.word "2d", ⟨7, 9⟩⟩,
        ⟨.space, ⟨9, 10⟩⟩, ⟨.word "inf:0", ⟨10, 15⟩⟩]
    tokenize source = .ok tokens ∧ Word.Joined "inf:0".toList ∧ Numeral.Form "1e+5".toList ∧
      ∃ c ∈ "+5".toList.head?, c = '+' ∨ c = '-' := by
  intro source tokens
  have hread : tokenize source = .ok tokens := by cbv
  obtain ⟨htokens, hrow⟩ := tokenize_reads_whole hread
  obtain ⟨-, -, -, -, -, hwords, -⟩ := htokens ⟨.word "inf:0", ⟨10, 15⟩⟩ (by simp [tokens])
  obtain ⟨-, -, -, -, -, -, hnumbers⟩ := htokens ⟨.number "1e+5", ⟨0, 4⟩⟩ (by simp [tokens])
  have htext : (Span.mk 0 4).text source = "1e+5" := by decide
  rw [htext] at hnumbers
  have hsign := hrow ⟨.number "1e+5", ⟨0, 4⟩⟩ ⟨.number "+5", ⟨4, 6⟩⟩ "1e+5" "+5"
    (List.prefix_append [_, _] _).isInfix (.inr rfl) (.inr rfl)
  exact ⟨hread, (hwords "inf:0" rfl).2, hnumbers.mpr ⟨"1e+5", rfl⟩, hsign.2⟩

end SceneDiagram
