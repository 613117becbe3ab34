import SceneDiagram.Proofs.Section.Soundness

/-!
# What is read is what the grammar says

Reading the tokens of a file and the grammar agree (`Section.ofLexemes_eq_ok_iff_sceneForm`), so the
grammar is unambiguous; reading the tokens of one value and the rules for values agree too
(`Value.ofLexemes?_eq_some_iff`). That a bare word is kept from a bracket is what makes the rules
for files exact: neither with gaps between all sections nor with gaps nowhere do they describe
what is read (`touching_sections`).
-/

namespace SceneDiagram

open Text Grammar SectionReader

theorem Section.ofLexemes_eq_ok_iff_sceneForm {tokens : List Lexeme} {sections : List Section} :
    Section.ofLexemes tokens = .ok sections ↔ SceneForm tokens sections := by
  rw [SectionReader.ofLexemes_eq_ok_iff]
  constructor
  · intro h
    obtain ⟨ss, hss, rfl⟩ := sceneForm_of_reads (Nat.le_refl _) h
    exact hss
  · intro h
    have hreads : Reads (outside [] none) tokens (.ok ([] ++ none.toList ++ sections)) :=
      reads_of_sceneForm h
    exact hreads

/-- Reading accepts the tokens that follow the grammar of scene sources and no others. It returns
the sections that the grammar gives them, and the grammar gives no tokens two lists of sections. -/
theorem Section.ofLexemes_recognizes (tokens : List Lexeme) :
    (∀ sections, Section.ofLexemes tokens = .ok sections ↔ SceneForm tokens sections) ∧
      ∀ sections sections', SceneForm tokens sections → SceneForm tokens sections' →
        sections = sections' := by
  refine ⟨fun _ => Section.ofLexemes_eq_ok_iff_sceneForm, fun sections sections' h h' => ?_⟩
  have hread := Section.ofLexemes_eq_ok_iff_sceneForm.mpr h
  rw [Section.ofLexemes_eq_ok_iff_sceneForm.mpr h', Except.ok.injEq] at hread
  exact hread.symm

/-- A word, a line end and a bracket are the end of one section and the start of the next, and there
is no other way to take them. -/
theorem Section.ofLexemes_recognizes_line :
    let tokens : List Lexeme :=
      [⟨.punct .leftBracket, ⟨0, 1⟩⟩, ⟨.word "a", ⟨1, 2⟩⟩, ⟨.punct .rightBracket, ⟨2, 3⟩⟩,
        ⟨.word "k", ⟨3, 4⟩⟩, ⟨.punct .equals, ⟨4, 5⟩⟩, ⟨.word "w", ⟨5, 6⟩⟩, ⟨.newline, ⟨6, 7⟩⟩,
        ⟨.punct .leftBracket, ⟨7, 8⟩⟩, ⟨.word "b", ⟨8, 9⟩⟩, ⟨.punct .rightBracket, ⟨9, 10⟩⟩]
    let both : List Section :=
      [⟨⟨"a", ⟨1, 2⟩⟩, [], [⟨⟨"k", ⟨3, 4⟩⟩, .word ⟨5, 6⟩ "w"⟩], ⟨0, 3⟩⟩,
        ⟨⟨"b", ⟨8, 9⟩⟩, [], [], ⟨7, 10⟩⟩]
    SceneForm tokens both ∧ ∀ sections, SceneForm tokens sections → sections = both := by
  intro tokens both
  obtain ⟨hread, hunique⟩ := Section.ofLexemes_recognizes tokens
  have hboth : SceneForm tokens both := (hread both).mp rfl
  exact ⟨hboth, fun sections h => hunique sections both h hboth⟩

/-! ## One value -/

/-- A reader that waits for nothing but a value and ends with one property has read one value. -/
theorem SectionReader.valueForm_of_reads_beforeValue {tokens : List Lexeme} {tag : PlacedWord}
    {attributes : List Property} {p : Property} {a : Span}
    (h : Reads beforeValue tokens (.ok [⟨tag, attributes, [p], a⟩])) :
    ∃ before ts after, tokens = before ++ ts ++ after ∧ IsTrivia before ∧
      ValueForm ts p.value ∧ IsTrivia after := by
  obtain ⟨before, l, us, next, rfl, hbefore, -, hstep, hnext⟩ :=
    reads_next_of_open rfl rfl (by nofun) h
  obtain ⟨ts, v, rest, hsplit, hv, -, hreads⟩ :=
    leavesValue (us.length + 1) (Nat.lt_succ_self _) hstep hnext
  have hbody : Reads (outside [] (some ⟨⟨"", .zero⟩, [], [⟨⟨"", .zero⟩, v⟩], .zero⟩)) rest
      (.ok [⟨tag, attributes, [p], a⟩]) := hreads
  obtain ⟨ps, properties, after, rfl, hps, -, hreads⟩ := body_of_reads (Nat.le_refl _) hbody
  obtain ⟨ss, hafter, hss⟩ := sceneForm_of_reads (Nat.le_refl _) hreads
  -- There is one section with one property, so nothing but trivia follows the value.
  simp only [List.nil_append, List.cons_append, List.cons.injEq, Section.mk.injEq] at hss
  obtain ⟨⟨-, -, ⟨rfl, hproperties⟩, -⟩, hss⟩ := hss
  subst hproperties hss
  cases hps
  cases hafter with
  | none hafter => exact ⟨before, ts, after, by simp [hsplit], hbefore, hv, hafter⟩

theorem SectionReader.reads_beforeValue {tokens : List Lexeme} {v : Value}
    (h : ValueForm tokens v) :
    Reads beforeValue tokens (.ok [⟨⟨"", .zero⟩, [], [⟨⟨"", .zero⟩, v⟩], .zero⟩]) := by
  have hread : Reads (beforeValue.moveTo (.value ⟨none, ⟨"", .zero⟩, []⟩)) (tokens ++ [])
      (.ok [⟨⟨"", .zero⟩, [], [⟨⟨"", .zero⟩, v⟩], .zero⟩]) :=
    takesValue_of_form h (ends_of_not_opensCall not_opensCall_nil) (reads_nil.mpr rfl)
  rwa [List.append_nil] at hread

/-- A value has no trivia around it. -/
theorem Grammar.ValueForm.bounds {ts : List Lexeme} {v : Value} (h : ValueForm ts v) :
    (∃ first ∈ ts.head?, first.token.isTrivia = false) ∧
      ∃ last ∈ ts.getLast?, last.token.isTrivia = false := by
  cases h <;> simp [List.getLast?_cons, Token.isTrivia]

/-- Tokens are read as a value on their own if they follow the rules for values, and then as the
value that the rules give. -/
theorem Value.ofLexemes?_eq_some_iff {tokens : List Lexeme} {v : Value} :
    Value.ofLexemes? tokens = some v ↔ ValueForm tokens v := by
  constructor
  · intro h
    unfold Value.ofLexemes? at h
    split at h
    · cases h
    rename_i hbounds
    split at h
    · cases h
    rename_i last hrun
    split at h
    · rename_i tag attributes p a hfinish
      obtain rfl := Option.some.inj h
      obtain ⟨before, ts, after, rfl, hbefore, hv, hafter⟩ :=
        valueForm_of_reads_beforeValue ⟨last, hrun, hfinish⟩
      obtain rfl : before = [] := by
        cases before with
        | nil => rfl
        | cons l before => simp_all
      obtain rfl : after = [] := by
        rcases List.eq_nil_or_concat after with rfl | ⟨after, l, rfl⟩
        · rfl
        · simp_all
      simpa using hv
    · cases h
  · intro h
    obtain ⟨last, hrun, hfinish⟩ := reads_beforeValue h
    obtain ⟨⟨first, hfirst, hfirst'⟩, final, hfinal, hfinal'⟩ := h.bounds
    rw [Option.mem_def] at hfirst hfinal
    simp [Value.ofLexemes?, hrun, hfinish, hfirst, hfinal, hfirst', hfinal']

/-! ## Gaps between sections -/

theorem Grammar.FileForm.imp {followed followed' : Section → List Lexeme → Prop}
    (h : ∀ s rest, followed s rest → followed' s rest) {ts : List Lexeme} {ss : List Section}
    (hfile : FileForm followed ts ss) : FileForm followed' ts ss := by
  induction hfile with
  | none hts => exact .none hts
  | more hbefore hs hfollowed _ ih => exact .more hbefore hs (h _ _ hfollowed) ih

theorem Grammar.exists_isTrivia_of_apart {ts : List Lexeme} {s s' : Section} {ss : List Section}
    (h : FileForm (fun _ rest => Apart rest) ts (s :: s' :: ss)) :
    ∃ l ∈ ts, l.token.isTrivia = true := by
  cases h with
  | @more before us rest _ _ _ _ hapart hrest =>
    cases hrest with
    | @more before' us' rest' _ _ _ hs' _ _ =>
      have hne : before' ++ us' ++ rest' ≠ [] := by
        cases hs'
        simp
      obtain ⟨l, ls, hl⟩ := List.exists_cons_of_ne_nil hne
      exact ⟨l, by simp [hl], hapart l (by simp [hl])⟩

/-- Gaps between sections can be left out, but not everywhere. The brackets of `[a][b]` touch and
two sections are read, though no trivia separates them. The second bracket of `[a]k=w[b]` touches
a word and is taken for that of a type, though rules without any gap give two sections. -/
theorem touching_sections :
    let a : List Lexeme :=
      [⟨.punct .leftBracket, ⟨0, 1⟩⟩, ⟨.word "a", ⟨1, 2⟩⟩, ⟨.punct .rightBracket, ⟨2, 3⟩⟩]
    let ab : List Lexeme := a ++
      [⟨.punct .leftBracket, ⟨3, 4⟩⟩, ⟨.word "b", ⟨4, 5⟩⟩, ⟨.punct .rightBracket, ⟨5, 6⟩⟩]
    let awb : List Lexeme := a ++
      [⟨.word "k", ⟨3, 4⟩⟩, ⟨.punct .equals, ⟨4, 5⟩⟩, ⟨.word "w", ⟨5, 6⟩⟩,
        ⟨.punct .leftBracket, ⟨6, 7⟩⟩, ⟨.word "b", ⟨7, 8⟩⟩, ⟨.punct .rightBracket, ⟨8, 9⟩⟩]
    (Section.ofLexemes ab =
        .ok [⟨⟨"a", ⟨1, 2⟩⟩, [], [], ⟨0, 3⟩⟩, ⟨⟨"b", ⟨4, 5⟩⟩, [], [], ⟨3, 6⟩⟩] ∧
      ¬ ∃ sections, FileForm (fun _ rest => Apart rest) ab sections) ∧
    (FileForm (fun _ _ => True) awb
        [⟨⟨"a", ⟨1, 2⟩⟩, [], [⟨⟨"k", ⟨3, 4⟩⟩, .word ⟨5, 6⟩ "w"⟩], ⟨0, 3⟩⟩,
          ⟨⟨"b", ⟨7, 8⟩⟩, [], [], ⟨6, 9⟩⟩] ∧
      ∀ sections, Section.ofLexemes awb ≠ .ok sections) := by
  intro a ab awb
  have hab : Section.ofLexemes ab =
      .ok [⟨⟨"a", ⟨1, 2⟩⟩, [], [], ⟨0, 3⟩⟩, ⟨⟨"b", ⟨4, 5⟩⟩, [], [], ⟨3, 6⟩⟩] := rfl
  refine ⟨⟨hab, ?_⟩, ?_, ?_⟩
  · rintro ⟨sections, h⟩
    have hscene : SceneForm ab sections :=
      @FileForm.imp _ (fun s rest => EndsInWord s → Apart rest) (fun _ _ hapart _ => hapart) _ _ h
    have hread := Section.ofLexemes_eq_ok_iff_sceneForm.mpr hscene
    rw [hab, Except.ok.injEq] at hread
    subst hread
    obtain ⟨l, hl, htrivia⟩ := exists_isTrivia_of_apart h
    simp only [ab, a, List.cons_append, List.nil_append, List.mem_cons, List.not_mem_nil,
      or_false] at hl
    rcases hl with rfl | rfl | rfl | rfl | rfl | rfl <;> simp [Token.isTrivia] at htrivia
  · have hkey : PropertyForm
        [⟨.word "k", ⟨3, 4⟩⟩, ⟨.punct .equals, ⟨4, 5⟩⟩, ⟨.word "w", ⟨5, 6⟩⟩]
        ⟨⟨"k", ⟨3, 4⟩⟩, .word ⟨5, 6⟩ "w"⟩ :=
      @PropertyForm.mk _ _ _ [] [] _ _ isTrivia_nil isTrivia_nil .word
    have hbody := @Properties.cons [] _ [] _ [] isTrivia_nil hkey .nil
    have hfirst := @SectionForm.mk ⟨0, 1⟩ ⟨1, 2⟩ ⟨2, 3⟩ "a" [] [] [] _ [] _ isTrivia_nil .nil
      isTrivia_nil hbody
    have hsecond := @SectionForm.mk ⟨6, 7⟩ ⟨7, 8⟩ ⟨8, 9⟩ "b" [] [] [] [] [] [] isTrivia_nil .nil
      isTrivia_nil .nil
    have hlast := @FileForm.more (fun _ _ => True) [] _ [] _ [] isTrivia_nil hsecond trivial
      (.none isTrivia_nil)
    have hfile := @FileForm.more (fun _ _ => True) [] _ _ _ _ isTrivia_nil hfirst trivial hlast
    exact hfile
  · intro sections h
    cases h

end SceneDiagram
