import Mathlib.Data.List.Induction
import SceneDiagram.Proofs.Section.Spacing
import SceneDiagram.Proofs.Text.Line
import SceneDiagram.Proofs.Token.Locality

/-!
# Text before line ends

Blanks and a comment can be put before a line end (`IsPadding`). They merge with the blanks or the
comment that stand there already, or come to stand between the last token of the line and its end;
either way they are trivia before trivia (`IsPadding.exists_lexed`). So a source that is padded at
its line ends has the same tokens that count, in the same lines and with the same gaps
(`exists_lexed_padded`).
-/

namespace SceneDiagram

open Text Grammar

/-- Blanks that are no line ends, and then a comment or nothing. -/
def IsPadding (cs : List Char) : Prop :=
  ∃ blanks comment, cs = blanks ++ comment ∧ (∀ c ∈ blanks, Token.IsSpace c) ∧
    (comment = [] ∨ ∃ more, comment = ';' :: more ∧ '\n' ∉ more)

/-- A text with a padding before each line end that is a token, chosen by the offset of the line
end. -/
def padded (pad : Nat → List Char) (source : List Char) (ts : List Lexeme) : List Char :=
  ts.flatMap fun l =>
    (if l.token = .newline then pad l.span.start else []) ++ l.span.chars source

variable {before before' cs ds rest source : List Char} {n : Nat} {ts us vs : List Lexeme}
  {l : Lexeme} {gap : Bool} {pad : Nat → List Char}

namespace IsPadding

theorem newline_not_mem (h : IsPadding cs) : '\n' ∉ cs := by
  obtain ⟨blanks, comment, rfl, hblanks, hcomment⟩ := h
  rw [List.mem_append, not_or]
  refine ⟨fun hmem => (hblanks _ hmem).2 rfl, ?_⟩
  rcases hcomment with rfl | ⟨more, rfl, hmore⟩
  · simp
  · simpa using hmore

theorem of_isSpace (h : ∀ c ∈ cs, Token.IsSpace c) : IsPadding cs :=
  ⟨cs, [], (List.append_nil cs).symm, h, .inl rfl⟩

theorem of_comment (h : '\n' ∉ cs) : IsPadding (';' :: cs) :=
  ⟨[], ';' :: cs, rfl, by simp, .inr ⟨cs, rfl, h⟩⟩

/-- What stands after a comment is part of it. -/
theorem append (hcs : IsPadding cs) (hds : IsPadding ds) : IsPadding (cs ++ ds) := by
  have hline := hds.newline_not_mem
  obtain ⟨blanks, comment, rfl, hblanks, rfl | ⟨more, rfl, hmore⟩⟩ := hcs
  · obtain ⟨blanks', comment', rfl, hblanks', hcomment'⟩ := hds
    refine ⟨blanks ++ blanks', comment', by simp, ?_, hcomment'⟩
    exact List.forall_mem_append.mpr ⟨hblanks, hblanks'⟩
  · refine ⟨blanks, ';' :: (more ++ ds), by simp, hblanks, .inr ⟨more ++ ds, rfl, ?_⟩⟩
    simp [hmore, hline]

/-- Padding starts with a break, and so does a line end after it. -/
theorem exists_break (h : IsPadding cs) (ds : List Char) :
    ∃ c more, cs ++ '\n' :: ds = c :: more ∧ Word.Breaks c := by
  obtain ⟨blanks, comment, rfl, hblanks, hcomment⟩ := h
  cases blanks with
  | cons c blanks =>
    exact ⟨c, _, rfl, Word.breaks_of_isBlank (hblanks c (List.mem_cons_self ..)).1⟩
  | nil =>
    rcases hcomment with rfl | ⟨more, rfl, -⟩
    · exact ⟨'\n', _, rfl, Word.breaks_newline⟩
    · exact ⟨';', _, rfl, Word.breaks_semicolon⟩

/-- The tokens of padding before a line end are trivia. -/
theorem exists_lexed (h : IsPadding cs) (n : Nat) (ds : List Char) :
    ∃ vs, Lexed ('\n' :: ds) n cs vs ∧ IsTrivia vs := by
  obtain ⟨blanks, comment, rfl, hblanks, hcomment⟩ := h
  have hend : ∀ m, ∃ vs, Lexed ('\n' :: ds) m comment vs ∧ IsTrivia vs := by
    intro m
    rcases hcomment with rfl | ⟨more, rfl, hmore⟩
    · exact ⟨[], .nil, isTrivia_nil⟩
    · have hspelled : (Token.comment (String.ofList more)).SpelledAs (';' :: more) := by
        simpa [Token.SpelledAs] using hmore
      have hstops : (Token.comment (String.ofList more)).Stops (';' :: more) ('\n' :: ds) := by
        simp [Token.Stops]
      have hlexed := Lexed.cons (n := m) hspelled hstops .nil
      rw [List.append_nil] at hlexed
      exact ⟨_, hlexed, isTrivia_cons.mpr ⟨rfl, isTrivia_nil⟩⟩
  by_cases hne : blanks = []
  · subst hne
    exact hend n
  · obtain ⟨vs, hlexed, htrivia⟩ := hend (n + byteLength blanks)
    have hstops : Token.space.Stops blanks (comment ++ '\n' :: ds) := by
      rcases hcomment with rfl | ⟨more, rfl, -⟩ <;> simp [Token.Stops, Token.IsSpace, isBlank]
    have hspelled : Token.space.SpelledAs blanks := ⟨hne, hblanks⟩
    exact ⟨_, .cons hspelled hstops hlexed, isTrivia_cons.mpr ⟨rfl, htrivia⟩⟩

end IsPadding

/-- Trivia at the end of a line is padding. -/
theorem Lexed.isPadding (h : Lexed rest n cs ts) (htrivia : IsTrivia ts)
    (hline : ∀ l ∈ ts, l.token ≠ .newline) : IsPadding cs := by
  induction h with
  | nil => exact .of_isSpace (by simp)
  | @cons n token text cs ts hspelled _ _ ih =>
    obtain ⟨htoken, htrivia⟩ := isTrivia_cons.mp htrivia
    obtain ⟨hne, hline⟩ := List.forall_mem_cons.mp hline
    have hcs := ih htrivia hline
    cases token with
    | comment s =>
      obtain ⟨rfl, hs⟩ := hspelled
      exact (IsPadding.of_comment hs).append hcs
    | space => exact (IsPadding.of_isSpace hspelled.2).append hcs
    | newline => exact absurd rfl hne
    | string | number | word | punct => cases htoken

/-! ## Tokens that count, with their lines -/

/-- Tokens can be moved to any other place. If no line is added before them, their lines stay. -/
theorem Lexed.carry (h : Lexed rest n cs ts) (hn : byteLength before = n)
    (hlines : before.count '\n' = before'.count '\n') :
    ∃ us, Lexed rest (byteLength before') cs us ∧ ∀ after after',
      us.map (Lexeme.mapSpan (Span.lines (before' ++ cs ++ after'))) =
        ts.map (Lexeme.mapSpan (Span.lines (before ++ cs ++ after))) := by
  induction h generalizing before before' with
  | nil => exact ⟨[], .nil, fun _ _ => rfl⟩
  | @cons n token text cs ts hspelled hstops _ ih =>
    subst hn
    have hlines' : (before ++ text).count '\n' = (before' ++ text).count '\n' := by
      rw [List.count_append, List.count_append, hlines]
    obtain ⟨us, hus, hmap⟩ := ih (byteLength_append before text) hlines'
    rw [byteLength_append] at hus
    refine ⟨_, .cons hspelled hstops hus, fun after after' => ?_⟩
    have hrest := hmap after after'
    simp only [List.append_assoc] at hrest
    have hfirst := Span.lines_of_append before text (cs ++ after)
    have hfirst' := Span.lines_of_append before' text (cs ++ after')
    simp only [List.append_assoc] at hfirst hfirst'
    simp only [List.append_assoc, List.map_cons, Lexeme.mapSpan_mk, hrest, hfirst, hfirst', hlines]

/-- Tokens start and end between characters. -/
theorem Lexed.mapEnds_floorAt (h : Lexed rest n cs ts) (hn : byteLength before = n)
    (hsource : source = before ++ cs ++ rest) :
    ts.map (Lexeme.mapSpan (Span.mapEnds (floorAt source))) = ts := by
  induction h generalizing before with
  | nil => rfl
  | @cons n token text cs ts _ _ _ ih =>
    subst hn
    have hstart : floorAt source (byteLength before) = byteLength before := by
      rw [floorAt, hsource, List.append_assoc, upTo_byteLength]
    have hstop : floorAt source (byteLength before + byteLength text) =
        byteLength before + byteLength text := by
      rw [← byteLength_append, floorAt, hsource, ← List.append_assoc, List.append_assoc,
        upTo_byteLength]
    have hrest := ih (byteLength_append before text) (by simp [hsource])
    rw [List.map_cons, hrest, Lexeme.mapSpan_mk, Span.mapEnds, hstart, hstop]

theorem padded_append : padded pad source (ts ++ us) =
    padded pad source ts ++ padded pad source us := List.flatMap_append

theorem Lexed.newline_cons (h : Lexed rest (n + 1) cs ts) :
    Lexed rest n ('\n' :: cs) (⟨.newline, ⟨n, n + 1⟩⟩ :: ts) := by
  have hspelled : Token.newline.SpelledAs ['\n'] := rfl
  exact .cons hspelled trivial h

theorem padded_newline_cons (hsource : source = before ++ '\n' :: cs) :
    padded pad source (⟨.newline, ⟨byteLength before, byteLength before + 1⟩⟩ :: ts) =
      pad (byteLength before) ++ '\n' :: padded pad source ts := by
  have hchars : (Span.mk (byteLength before) (byteLength before + 1)).chars source = ['\n'] := by
    rw [hsource, List.append_cons]
    exact Span.chars_of_append rfl rfl
  rw [padded, List.flatMap_cons, if_pos rfl, hchars, List.append_assoc]
  rfl

/-- Padding that is empty at every line end changes nothing. -/
theorem Lexed.padded_eq (h : Lexed rest n cs ts) (hn : byteLength before = n) {after : List Char}
    (hsource : source = before ++ cs ++ after)
    (hpad : ∀ l ∈ ts, l.token = .newline → pad l.span.start = []) :
    padded pad source ts = cs := by
  induction h generalizing before with
  | nil => rfl
  | @cons n token text cs ts hspelled _ _ ih =>
    subst hn
    obtain ⟨hfirst, hpad⟩ := List.forall_mem_cons.mp hpad
    have hrest : padded pad source ts = cs :=
      ih (byteLength_append before text) (by simp [hsource]) hpad
    have hchars : (Span.mk (byteLength before) (byteLength before + byteLength text)).chars source =
        text := by
      rw [hsource, List.append_assoc, List.append_assoc, ← List.append_assoc]
      exact Span.chars_of_append rfl rfl
    have hempty : (if token = .newline then pad (byteLength before) else []) = [] := by
      split
      · next hnewline => exact hfirst hnewline
      · rfl
    rw [padded] at hrest
    rw [padded, List.flatMap_cons, hempty, hchars, hrest, List.nil_append]

theorem spaced_append_trivia (hvs : IsTrivia vs) (hl : l.token.isTrivia = true) :
    spaced gap (ts ++ (vs ++ l :: us)) = spaced gap ts ++ spaced true us := by
  induction ts generalizing gap with
  | nil =>
    induction vs generalizing gap with
    | nil => exact spaced_cons_of_isTrivia hl
    | cons v vs ih =>
      obtain ⟨hv, hvs⟩ := isTrivia_cons.mp hvs
      rw [List.nil_append, List.cons_append, spaced_cons_of_isTrivia hv]
      exact ih hvs
  | cons t ts ih =>
    cases ht : t.token.isTrivia with
    | true =>
      rw [List.cons_append, spaced_cons_of_isTrivia ht, spaced_cons_of_isTrivia ht, ih]
    | false =>
      rw [List.cons_append, spaced_cons_of_not_isTrivia ht, spaced_cons_of_not_isTrivia ht, ih,
        List.cons_append]

/-- Trivia at the end of tokens can be taken off. -/
theorem exists_append_trivia (ts : List Lexeme) :
    ∃ core trail, ts = core ++ trail ∧ IsTrivia trail ∧
      ∀ l ∈ core.getLast?, l.token.isTrivia = false := by
  induction ts using List.reverseRecOn with
  | nil => exact ⟨[], [], rfl, isTrivia_nil, by simp⟩
  | append_singleton ts l ih =>
    cases hl : l.token.isTrivia with
    | false => exact ⟨ts ++ [l], [], by simp, isTrivia_nil, by simp [hl]⟩
    | true =>
      obtain ⟨core, trail, rfl, htrail, hcore⟩ := ih
      refine ⟨core, trail ++ [l], by simp, ?_, hcore⟩
      exact isTrivia_append.mpr ⟨htrail, isTrivia_cons.mpr ⟨hl, isTrivia_nil⟩⟩

/-- A line that is padded has the same tokens in the same lines up to its last trivia, and then
trivia again. -/
theorem Lexed.append_padding {padding : List Char} (ds' : List Char)
    (h : Lexed ('\n' :: ds) n cs ts) (hn : byteLength before = n)
    (hlines : before.count '\n' = before'.count '\n') (hline : ∀ l ∈ ts, l.token ≠ .newline)
    (hpadding : IsPadding padding) :
    ∃ core trail us vs, ts = core ++ trail ∧ IsTrivia trail ∧ IsTrivia vs ∧
      Lexed ('\n' :: ds') (byteLength before') (cs ++ padding) (us ++ vs) ∧ ∀ after after',
        us.map (Lexeme.mapSpan (Span.lines (before' ++ (cs ++ padding) ++ after'))) =
          core.map (Lexeme.mapSpan (Span.lines (before ++ cs ++ after))) := by
  obtain ⟨core, trail, rfl, htrail, hcore⟩ := exists_append_trivia ts
  obtain ⟨inside, blanks, rfl, hinside, hblanks⟩ := h.exists_append
  have htail : IsPadding (blanks ++ padding) :=
    (hblanks.isPadding htrail fun l hl => hline l (List.mem_append_right core hl)).append hpadding
  -- The last token before the trivia counts, so it stops at the break that comes next.
  obtain ⟨c, more, hc, hbreak⟩ := htail.exists_break ds'
  have hbroken : Lexed (blanks ++ padding ++ '\n' :: ds') n inside core := by
    rw [hc]
    refine hinside.alone.append_break hbreak fun l hl htrivia => ?_
    rw [hcore l hl] at htrivia
    cases htrivia
  obtain ⟨us, hus, hmap⟩ := hbroken.carry hn hlines
  obtain ⟨vs, hvs, htrivia⟩ := htail.exists_lexed (byteLength before' + byteLength inside) ds'
  refine ⟨core, trail, us, vs, rfl, htrail, htrivia, ?_, fun after after' => ?_⟩
  · rw [List.append_assoc]
    exact hus.append hvs
  · have hmap := hmap (blanks ++ after) (blanks ++ padding ++ after')
    simp only [List.append_assoc] at hmap ⊢
    exact hmap

/-- The tokens of a text up to its first line end, and those after it. -/
theorem Lexed.first_line (h : Lexed [] n cs ts) :
    (∀ l ∈ ts, l.token ≠ .newline) ∨
      ∃ inside ds line us, cs = inside ++ '\n' :: ds ∧
        ts = line ++ ⟨.newline, ⟨n + byteLength inside, n + byteLength inside + 1⟩⟩ :: us ∧
        (∀ l ∈ line, l.token ≠ .newline) ∧ Lexed ('\n' :: ds) n inside line ∧
        Lexed [] (n + byteLength inside + 1) ds us := by
  cases hfind : ts.find? (·.token = .newline) with
  | none => exact .inl (by simpa using List.find?_eq_none.mp hfind)
  | some l =>
    obtain ⟨hl, line, us, rfl, hline⟩ := List.find?_eq_some_iff_append.mp hfind
    obtain ⟨inside, _, rfl, hinside, hrest⟩ := h.exists_append
    cases hrest with
    | @cons _ token text ds _ hspelled _ hrest =>
      obtain rfl : token = .newline := by simpa using hl
      obtain rfl : text = ['\n'] := hspelled
      rw [List.append_nil] at hinside
      exact .inr ⟨inside, ds, line, us, rfl, rfl, by simpa using hline, hinside, hrest⟩

/-- The tokens of a padded line and those of the lines after it are the tokens of all these
lines. -/
theorem Lexed.pad_line {source' inside padding after : List Char} {l : Lexeme}
    (h : Lexed ('\n' :: cs) (byteLength before) inside ts)
    (hline : ∀ l ∈ ts, l.token ≠ .newline) (hl : l.token.isTrivia = true)
    (hpadding : IsPadding padding) (hlines : before.count '\n' = before'.count '\n')
    (hsource : source = before ++ inside ++ after)
    (hsource' : source' = before' ++ (inside ++ padding) ++ '\n' :: ds)
    (hus : Lexed [] (byteLength before' + byteLength (inside ++ padding) + 1) ds us)
    (hmap : (spaced true us).map (Spaced.mapSpan (Span.lines source')) =
      (spaced true vs).map (Spaced.mapSpan (Span.lines source))) :
    ∃ us, Lexed [] (byteLength before') (inside ++ padding ++ '\n' :: ds) us ∧ ∀ gap,
      (spaced gap us).map (Spaced.mapSpan (Span.lines source')) =
        (spaced gap (ts ++ l :: vs)).map (Spaced.mapSpan (Span.lines source)) := by
  obtain ⟨core, trail, core', trail', rfl, htrail, htrail', hlexed, hcore⟩ :=
    h.append_padding ds rfl hlines hline hpadding
  have hcore := hcore after ('\n' :: ds)
  rw [← hsource, ← hsource'] at hcore
  refine ⟨_, Lexed.append (by rwa [List.append_nil]) hus.newline_cons, fun gap => ?_⟩
  have hspaced := congrArg (spaced gap) hcore
  rw [spaced_map, spaced_map] at hspaced
  rw [List.append_assoc core', List.append_assoc core, spaced_append_trivia htrail' rfl,
    spaced_append_trivia htrail hl, List.map_append, List.map_append, hmap, hspaced]

/-- A source that is padded at its line ends has the same tokens that count, with the same gaps and
in the same lines. The induction goes line by line, from the first to the last. -/
theorem exists_lexed_padded (k : Nat) {ts : List Lexeme} (hk : ts.length ≤ k)
    (before before' : List Char) {cs : List Char} (hsource : source = before ++ cs)
    (hts : Lexed [] (byteLength before) cs ts) (hlines : before.count '\n' = before'.count '\n')
    (hpad : ∀ l ∈ ts, l.token = .newline → IsPadding (pad l.span.start)) :
    ∃ us, Lexed [] (byteLength before') (padded pad source ts) us ∧ ∀ gap,
      (spaced gap us).map (Spaced.mapSpan (Span.lines (before' ++ padded pad source ts))) =
        (spaced gap ts).map (Spaced.mapSpan (Span.lines source)) := by
  induction k generalizing ts before before' cs with
  | zero =>
    obtain rfl : ts = [] := List.length_eq_zero_iff.mp (Nat.le_zero.mp hk)
    exact ⟨[], .nil, fun _ => rfl⟩
  | succ k ih =>
    rcases hts.first_line with hline | ⟨inside, ds, line, rest, rfl, rfl, hline, hinside, hrest⟩
    · have hend : source = before ++ cs ++ [] := by rw [hsource, List.append_nil]
      obtain ⟨us, hus, hmap⟩ := hts.carry rfl hlines
      have hmap := hmap [] []
      rw [List.append_nil, List.append_nil] at hmap
      rw [hts.padded_eq rfl hend fun l hl hnewline => absurd hnewline (hline l hl)]
      refine ⟨us, hus, fun gap => ?_⟩
      rw [← spaced_map, ← spaced_map, hmap, hsource]
    · have hfirst : source = before ++ inside ++ '\n' :: ds := by rw [hsource, List.append_assoc]
      have hpadding : IsPadding (pad (byteLength before + byteLength inside)) :=
        hpad _ (List.mem_append_right line (List.mem_cons_self ..)) rfl
      have htext : padded pad source (line ++ ⟨.newline, ⟨byteLength before + byteLength inside,
          byteLength before + byteLength inside + 1⟩⟩ :: rest) =
          inside ++ pad (byteLength before + byteLength inside) ++
            '\n' :: padded pad source rest := by
        rw [padded_append, hinside.padded_eq rfl hfirst fun l hl hnewline =>
          absurd hnewline (hline l hl), ← byteLength_append, padded_newline_cons hfirst,
          List.append_assoc]
      generalize pad (byteLength before + byteLength inside) = padding at hpadding htext
      have hcount : (before ++ inside ++ ['\n']).count '\n' =
          (before' ++ (inside ++ padding) ++ ['\n']).count '\n' := by
        simp [hlines, List.count_eq_zero.mpr hpadding.newline_not_mem]
      -- The lines after this one are padded by the hypothesis of the induction.
      have hk' : rest.length ≤ k := by
        rw [List.length_append, List.length_cons] at hk
        omega
      have hbyte : ∀ cs : List Char, byteLength (cs ++ ['\n']) = byteLength cs + 1 :=
        fun cs => byteLength_append cs ['\n']
      have hnext : source = before ++ inside ++ ['\n'] ++ ds := by
        rw [hfirst, ← List.append_cons]
      rw [← byteLength_append, ← hbyte] at hrest
      obtain ⟨us, hus, hmap⟩ := ih hk' _ _ hnext hrest hcount
        fun l hl => hpad l (List.mem_append_right line (List.mem_cons_of_mem _ hl))
      rw [hbyte, byteLength_append] at hus
      rw [htext]
      refine hinside.pad_line hline rfl hpadding hlines hfirst (List.append_assoc ..).symm hus ?_
      rw [← List.append_assoc, List.append_cons]
      exact hmap true

/-- A source with a padding before each of its line ends, chosen by the offset of the line end. The
line ends are the tokens, so those inside strings are left alone. -/
def padLines (pad : Nat → List Char) (source : String) (ts : List Lexeme) : String :=
  String.ofList (padded pad source.toList ts)

theorem padLines_eq_self {source : String} (hts : tokenize source = .ok ts)
    (hpad : ∀ l ∈ ts, l.token = .newline → pad l.span.start = []) :
    padLines pad source ts = source := by
  have hsource : source.toList = [] ++ source.toList ++ [] := by simp
  rw [padLines, (tokenize_eq_ok_iff.mp hts).padded_eq byteLength_nil hsource hpad,
    String.ofList_toList]

theorem tokenize_padLines {source : String} (hts : tokenize source = .ok ts)
    (hpad : ∀ l ∈ ts, l.token = .newline → IsPadding (pad l.span.start)) :
    ∃ us, tokenize (padLines pad source ts) = .ok us ∧
      (spaced false us).map (Spaced.mapSpan (Span.lines (padLines pad source ts).toList)) =
        (spaced false ts).map (Spaced.mapSpan (Span.lines source.toList)) := by
  obtain ⟨us, hus, hmap⟩ := exists_lexed_padded ts.length (Nat.le_refl _) [] []
    (List.nil_append _).symm (tokenize_eq_ok_iff.mp hts) rfl hpad
  have htext : (padLines pad source ts).toList = padded pad source.toList ts :=
    String.toList_ofList
  rw [htext]
  exact ⟨us, tokenize_eq_ok_iff.mpr (by rwa [htext]), hmap false⟩

end SceneDiagram
