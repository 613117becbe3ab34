import SceneDiagram.Proofs.Token.Tiling

/-!
# What reading tokens looks at

The tokens of a part of a text stay the same when the part is read on its own (`Lexed.alone`), when
a line end and more text come after it (`Lexed.append_newline`), and when it starts somewhere else
(`Lexed.move`). Numbers, words, comments and blank runs look beyond their end; a word looks as far
as a number that would begin with it, so what follows the word decides, and what follows is tokens
again.
-/

namespace SceneDiagram

open Text

/-- A lexeme at another place. -/
def Lexeme.mapSpan (f : Span → Span) (l : Lexeme) : Lexeme := { l with span := f l.span }

@[simp] theorem Lexeme.mapSpan_mk (f : Span → Span) (token : Token) (a : Span) :
    Lexeme.mapSpan f ⟨token, a⟩ = ⟨token, f a⟩ := rfl

variable {rest cs ds text : List Char} {n m : Nat} {ts us : List Lexeme} {token : Token} {c : Char}

/-! ## A part on its own -/

theorem Token.SpelledAs.eq_number_of_sign (h : token.SpelledAs (c :: text))
    (hc : c = '+' ∨ c = '-') : ∃ n, token = .number n := by
  cases token with
  | number n => exact ⟨n, rfl⟩
  | string s =>
    obtain ⟨_, heq, -⟩ := h
    rcases hc with rfl | rfl <;> cases heq
  | word w =>
    obtain ⟨-, _, _, heq, hstart, -⟩ := h
    obtain ⟨rfl, rfl⟩ := List.cons.inj heq
    rcases hc with rfl | rfl <;> cases hstart
  | punct p =>
    obtain ⟨rfl, -⟩ := List.cons.inj h
    cases p <;> simp [Punct.char] at hc
  | comment s =>
    obtain ⟨heq, -⟩ := h
    rcases hc with rfl | rfl <;> cases heq
  | space =>
    have hblank := (h.2 c (List.mem_cons_self ..)).1
    rcases hc with rfl | rfl <;> cases hblank
  | newline => rcases hc with rfl | rfl <;> cases h

/-- The characters of a word at the front of a numeral are word characters. -/
theorem Numeral.Form.isWordChar_of_continuing {more : List Char} (h : Form (c :: cs ++ more))
    (hstart : Word.isStart c = true) (hcs : Word.Continuing cs) :
    ∀ d ∈ c :: cs, Word.isWordChar d = true := by
  intro d hd
  rcases List.mem_cons.mp hd with rfl | hmem
  · exact Word.isWordChar_of_isStart hstart
  rcases hcs.isWordChar_or_colon d hmem with hword | rfl
  · exact hword
  · exact absurd (h.isWordChar_or_sign ':' (List.mem_append_left more hd)) (by decide)

/-- A word that is followed by more tokens of a part is no numeral together with their text. Only a
signed exponent could make it one, but then the next token is that number, and the whole numeral
would have been read. -/
theorem Word.stops_alone {w : String} (hspelled : (Token.word w).SpelledAs text)
    (hstops : (Token.word w).Stops text (cs ++ rest)) (hcs : Lexed rest n cs ts) :
    (Token.word w).Stops text cs := by
  refine ⟨continues_eq_false_of_append hstops.1, ?_⟩
  rintro more after hsplit hafter hform
  cases more with
  | nil => exact hstops.2 [] (cs ++ rest) rfl hstops.1 hform
  | cons x more =>
    obtain ⟨-, c, text, rfl, hstart, hcontinuing⟩ := hspelled
    have hx : isWordChar x = false :=
      isWordChar_head_of_continues_eq_false hstops.1 x (by simp [hsplit])
    have hdrop : (c :: text ++ x :: more).dropWhile isWordChar = x :: more :=
      Numeral.dropWhile_append_of_head (hform.isWordChar_of_continuing hstart hcontinuing)
        (by simpa using hx)
    have hexponent : Numeral.Form (x :: more) := by
      have hdropped := hform.dropWhile_isWordChar
      rw [hdrop] at hdropped
      exact hdropped.resolve_left (List.cons_ne_nil x more)
    have hsign : x = '+' ∨ x = '-' :=
      (hexponent.isWordChar_or_sign x (List.mem_cons_self ..)).resolve_left (by simp [hx])
    cases hcs with
    | nil => cases hsplit
    | @cons _ token next cs' _ hnext hnextStops _ =>
      obtain ⟨y, next, rfl⟩ := List.exists_cons_of_ne_nil hnext.ne_nil
      obtain rfl : y = x := by simpa using congrArg List.head? hsplit
      obtain ⟨digits, rfl⟩ := hnext.eq_number_of_sign hsign
      have hcs' : continues cs' = false := continues_eq_false_of_append hnextStops
      have heq : y :: next = y :: more := hnext.2.unique hexponent hcs' hafter hsplit
      rw [← heq] at hform
      exact hstops.2 (y :: next) (cs' ++ rest) (List.append_assoc ..) hnextStops hform

theorem Token.Stops.alone (hspelled : token.SpelledAs text) (hstops : token.Stops text (cs ++ rest))
    (hcs : Lexed rest n cs ts) : token.Stops text cs := by
  have hhead : ∀ {p : Char → Prop}, (∀ c ∈ (cs ++ rest).head?, p c) → ∀ c ∈ cs.head?, p c := by
    intro p h
    cases cs with
    | nil => simp
    | cons c cs => exact h
  cases token with
  | number n => exact Word.continues_eq_false_of_append hstops
  | word w => exact Word.stops_alone hspelled hstops hcs
  | comment s => exact hhead hstops
  | space => exact hhead hstops
  | string s => trivial
  | punct p => trivial
  | newline => trivial

/-- A part of a text has the same tokens when nothing follows it. -/
theorem Lexed.alone (h : Lexed rest n cs ts) : Lexed [] n cs ts := by
  induction h with
  | nil => exact .nil
  | cons hspelled hstops hcs ih =>
    refine .cons hspelled ?_ ih
    rw [List.append_nil]
    exact hstops.alone hspelled hcs

/-! ## A part before a break -/

/-- A character with which neither a number nor a word goes on. -/
structure Word.Breaks (c : Char) : Prop where
  isWordChar : isWordChar c = false
  colon : c ≠ ':'
  sign : ¬ (c = '+' ∨ c = '-')

namespace Word

theorem breaks_newline : Breaks '\n' := ⟨rfl, by decide, by decide⟩

theorem breaks_semicolon : Breaks ';' := ⟨rfl, by decide, by decide⟩

theorem breaks_of_isBlank (h : isBlank c = true) : Breaks c := by
  refine ⟨isWordChar_of_isBlank h, ?_, ?_⟩
  · rintro rfl
    cases h
  · rintro (rfl | rfl) <;> cases h

theorem continues_append_break (hc : Breaks c) (h : continues cs = false) :
    continues (cs ++ c :: ds) = false := by
  cases cs with
  | nil => exact continues_cons_eq_false.mpr ⟨hc.isWordChar, fun h => absurd h hc.colon⟩
  | cons d cs =>
    rw [continues_cons_eq_false] at h
    refine continues_cons_eq_false.mpr ⟨h.1, fun hd => ?_⟩
    cases cs with
    | nil => exact hc.isWordChar
    | cons d cs => exact h.2 hd

end Word

theorem Token.Stops.append_break (hc : Word.Breaks c)
    (hend : cs = [] → token.isTrivia = true → c = '\n') (hstops : token.Stops text cs) :
    token.Stops text (cs ++ c :: ds) := by
  cases token with
  | number n => exact Word.continues_append_break hc hstops
  | word w =>
    refine ⟨Word.continues_append_break hc hstops.1, ?_⟩
    rintro more after hsplit hafter hform
    rcases List.append_eq_append_iff.mp hsplit with ⟨line, rfl, hline⟩ | ⟨inner, rfl, rfl⟩
    · cases line with
      | nil => exact hstops.2 cs [] (List.append_nil cs).symm rfl (by simpa using hform)
      | cons x line =>
        obtain ⟨rfl, -⟩ := List.cons.inj hline
        have hword := hform.isWordChar_or_sign c (by simp)
        rw [hc.isWordChar] at hword
        exact absurd (hword.resolve_left Bool.noConfusion) hc.sign
    · exact hstops.2 more inner rfl (Word.continues_eq_false_of_append hafter) hform
  | comment s =>
    cases cs with
    | nil => simp [Stops, hend rfl rfl]
    | cons c cs => exact hstops
  | space =>
    cases cs with
    | nil => simp [Stops, IsSpace, hend rfl rfl]
    | cons c cs => exact hstops
  | string s => trivial
  | punct p => trivial
  | newline => trivial

theorem Lexed.eq_nil (h : Lexed rest n [] ts) : ts = [] := by
  generalize hcs : ([] : List Char) = cs at h
  cases h with
  | nil => rfl
  | cons hspelled => exact absurd (List.append_eq_nil_iff.mp hcs.symm).1 hspelled.ne_nil

/-- A text keeps its tokens when a break and more text follow. Trivia at its end would go on, unless
the break is a line end. -/
theorem Lexed.append_break (hc : Word.Breaks c)
    (hend : ∀ l ∈ ts.getLast?, l.token.isTrivia = true → c = '\n') (h : Lexed [] n cs ts) :
    Lexed (c :: ds) n cs ts := by
  induction h with
  | nil => exact .nil
  | @cons n token text cs ts hspelled hstops hcs ih =>
    rw [List.append_nil] at hstops
    refine .cons hspelled (hstops.append_break hc ?_) (ih fun l hl => hend l ?_)
    · rintro rfl
      obtain rfl := hcs.eq_nil
      exact hend _ rfl
    · rw [List.getLast?_cons, Option.mem_def.mp hl]
      rfl

/-- A text keeps its tokens when a line end and more text follow. -/
theorem Lexed.append_newline (h : Lexed [] n cs ts) : Lexed ('\n' :: ds) n cs ts :=
  h.append_break Word.breaks_newline fun _ _ _ => rfl

/-! ## A part at another place -/

/-- The tokens of a text that starts at another offset are the same, and their spans are as far from
the new offset as they were from the old one. -/
theorem Lexed.move {f : Span → Span} (hf : ∀ i j, f ⟨n + i, n + j⟩ = ⟨m + i, m + j⟩)
    (h : Lexed rest n cs ts) : Lexed rest m cs (ts.map (Lexeme.mapSpan f)) := by
  induction h generalizing m with
  | nil => exact .nil
  | @cons n token text cs ts hspelled hstops _ ih =>
    have hfirst := hf 0 (byteLength text)
    rw [Nat.add_zero, Nat.add_zero] at hfirst
    rw [List.map_cons, Lexeme.mapSpan, hfirst]
    refine .cons hspelled hstops (ih fun i j => ?_)
    simpa [Nat.add_assoc] using hf (byteLength text + i) (byteLength text + j)

/-- Consecutive tokens of a source span a part of it that is read, on its own, as the same tokens. -/
theorem tokenize_infix {source : String} (hts : tokenize source = .ok ts) (hus : us <:+: ts) :
    ∃ n m, Abut n (us.map (·.span)) m ∧ (Span.mk n m).Cuts source ∧
      tokenize ((Span.mk n m).text source) = .ok (us.map (Lexeme.mapSpan (Span.back n))) := by
  obtain ⟨as, bs, rfl⟩ := hus
  rw [List.append_assoc] at hts
  obtain ⟨before, cs, hsource, -, hcs⟩ := (tokenize_eq_ok_iff.mp hts).exists_append
  obtain ⟨inside, after, rfl, hinside, -⟩ := hcs.exists_append
  rw [Nat.zero_add] at hinside
  have hsplit : source.toList = before ++ inside ++ after := by rw [hsource, List.append_assoc]
  have hstop := isValid_byteLength hsplit
  rw [byteLength_append] at hstop
  refine ⟨byteLength before, byteLength before + byteLength inside, hinside.abut,
    ⟨isValid_byteLength hsource, hstop⟩, tokenize_eq_ok_iff.mpr ?_⟩
  rw [Span.text, hsplit, Span.chars_of_append rfl rfl, String.toList_ofList]
  exact hinside.alone.move fun i j => by simp [Span.back]

end SceneDiagram
