import SceneDiagram.Proofs.Token.Locality

/-!
# Tokens before a delimiter

A delimiter is a text with which neither a word nor a number goes on: a mark, a blank, or a colon
with a blank after it (`IsDelimiter`). A word or a number that was read from some source is read
again wherever a delimiter follows it (`Token.Stops.before_delimiter`), since before a delimiter
there is nothing that could make it longer or make a number of a word.
-/

namespace SceneDiagram

open Text

variable {rest text cs : List Char} {n : Nat} {ts : List Lexeme} {token : Token} {c : Char}

/-! ## Delimiters -/

/-- A text with which neither a word nor a number goes on. -/
def IsDelimiter (rest : List Char) : Prop :=
  Word.continues rest = false ∧ ∀ c ∈ rest.head?, ¬ (c = '+' ∨ c = '-')

theorem isDelimiter_nil : IsDelimiter [] := ⟨rfl, by simp⟩

theorem isDelimiter_of_breaks (hc : Word.Breaks c) : IsDelimiter (c :: rest) := by
  refine ⟨Word.continues_cons_eq_false.mpr ⟨hc.isWordChar, fun h => absurd h hc.colon⟩, ?_⟩
  intro d hd
  obtain rfl := Option.some.inj hd
  exact hc.sign

theorem isDelimiter_punct (p : Punct) (hp : p ≠ .colon) : IsDelimiter (p.char :: rest) := by
  have hclass : Word.isWordChar p.char = false ∧ p.char ≠ '+' ∧ p.char ≠ '-' := by
    cases p <;> decide
  have hcolon : p.char ≠ ':' := by
    intro h
    have hchar := Punct.ofChar?_char p
    rw [h] at hchar
    exact hp (Option.some.inj hchar).symm
  exact isDelimiter_of_breaks ⟨hclass.1, hcolon, not_or.mpr hclass.2⟩

theorem isDelimiter_space : IsDelimiter (' ' :: rest) :=
  isDelimiter_of_breaks (Word.breaks_of_isBlank rfl)

/-- A colon carries a word on only if a word character follows it. -/
theorem isDelimiter_colon_space : IsDelimiter (':' :: ' ' :: rest) :=
  ⟨Word.continues_cons_eq_false.mpr ⟨rfl, fun _ => rfl⟩, by simp⟩

/-! ## Tokens that were read -/

/-- A token that some text is read as. -/
def Token.WasRead (token : Token) : Prop :=
  ∃ text rest, token.SpelledAs text ∧ token.Stops text rest

theorem Lexed.wasRead (h : Lexed rest n cs ts) : ∀ l ∈ ts, l.token.WasRead := by
  induction h with
  | nil => simp
  | @cons _ token text cs _ hspelled hstops _ ih =>
    rintro l hl
    rcases List.mem_cons.mp hl with rfl | hl
    · exact ⟨text, cs ++ _, hspelled, hstops⟩
    · exact ih l hl

/-- A token stops before any delimiter if it stopped anywhere. -/
theorem Token.Stops.before_delimiter {after : List Char} (hstops : token.Stops text after)
    (htrivia : token.isTrivia = false) (hrest : IsDelimiter rest) : token.Stops text rest := by
  cases token with
  | number n => exact hrest.1
  | word w =>
    refine ⟨hrest.1, ?_⟩
    rintro more after' rfl - hform
    cases more with
    | nil => exact hstops.2 [] after rfl hstops.1 hform
    | cons c more =>
      -- A number that reaches beyond the word would go on with the first character of the rest.
      have hword : Word.isWordChar c = false :=
        Word.isWordChar_head_of_continues_eq_false hrest.1 c rfl
      have hsign := (hform.isWordChar_or_sign c (by simp)).resolve_left (by simp [hword])
      exact hrest.2 c rfl hsign
  | string s => trivial
  | punct p => trivial
  | comment s => cases htrivia
  | space => cases htrivia
  | newline => cases htrivia

/-- Only trivia starts with a blank. -/
theorem Token.SpelledAs.not_isSpace_head (h : token.SpelledAs (c :: text))
    (htrivia : token.isTrivia = false) : ¬ Token.IsSpace c := by
  have hword : Word.isWordChar c = true → ¬ Token.IsSpace c := by
    intro hc hspace
    rw [Word.isWordChar_of_isBlank hspace.1] at hc
    cases hc
  cases token with
  | string s =>
    obtain ⟨_, heq, -⟩ := h
    obtain ⟨rfl, -⟩ := List.cons.inj heq
    simp [Token.IsSpace, isBlank]
  | number n =>
    rcases h.2.isWordChar_or_sign c (List.mem_cons_self ..) with hc | rfl | rfl
    · exact hword hc
    · simp [Token.IsSpace, isBlank]
    · simp [Token.IsSpace, isBlank]
  | word w =>
    obtain ⟨-, _, _, heq, hstart, -⟩ := h
    obtain ⟨rfl, -⟩ := List.cons.inj heq
    exact hword (Word.isWordChar_of_isStart hstart)
  | punct p =>
    obtain ⟨rfl, -⟩ := List.cons.inj h
    cases p <;> simp [Token.IsSpace, isBlank, Punct.char]
  | comment s => cases htrivia
  | space => cases htrivia
  | newline => cases htrivia

/-- A text without quotes and backslashes spells itself. -/
theorem Quoted.Spells.plain_text (hquote : '"' ∉ cs) (hbackslash : '\\' ∉ cs) :
    Quoted.Spells cs cs := by
  induction cs with
  | nil => exact .nil
  | cons c cs ih =>
    rw [List.mem_cons, not_or] at hquote hbackslash
    exact .plain (Ne.symm hquote.1) (Ne.symm hbackslash.1) (ih hquote.2 hbackslash.2)

/-! ## Texts put together -/

namespace Lexed

theorem single (hspelled : token.SpelledAs text) (hstops : token.Stops text rest) :
    Lexed rest n text [⟨token, ⟨n, n + byteLength text⟩⟩] := by
  have h : Lexed rest n (text ++ []) [⟨token, ⟨n, n + byteLength text⟩⟩] :=
    .cons hspelled hstops .nil
  rwa [List.append_nil] at h

/-- A word that was read is read again before a delimiter. -/
theorem word {w : String} (h : (Token.word w).WasRead) (hrest : IsDelimiter rest) :
    Lexed rest n w.toList [⟨.word w, ⟨n, n + byteLength w.toList⟩⟩] := by
  obtain ⟨text, after, hspelled, hstops⟩ := h
  obtain rfl := hspelled.1
  exact single hspelled (hstops.before_delimiter rfl hrest)

/-- A number that was read is read again before a delimiter. -/
theorem number {w : String} (h : (Token.number w).WasRead) (hrest : IsDelimiter rest) :
    Lexed rest n w.toList [⟨.number w, ⟨n, n + byteLength w.toList⟩⟩] := by
  obtain ⟨text, after, hspelled, hstops⟩ := h
  obtain rfl := hspelled.1
  exact single hspelled (hstops.before_delimiter rfl hrest)

theorem punct (p : Punct) : Lexed rest n [p.char] [⟨.punct p, ⟨n, n + byteLength [p.char]⟩⟩] :=
  single rfl trivial

/-- A text without quotes and backslashes, between two quotes. -/
theorem quoted {s : String} (hquote : '"' ∉ s.toList) (hbackslash : '\\' ∉ s.toList) :
    Lexed rest n ('"' :: (s.toList ++ ['"']))
      [⟨.string s, ⟨n, n + byteLength ('"' :: (s.toList ++ ['"']))⟩⟩] := by
  have hspelled : (Token.string s).SpelledAs ('"' :: (s.toList ++ ['"'])) :=
    ⟨s.toList, rfl, .plain_text hquote hbackslash⟩
  exact single hspelled trivial

/-- A text between two marks. -/
theorem enclose (p q : Punct) (h : Lexed (q.char :: rest) (n + byteLength [p.char]) cs ts) :
    ∃ a b, Lexed rest n (p.char :: (cs ++ [q.char]))
      (⟨.punct p, a⟩ :: (ts ++ [⟨.punct q, b⟩])) := by
  have hinside : Lexed rest (n + byteLength [p.char]) (cs ++ [q.char]) (ts ++ [_]) :=
    h.append (punct q)
  exact ⟨_, _, (punct p).append hinside⟩

/-- A blank before a text that does not start with one. -/
theorem space (h : Lexed rest (n + byteLength [' ']) cs ts)
    (hhead : ∃ l ∈ ts.head?, l.token.isTrivia = false) :
    Lexed rest n (' ' :: cs) (⟨.space, ⟨n, n + byteLength [' ']⟩⟩ :: ts) := by
  have hstops : Token.space.Stops [' '] (cs ++ rest) := by
    obtain ⟨l, hl, htrivia⟩ := hhead
    cases h with
    | nil => cases hl
    | @cons _ token text cs _ hspelled _ _ =>
      obtain rfl := Option.some.inj hl
      obtain ⟨c, text, rfl⟩ := List.exists_cons_of_ne_nil hspelled.ne_nil
      intro d hd
      obtain rfl := Option.some.inj hd
      exact hspelled.not_isSpace_head htrivia
  have hspelled : Token.space.SpelledAs [' '] := ⟨by simp, by simp [Token.IsSpace, isBlank]⟩
  exact .cons hspelled hstops h

theorem space_punct (p : Punct) (n : Nat) (rest : List Char) :
    ∃ a b, Lexed rest n [' ', p.char] [⟨.space, a⟩, ⟨.punct p, b⟩] := by
  have hmark : Lexed rest (n + byteLength [' ']) [p.char] [⟨.punct p, _⟩] := punct p
  exact ⟨_, _, hmark.space ⟨_, rfl, rfl⟩⟩

end Lexed

end SceneDiagram
