import SceneDiagram.Proofs.Text.Span
import SceneDiagram.Proofs.Token.Spelling

/-!
# Tokens tile their source

`Lexed` says that tokens are spelled one right after another. A source has tokens exactly if its
text is spelled out by them from the first byte to the last (`tokenize_eq_ok_iff`), so nothing of a
source is lost: every token can be checked against the text of its span (`tokenize_lossless`).
-/

namespace SceneDiagram

open Text

/-- A text spelled out by tokens, the first of which starts at an offset, where `rest` follows the
text. Every token stops before the whole of what follows it. -/
inductive Lexed (rest : List Char) : Nat → List Char → List Lexeme → Prop
  | nil {n : Nat} : Lexed rest n [] []
  | cons {n : Nat} {token : Token} {text cs : List Char} {ts : List Lexeme} :
      token.SpelledAs text → token.Stops text (cs ++ rest) →
      Lexed rest (n + byteLength text) cs ts →
      Lexed rest n (text ++ cs) (⟨token, ⟨n, n + byteLength text⟩⟩ :: ts)

variable {rest cs text : List Char} {n m : Nat} {ts us : List Lexeme} {l : Lexeme}

namespace Piece

theorem read_first (c : Char) (cs : List Char) : (read c cs).first = c := by
  unfold read
  split
  · rfl
  split
  · subst c
    unfold readString
    split <;> rfl
  split
  · rfl
  split
  · rfl
  split
  · rfl
  split
  · rfl
  split <;> rfl

theorem lexed_of_readAll (hfaults : diagnostics n (readAll cs) = [])
    (hlexemes : lexemes n (readAll cs) = ts) : Lexed [] n cs ts := by
  induction cs using readAll.induct generalizing n ts with
  | case1 =>
    rw [readAll] at hlexemes
    subst hlexemes
    exact .nil
  | case2 c cs piece =>
    rename_i ih
    rw [readAll] at hfaults hlexemes
    have hfirst : piece.first = c := read_first c cs
    have hpiece : read c cs = piece := rfl
    rw [hpiece] at hfaults hlexemes
    clear_value piece
    obtain ⟨first, more, outcome⟩ := piece
    subst hfirst
    cases outcome with
    | error fault => cases hfaults
    | ok token =>
      obtain ⟨rest, rfl, hspelled, hstops⟩ := read_eq_iff.mp hpiece
      simp only [List.drop_left] at hfaults hlexemes ih
      subst hlexemes
      rw [← List.append_nil rest] at hstops
      exact .cons hspelled hstops (ih hfaults rfl)

theorem readAll_of_lexed (h : Lexed [] n cs ts) :
    diagnostics n (readAll cs) = [] ∧ lexemes n (readAll cs) = ts := by
  induction h with
  | nil => exact ⟨by rw [readAll]; rfl, by rw [readAll]; rfl⟩
  | @cons n token text cs ts hspelled hstops _ ih =>
    obtain ⟨c, more, rfl⟩ := List.exists_cons_of_ne_nil hspelled.ne_nil
    rw [List.append_nil] at hstops
    have hread : read c (more ++ cs) = ⟨c, more, .ok token⟩ :=
      read_eq_iff.mpr ⟨cs, rfl, hspelled, hstops⟩
    have hall : readAll (c :: more ++ cs) = ⟨c, more, .ok token⟩ :: readAll cs := by
      rw [List.cons_append, readAll, hread, List.drop_left]
    rw [hall]
    exact ⟨ih.1, by rw [lexemes, ← ih.2]; rfl⟩

end Piece

/-- There are tokens if nothing is found. -/
theorem tokenize_eq_ok_iff_diagnostics {source : String} {tokens : List Lexeme} :
    tokenize source = .ok tokens ↔
      Piece.diagnostics 0 (Piece.readAll source.toList) = [] ∧
        Piece.lexemes 0 (Piece.readAll source.toList) = tokens := by
  simp only [tokenize]
  cases Piece.diagnostics 0 (Piece.readAll source.toList) with
  | nil => simp
  | cons d ds => simp

/-- If anything is found, all of it is told. -/
theorem tokenize_eq_error_iff {source : String} {e : ParseError} :
    tokenize source = .error e ↔
      Piece.diagnostics 0 (Piece.readAll source.toList) ≠ [] ∧
        Piece.diagnostics 0 (Piece.readAll source.toList) = e.diagnostics := by
  simp only [tokenize]
  cases Piece.diagnostics 0 (Piece.readAll source.toList) with
  | nil => simp
  | cons d ds =>
    cases e with
    | mk found => simp

/-- The tokens of a source are those that spell it out. -/
theorem tokenize_eq_ok_iff {source : String} {tokens : List Lexeme} :
    tokenize source = .ok tokens ↔ Lexed [] 0 source.toList tokens := by
  rw [tokenize_eq_ok_iff_diagnostics]
  constructor
  · rintro ⟨hfaults, hlexemes⟩
    exact Piece.lexed_of_readAll hfaults hlexemes
  · exact Piece.readAll_of_lexed

/-! ## Parts of a text and their tokens -/

namespace Lexed

/-- The first of some tokens spell out a first part of the text, with the other part after it. -/
theorem exists_append (h : Lexed rest n cs (ts ++ us)) :
    ∃ as bs, cs = as ++ bs ∧ Lexed (bs ++ rest) n as ts ∧
      Lexed rest (n + byteLength as) bs us := by
  induction ts generalizing n cs with
  | nil => exact ⟨[], cs, rfl, .nil, h⟩
  | cons l ts ih =>
    cases h with
    | @cons _ token text cs _ hspelled hstops h =>
      obtain ⟨as, bs, rfl, hts, hus⟩ := ih h
      refine ⟨text ++ as, bs, by simp, .cons hspelled (by simpa using hstops) hts, ?_⟩
      simpa [Nat.add_assoc] using hus

theorem append {as bs : List Char} (hts : Lexed (bs ++ rest) n as ts)
    (hus : Lexed rest (n + byteLength as) bs us) : Lexed rest n (as ++ bs) (ts ++ us) := by
  induction hts with
  | nil => exact hus
  | @cons n token text cs ts hspelled hstops _ ih =>
    rw [List.append_assoc, List.cons_append]
    refine .cons hspelled (by simpa using hstops) (ih ?_)
    simpa [Nat.add_assoc] using hus

/-- The spans of tokens that spell out a text lie one right after another. -/
theorem abut (h : Lexed rest n cs ts) : Abut n (ts.map (·.span)) (n + byteLength cs) := by
  induction h with
  | nil => exact .nil
  | @cons n token text cs ts hspelled _ _ ih =>
    have hpos := byteLength_pos hspelled.ne_nil
    rw [byteLength_append, ← Nat.add_assoc]
    exact .cons (by omega) ih

/-- Each of the tokens that spell out a text is spelled by one part of it and stops there. -/
theorem exists_of_mem (h : Lexed rest n cs ts) (hl : l ∈ ts) :
    ∃ before text after, cs = before ++ text ++ after ∧
      l.span = ⟨n + byteLength before, n + byteLength before + byteLength text⟩ ∧
      l.token.SpelledAs text ∧ l.token.Stops text (after ++ rest) := by
  obtain ⟨ts, us, rfl⟩ := List.append_of_mem hl
  obtain ⟨before, cs, rfl, -, hus⟩ := h.exists_append
  cases hus with
  | @cons _ token text after _ hspelled hstops _ =>
    exact ⟨before, text, after, (List.append_assoc ..).symm, rfl, hspelled, hstops⟩

end Lexed

/-- A token of a source is spelled by the text of its span and stops before what comes after it. -/
theorem spelledAs_of_mem_tokenize {source : String} {tokens : List Lexeme}
    (h : tokenize source = .ok tokens) (hl : l ∈ tokens) :
    ∃ before after, source.toList = before ++ (l.span.text source).toList ++ after ∧
      byteLength before = l.span.start ∧
      l.token.SpelledAs (l.span.text source).toList ∧
      l.token.Stops (l.span.text source).toList after := by
  obtain ⟨before, text, after, hsource, hspan, hspelled, hstops⟩ :=
    (tokenize_eq_ok_iff.mp h).exists_of_mem hl
  rw [Nat.zero_add] at hspan
  rw [List.append_nil] at hstops
  have htext : (l.span.text source).toList = text := by
    rw [hspan, Span.text, hsource, Span.chars_of_append rfl rfl, String.toList_ofList]
  refine ⟨before, after, ?_, ?_, ?_, ?_⟩
  · rw [htext, hsource]
  · rw [hspan]
  · rwa [htext]
  · rwa [htext]

/-! ## Blanks before a blank run -/

theorem Word.Continuing.isWordChar_or_colon (h : Word.Continuing cs) :
    ∀ c ∈ cs, Word.isWordChar c = true ∨ c = ':' := by
  induction h with
  | nil => simp
  | char hc _ ih => simpa [hc] using ih
  | colon hc _ ih => simpa [hc] using ih

/-- No token but a blank run or a comment ends in a blank, and neither is followed by one. -/
theorem Token.SpelledAs.not_isSpace_getLast {token : Token} (hspelled : token.SpelledAs text)
    (hstops : token.Stops text rest) (hrest : ∃ c ∈ rest.head?, IsSpace c) :
    ∀ c ∈ text.getLast?, ¬ IsSpace c := by
  have hword : ∀ {c}, Word.isWordChar c = true → ¬ IsSpace c := by
    intro c hc hspace
    rw [Word.isWordChar_of_isBlank hspace.1] at hc
    cases hc
  obtain ⟨d, hd, hspace⟩ := hrest
  intro c hlast
  have hmem := List.mem_of_mem_getLast? hlast
  cases token with
  | string s =>
    obtain ⟨spelling, rfl, -⟩ := hspelled
    rw [← List.cons_append, List.getLast?_concat] at hlast
    obtain rfl := Option.some.inj hlast
    simp [IsSpace, isBlank]
  | number n =>
    rcases hspelled.2.isWordChar_or_sign c hmem with hc | rfl | rfl
    · exact hword hc
    · simp [IsSpace, isBlank]
    · simp [IsSpace, isBlank]
  | word w =>
    obtain ⟨-, first, more, rfl, hstart, hmore⟩ := hspelled
    rcases List.mem_cons.mp hmem with rfl | hmem
    · exact hword (Word.isWordChar_of_isStart hstart)
    · rcases hmore.isWordChar_or_colon c hmem with hc | rfl
      · exact hword hc
      · simp [IsSpace, isBlank]
  | punct p =>
    obtain rfl := hspelled
    obtain rfl : p.char = c := by simpa using hlast
    cases p <;> simp [IsSpace, isBlank, Punct.char]
  | comment s =>
    have hline := hstops d hd
    exact absurd hline hspace.2
  | space => exact absurd hspace (hstops d hd)
  | newline =>
    obtain rfl := hspelled
    obtain rfl : '\n' = c := by simpa using hlast
    simp [IsSpace]

/-- Where a blank run is read, there is no blank before it and none after it. -/
theorem Lexed.space_is_maximal {as bs : List Char}
    (hts : Lexed (text ++ bs) n as ts) (hspelled : Token.space.SpelledAs text)
    (hstops : Token.space.Stops text bs) :
    (∀ c ∈ as.getLast?, ¬ Token.IsSpace c) ∧ ∀ c ∈ bs.head?, ¬ Token.IsSpace c := by
  refine ⟨?_, hstops⟩
  rcases List.eq_nil_or_concat ts with rfl | ⟨ts, l, rfl⟩
  · cases hts
    simp
  · rw [List.concat_eq_append] at hts
    obtain ⟨as, last, rfl, -, hlast⟩ := hts.exists_append
    cases hlast with
    | @cons _ token word cs _ hspelled' hstops' hnil =>
      cases hnil
      obtain ⟨c, text, rfl⟩ := List.exists_cons_of_ne_nil hspelled.ne_nil
      have hfirst : ∃ d ∈ (c :: text ++ bs).head?, Token.IsSpace d :=
        ⟨c, rfl, hspelled.2 c (List.mem_cons_self ..)⟩
      have hlast := hspelled'.not_isSpace_getLast hstops' hfirst
      obtain ⟨d, hd⟩ : ∃ d, word.getLast? = some d :=
        ⟨_, List.getLast?_eq_some_getLast hspelled'.ne_nil⟩
      rw [List.append_nil, List.getLast?_append, hd, Option.some_or]
      rwa [hd] at hlast

/-- A successful reading loses nothing of a source. The spans of the tokens are not empty and lie
one right after another, from the first byte to the last; they start and end between characters;
every token is spelled by the text of its span; and a blank run is a longest one. -/
theorem tokenize_lossless {source : String} {tokens : List Lexeme}
    (h : tokenize source = .ok tokens) :
    Abut 0 (tokens.map (·.span)) source.utf8ByteSize ∧
      ∀ l ∈ tokens,
        l.span.Cuts source ∧ l.token.SpelledAs (l.span.text source).toList ∧
        ∃ before after, source.toList = before ++ (l.span.text source).toList ++ after ∧
          byteLength before = l.span.start ∧
          (l.token = .space →
            (∀ c ∈ before.getLast?, ¬ Token.IsSpace c) ∧
              ∀ c ∈ after.head?, ¬ Token.IsSpace c) := by
  have hlexed := tokenize_eq_ok_iff.mp h
  refine ⟨?_, fun l hl => ?_⟩
  · have habut := hlexed.abut
    rwa [Nat.zero_add, byteLength_toList] at habut
  obtain ⟨ts, us, rfl⟩ := List.append_of_mem hl
  obtain ⟨before, cs, hsource, hts, hus⟩ := hlexed.exists_append
  generalize hn : 0 + byteLength before = n at hus
  cases hus with
  | @cons _ token text after _ hspelled hstops _ =>
    rw [Nat.zero_add] at hn
    subst hn
    rw [List.append_nil] at hts hstops
    rw [← List.append_assoc] at hsource
    have hchars : (Span.mk (byteLength before) (byteLength before + byteLength text)).text source =
        String.ofList text := by
      rw [Span.text, hsource, Span.chars_of_append rfl rfl]
    have hstop := isValid_byteLength hsource
    rw [byteLength_append] at hstop
    rw [hchars, String.toList_ofList]
    refine ⟨⟨isValid_byteLength (hsource.trans (List.append_assoc ..)), hstop⟩, hspelled, before,
      after, hsource, rfl, ?_⟩
    rintro rfl
    exact hts.space_is_maximal hspelled hstops

/-- A source with a letter of two bytes, an escape and a comment is covered by its seven tokens. -/
theorem tokenize_lossless_escape :
    let source := "\u00e9 = \"\\n\" ;c"
    let tokens : List Lexeme :=
      [⟨.word "\u00e9", ⟨0, 2⟩⟩, ⟨.space, ⟨2, 3⟩⟩, ⟨.punct .equals, ⟨3, 4⟩⟩, ⟨.space, ⟨4, 5⟩⟩,
        ⟨.string "\n", ⟨5, 9⟩⟩, ⟨.space, ⟨9, 10⟩⟩, ⟨.comment "c", ⟨10, 12⟩⟩]
    tokenize source = .ok tokens ∧ Abut 0 (tokens.map (·.span)) 12 ∧
      (Token.string "\n").SpelledAs ((Span.mk 5 9).text source).toList := by
  intro source tokens
  have hread : tokenize source = .ok tokens := by cbv
  obtain ⟨habut, htokens⟩ := tokenize_lossless hread
  obtain ⟨-, hspelled, -⟩ := htokens ⟨.string "\n", ⟨5, 9⟩⟩ (by simp [tokens])
  exact ⟨hread, habut, hspelled⟩

end SceneDiagram
