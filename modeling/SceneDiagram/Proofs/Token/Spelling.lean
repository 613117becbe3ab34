import SceneDiagram.Proofs.Token.Numeral
import SceneDiagram.Proofs.Token.Quoted

/-!
# The spelling of tokens

`Token.SpelledAs` says which texts spell a token, and `Token.Stops` what may follow such a text so
that the token ends there. The two together are all there is to reading a token
(`Piece.read_eq_iff`): the first piece of a text is a token exactly if the text starts with a
spelling of it that stops there.
-/

namespace SceneDiagram

open Text

/-- The characters of blank runs. -/
def Token.IsSpace (c : Char) : Prop := isBlank c = true ∧ c ≠ '\n'

/-- The texts that spell a token. -/
def Token.SpelledAs : Token → List Char → Prop
  | string s, text =>
    ∃ spelling, text = '"' :: (spelling ++ ['"']) ∧ Quoted.Spells spelling s.toList
  | number n, text => text = n.toList ∧ Numeral.Form text
  | word w, text =>
    text = w.toList ∧ ∃ c more, text = c :: more ∧ Word.isStart c = true ∧ Word.Continuing more
  | punct p, text => text = [p.char]
  | comment s, text => text = ';' :: s.toList ∧ '\n' ∉ s.toList
  | space, text => text ≠ [] ∧ ∀ c ∈ text, IsSpace c
  | newline, text => text = ['\n']

/-- Whether a token with a given spelling ends before the rest of a text: the rest does not carry
the token on, nor does it make a numeral of a word. -/
def Token.Stops : Token → List Char → List Char → Prop
  | number _, _, rest => Word.continues rest = false
  | word _, text, rest =>
    Word.continues rest = false ∧ ∀ more after, rest = more ++ after →
      Word.continues after = false → ¬ Numeral.Form (text ++ more)
  | comment _, _, rest => ∀ c ∈ rest.head?, c = '\n'
  | space, _, rest => ∀ c ∈ rest.head?, ¬ IsSpace c
  | _, _, _ => True

namespace Token

variable {token : Token} {text rest : List Char} {c : Char} {more : List Char}

theorem SpelledAs.ne_nil (h : token.SpelledAs text) : text ≠ [] := by
  cases token with
  | string s =>
    obtain ⟨spelling, rfl, -⟩ := h
    simp
  | number n => exact h.2.ne_nil
  | word w =>
    obtain ⟨-, c, more, rfl, -⟩ := h
    simp
  | space => exact h.1
  | punct p =>
    obtain rfl := h
    simp
  | comment s =>
    obtain ⟨rfl, -⟩ := h
    simp
  | newline =>
    obtain rfl := h
    simp

end Token

namespace Piece

variable {c : Char} {cs more rest : List Char} {token : Token}

theorem takeWhile_append_of_head {p : Char → Bool} (hmore : ∀ d ∈ more, p d = true)
    (hrest : ∀ d ∈ rest.head?, p d = false) : (more ++ rest).takeWhile p = more := by
  have hsplit : (more ++ rest).takeWhile p ++ (more ++ rest).dropWhile p = more ++ rest :=
    List.takeWhile_append_dropWhile
  rw [Numeral.dropWhile_append_of_head hmore hrest] at hsplit
  exact List.append_cancel_right hsplit

theorem head_dropWhile {p : Char → Bool} : ∀ d ∈ (cs.dropWhile p).head?, p d = false := by
  intro d hd
  have h := List.head?_dropWhile_not p cs
  simp_all

theorem mem_takeWhile {p : Char → Bool} {d : Char} (h : d ∈ cs.takeWhile p) : p d = true :=
  List.all_eq_true.mp List.all_takeWhile d h

/-- A run of characters of one kind, and what is not of this kind after it. -/
theorem takeWhile_eq_iff {p : Char → Bool} :
    cs.takeWhile p = more ↔
      ∃ rest, cs = more ++ rest ∧ (∀ d ∈ more, p d = true) ∧ ∀ d ∈ rest.head?, p d = false := by
  constructor
  · rintro rfl
    exact ⟨cs.dropWhile p, List.takeWhile_append_dropWhile.symm, fun _ => mem_takeWhile,
      head_dropWhile⟩
  · rintro ⟨rest, rfl, hmore, hrest⟩
    exact takeWhile_append_of_head hmore hrest

/-! ## Which numerals are none -/

theorem numeralTail?_eq_none (hword : Word.isWordChar c = false) (hplus : c ≠ '+')
    (hminus : c ≠ '-') : numeralTail? c cs = none := by
  cases htail : numeralTail? c cs with
  | none => rfl
  | some tail =>
    obtain ⟨rest, -, hform, -⟩ := numeralTail?_eq_some_iff.mp htail
    have hc := hform.isWordChar_or_sign c (List.mem_cons_self ..)
    simp [hword, hplus, hminus] at hc

/-- A word that stops is no numeral: a numeral cannot end inside the word, because the rest of the
word would carry it on, and where the word stops there is none that is as long or longer. -/
theorem numeralTail?_eq_none_of_stops {w : String} (hmore : Word.Continuing more)
    (hstops : (Token.word w).Stops (c :: more) rest) : numeralTail? c (more ++ rest) = none := by
  cases htail : numeralTail? c (more ++ rest) with
  | none => rfl
  | some tail =>
    obtain ⟨after, hsplit, hform, hafter⟩ := numeralTail?_eq_some_iff.mp htail
    rcases List.append_eq_append_iff.mp hsplit with ⟨extra, rfl, hrest⟩ | ⟨inner, rfl, rfl⟩
    · exact absurd hform (hstops.2 extra after hrest hafter)
    · cases inner with
      | nil =>
        rw [List.append_nil] at hstops
        have hnone := hstops.2 [] rest rfl hstops.1
        rw [List.append_nil] at hnone
        exact absurd hform hnone
      | cons d inner =>
        rw [hmore.continues_suffix (List.cons_ne_nil d inner)] at hafter
        cases hafter

/-! ## One token -/

/-- A comment runs up to the end of its line. -/
theorem takeWhile_line_eq_iff :
    cs.takeWhile (· != '\n') = more ↔
      ∃ rest, cs = more ++ rest ∧ '\n' ∉ more ∧ ∀ d ∈ rest.head?, d = '\n' := by
  have hline : (∀ d ∈ more, (d != '\n') = true) ↔ '\n' ∉ more := by
    simp only [bne_iff_ne, ne_eq]
    exact ⟨fun h hmem => h _ hmem rfl, fun h d hd heq => h (heq ▸ hd)⟩
  simp only [takeWhile_eq_iff, hline, bne_eq_false_iff_eq]

/-- A blank run goes as far as there are blanks on the line. -/
theorem takeWhile_space_eq_iff :
    cs.takeWhile (fun d => isBlank d && d != '\n') = more ↔
      ∃ rest, cs = more ++ rest ∧ (∀ d ∈ more, Token.IsSpace d) ∧
        ∀ d ∈ rest.head?, ¬ Token.IsSpace d := by
  have hspace : ∀ d, (isBlank d && d != '\n') = true ↔ Token.IsSpace d := by
    simp [Token.IsSpace]
  have hother : ∀ d, (isBlank d && d != '\n') = false ↔ ¬ Token.IsSpace d := by
    simp [← hspace]
  simp only [takeWhile_eq_iff, hspace, hother]

theorem token_inj {token' : Token} (h : (⟨c, cs, .ok token⟩ : Piece) = ⟨c, more, .ok token'⟩) :
    cs = more ∧ token = token' := by
  simpa using h

theorem readString_eq_iff :
    readString cs = ⟨'"', more, .ok token⟩ ↔
      ∃ contents spelling, Quoted.Body.read cs = .closed contents spelling ∧
        more = spelling ++ ['"'] ∧ token = .string (String.ofList contents) := by
  unfold readString
  cases Quoted.Body.read cs with
  | closed contents spelling =>
    constructor
    · intro h
      obtain ⟨rfl, rfl⟩ := token_inj h
      exact ⟨contents, spelling, rfl, rfl, rfl⟩
    · rintro ⟨_, _, hbody, rfl, rfl⟩
      obtain ⟨rfl, rfl⟩ := Quoted.Body.closed.inj hbody
      rfl
  | unterminated => simp
  | invalidEscape before accepted => simp

/-- A token that is read is spelled by its piece and stops there. -/
theorem spelledAs_of_read (h : read c cs = ⟨c, more, .ok token⟩) :
    ∃ rest, cs = more ++ rest ∧ token.SpelledAs (c :: more) ∧ token.Stops (c :: more) rest := by
  unfold read at h
  split at h
  · subst c
    obtain ⟨hmore, rfl⟩ := token_inj h
    obtain ⟨rest, rfl, hline, hrest⟩ := takeWhile_line_eq_iff.mp hmore
    rw [hmore]
    exact ⟨rest, rfl, ⟨by simp, by simpa using hline⟩, hrest⟩
  split at h
  · subst c
    obtain ⟨contents, spelling, hbody, rfl, rfl⟩ := readString_eq_iff.mp h
    obtain ⟨rest, rfl, hspells⟩ := Quoted.Body.read_eq_closed_iff.mp hbody
    exact ⟨rest, by simp, ⟨spelling, rfl, by simpa using hspells⟩, trivial⟩
  split at h
  · rename_i digits hdigits
    obtain ⟨rfl, rfl⟩ := token_inj h
    obtain ⟨rest, rfl, hform, hrest⟩ := numeralTail?_eq_some_iff.mp hdigits
    exact ⟨rest, rfl, ⟨by simp, hform⟩, hrest⟩
  rename_i hnumeral
  split at h
  · rename_i hstart
    obtain ⟨hmore, rfl⟩ := token_inj h
    obtain ⟨rest, rfl, hcontinuing, hrest⟩ := Word.continuation_eq_iff.mp hmore
    refine ⟨rest, rfl, ⟨by simp [hmore], c, more, rfl, hstart, hcontinuing⟩, hrest, ?_⟩
    -- A numeral here would have been read before the word.
    rintro extra after rfl hafter hform
    have hsome := numeralTail?_eq_some_iff.mpr ⟨after, (List.append_assoc ..).symm, hform, hafter⟩
    rw [hnumeral] at hsome
    cases hsome
  split at h
  · rename_i mark hmark
    obtain ⟨rfl, rfl⟩ := token_inj h
    obtain rfl : mark.char = c := by simpa using List.find?_some hmark
    exact ⟨cs, rfl, rfl, trivial⟩
  split at h
  · subst c
    obtain ⟨rfl, rfl⟩ := token_inj h
    exact ⟨cs, rfl, rfl, trivial⟩
  rename_i hnewline
  split at h
  · rename_i hblank
    obtain ⟨hmore, rfl⟩ := token_inj h
    obtain ⟨rest, rfl, hrun, hrest⟩ := takeWhile_space_eq_iff.mp hmore
    exact ⟨rest, rfl, ⟨by simp, by simpa using ⟨⟨hblank, hnewline⟩, hrun⟩⟩, hrest⟩
  · simp at h

/-! ### Each kind of token -/

theorem read_comment (hline : '\n' ∉ more) (hrest : ∀ d ∈ rest.head?, d = '\n') :
    read ';' (more ++ rest) = ⟨';', more, .ok (.comment (String.ofList more))⟩ := by
  have htake := takeWhile_line_eq_iff.mpr ⟨rest, rfl, hline, hrest⟩
  simp [read, htake]

theorem read_string {spelling contents : List Char} (hspells : Quoted.Spells spelling contents) :
    read '"' (spelling ++ '"' :: rest) =
      ⟨'"', spelling ++ ['"'], .ok (.string (String.ofList contents))⟩ := by
  have hbody := Quoted.Body.read_eq_closed_iff.mpr ⟨rest, rfl, hspells⟩
  have hstring := readString_eq_iff.mpr ⟨contents, spelling, hbody, rfl, rfl⟩
  rw [read, if_neg (by decide), if_pos rfl]
  exact hstring

theorem read_number (hform : Numeral.Form (c :: more)) (hrest : Word.continues rest = false) :
    read c (more ++ rest) = ⟨c, more, .ok (.number (String.ofList (c :: more)))⟩ := by
  have htail := numeralTail?_eq_some_iff.mpr ⟨rest, rfl, hform, hrest⟩
  have hc := hform.isWordChar_or_sign c (List.mem_cons_self ..)
  have hcomment : c ≠ ';' := by
    rintro rfl
    exact absurd hc (by decide)
  have hquote : c ≠ '"' := by
    rintro rfl
    exact absurd hc (by decide)
  simp [read, hcomment, hquote, htail]

theorem read_word {w : String} (hstart : Word.isStart c = true) (hmore : Word.Continuing more)
    (hstops : (Token.word w).Stops (c :: more) rest) :
    read c (more ++ rest) = ⟨c, more, .ok (.word (String.ofList (c :: more)))⟩ := by
  have htail := numeralTail?_eq_none_of_stops hmore hstops
  have hcontinuation := hmore.continuation_append hstops.1
  have hcomment : c ≠ ';' := by
    rintro rfl
    cases hstart
  have hquote : c ≠ '"' := by
    rintro rfl
    cases hstart
  simp [read, hcomment, hquote, htail, hstart, hcontinuation]

theorem read_punct (p : Punct) : read p.char cs = ⟨p.char, [], .ok (.punct p)⟩ := by
  have hclass : p.char ≠ ';' ∧ p.char ≠ '"' ∧ Word.isStart p.char = false ∧
      Word.isWordChar p.char = false ∧ p.char ≠ '+' ∧ p.char ≠ '-' := by
    cases p <;> decide
  obtain ⟨hcomment, hquote, hstart, hword, hplus, hminus⟩ := hclass
  simp [read, hcomment, hquote, numeralTail?_eq_none hword hplus hminus, hstart]

theorem read_newline : read '\n' cs = ⟨'\n', [], .ok .newline⟩ := by
  have htail : numeralTail? '\n' cs = none := numeralTail?_eq_none rfl (by decide) (by decide)
  rw [read, if_neg (by decide), if_neg (by decide), htail]
  rfl

theorem read_space (hc : Token.IsSpace c) (hmore : ∀ d ∈ more, Token.IsSpace d)
    (hrest : ∀ d ∈ rest.head?, ¬ Token.IsSpace d) :
    read c (more ++ rest) = ⟨c, more, .ok .space⟩ := by
  obtain ⟨hblank, hnewline⟩ := hc
  have hne : ∀ d, isBlank d = false → c ≠ d := by
    rintro d hd rfl
    rw [hblank] at hd
    cases hd
  have htail : numeralTail? c (more ++ rest) = none :=
    numeralTail?_eq_none (Word.isWordChar_of_isBlank hblank) (hne '+' rfl) (hne '-' rfl)
  have hstart : Word.isStart c = false := by
    simp [Word.isStart, isAlphanumeric_of_isBlank hblank, hne '_' rfl]
  have hmark : Punct.ofChar? c = none := by
    refine List.find?_eq_none.mpr fun p _ => ?_
    have hp : isBlank p.char = false := by cases p <;> rfl
    rw [beq_iff_eq]
    exact fun heq => hne p.char hp heq.symm
  have htake := takeWhile_space_eq_iff.mpr ⟨rest, rfl, hmore, hrest⟩
  simp [read, hne ';' rfl, hne '"' rfl, htail, hstart, hmark, hnewline, hblank, htake]

/-- A text that starts with a spelling of a token that stops there is read as that token. -/
theorem read_of_spelledAs (hspelled : token.SpelledAs (c :: more))
    (hstops : token.Stops (c :: more) rest) : read c (more ++ rest) = ⟨c, more, .ok token⟩ := by
  cases token with
  | comment s =>
    obtain ⟨htext, hline⟩ := hspelled
    obtain ⟨rfl, rfl⟩ := List.cons.inj htext
    simpa using read_comment hline hstops
  | string s =>
    obtain ⟨spelling, htext, hspells⟩ := hspelled
    obtain ⟨rfl, rfl⟩ := List.cons.inj htext
    simpa using read_string hspells
  | number n =>
    obtain ⟨htext, hform⟩ := hspelled
    simpa [htext] using read_number hform hstops
  | word w =>
    obtain ⟨htext, _, _, heq, hstart, hmore⟩ := hspelled
    obtain ⟨rfl, rfl⟩ := List.cons.inj heq
    simpa [htext] using read_word hstart hmore hstops
  | punct p =>
    obtain ⟨rfl, rfl⟩ := List.cons.inj hspelled
    exact read_punct p
  | newline =>
    obtain ⟨rfl, rfl⟩ := List.cons.inj hspelled
    exact read_newline
  | space =>
    obtain ⟨hc, hmore⟩ := List.forall_mem_cons.mp hspelled.2
    exact read_space hc hmore hstops

/-- The first piece of a text is a token exactly if the text starts with a spelling of the token
that stops there. -/
theorem read_eq_iff :
    read c cs = ⟨c, more, .ok token⟩ ↔
      ∃ rest, cs = more ++ rest ∧ token.SpelledAs (c :: more) ∧ token.Stops (c :: more) rest := by
  constructor
  · exact spelledAs_of_read
  · rintro ⟨rest, rfl, hspelled, hstops⟩
    exact read_of_spelledAs hspelled hstops

end Piece

end SceneDiagram
