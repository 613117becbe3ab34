import SceneDiagram.Proofs.Section.Recognition
import SceneDiagram.Proofs.Section.Relocation

/-!
# Sources one after another

Two sources with a line end between them are a source. Its tokens are those of the first source, the
line end, and those of the second one further on; its sections are those of the first source and
then those of the second (`tokenize_ofLexemes_append`). The line end keeps a word at the end of the
first source from the bracket that starts the second.
-/

namespace SceneDiagram

open Text Grammar

variable {ts us : List Lexeme} {ss ss' : List Section}

namespace Grammar

theorem SceneForm.trivia_append (hts : IsTrivia ts) (h : SceneForm us ss) :
    SceneForm (ts ++ us) ss := by
  cases h with
  | none hus => exact .none (isTrivia_append.mpr ⟨hts, hus⟩)
  | more hbefore hs hfollowed hrest =>
    rw [← List.append_assoc, ← List.append_assoc]
    exact .more (isTrivia_append.mpr ⟨hts, hbefore⟩) hs hfollowed hrest

/-- Two scene sources with trivia between them are one. -/
theorem SceneForm.append {l : Lexeme} (hl : l.token.isTrivia = true) (hts : SceneForm ts ss)
    (hus : SceneForm us ss') : SceneForm (ts ++ l :: us) (ss ++ ss') := by
  have htrivia : IsTrivia [l] := isTrivia_cons.mpr ⟨hl, isTrivia_nil⟩
  induction hts with
  | none hts => exact (hus.trivia_append htrivia).trivia_append hts
  | @more before ts rest s ss hbefore hs hfollowed _ ih =>
    have hapart : EndsInWord s → Apart (rest ++ l :: us) := by
      intro hword
      cases rest with
      | nil => simpa [Apart] using hl
      | cons m rest => exact hfollowed hword
    rw [List.append_assoc]
    exact .more hbefore hs hapart ih

end Grammar

/-- The text of a source, a line end and a second source has the tokens of both. -/
theorem Lexed.append_line {cs ds : List Char} (hts : Lexed [] 0 cs ts) (hus : Lexed [] 0 ds us) :
    Lexed [] 0 (cs ++ '\n' :: ds)
      (ts ++ ⟨.newline, ⟨byteLength cs, byteLength cs + 1⟩⟩ ::
        us.map (Lexeme.mapSpan (Span.shift (byteLength cs + 1)))) := by
  have hfirst : Lexed ('\n' :: ds ++ []) 0 cs ts := by
    rw [List.append_nil]
    exact hts.append_newline
  have hsecond : Lexed [] (byteLength cs + 1) ds
      (us.map (Lexeme.mapSpan (Span.shift (byteLength cs + 1)))) :=
    hus.move fun i j => by simp [Span.shift]
  have hline : Lexed [] (0 + byteLength cs) (['\n'] ++ ds)
      (⟨.newline, ⟨byteLength cs, byteLength cs + 1⟩⟩ ::
        us.map (Lexeme.mapSpan (Span.shift (byteLength cs + 1)))) := by
    rw [Nat.zero_add]
    have hnewline : Token.newline.SpelledAs ['\n'] := rfl
    exact .cons hnewline trivial hsecond
  exact hfirst.append hline

/-- If two sources can be read, so can the first one, a line end and the second one together. The
tokens are those of the first source, one line end, and those of the second source at spans that are
moved behind it; the sections are those of the first source, followed by those of the second at
spans that are moved as far. -/
theorem tokenize_ofLexemes_append {s t : String} {ts us : List Lexeme} {ss ss' : List Section}
    (hs : tokenize s = .ok ts) (hss : Section.ofLexemes ts = .ok ss)
    (ht : tokenize t = .ok us) (hss' : Section.ofLexemes us = .ok ss') :
    let behind := Span.shift (s.utf8ByteSize + 1)
    let tokens := ts ++ ⟨.newline, ⟨s.utf8ByteSize, s.utf8ByteSize + 1⟩⟩ ::
      us.map (Lexeme.mapSpan behind)
    tokenize (s ++ "\n" ++ t) = .ok tokens ∧
      Section.ofLexemes tokens = .ok (ss ++ ss'.map (Section.mapSpan behind)) := by
  have htext : (s ++ "\n" ++ t).toList = s.toList ++ '\n' :: t.toList := by simp
  have hlexed := (tokenize_eq_ok_iff.mp hs).append_line (tokenize_eq_ok_iff.mp ht)
  have hscene := (Section.ofLexemes_eq_ok_iff_sceneForm.mp hss').mapSpan
    (Span.shift_join (s.utf8ByteSize + 1))
  rw [byteLength_toList] at hlexed
  refine ⟨tokenize_eq_ok_iff.mpr (htext ▸ hlexed), ?_⟩
  exact Section.ofLexemes_eq_ok_iff_sceneForm.mpr
    ((Section.ofLexemes_eq_ok_iff_sceneForm.mp hss).append rfl hscene)

/-- A source that ends in a word can be followed by one that starts with a bracket. -/
theorem tokenize_ofLexemes_append_word :
    let tokens : List Lexeme :=
      [⟨.punct .leftBracket, ⟨0, 1⟩⟩, ⟨.word "a", ⟨1, 2⟩⟩, ⟨.punct .rightBracket, ⟨2, 3⟩⟩,
        ⟨.word "k", ⟨3, 4⟩⟩, ⟨.punct .equals, ⟨4, 5⟩⟩, ⟨.word "w", ⟨5, 6⟩⟩, ⟨.newline, ⟨6, 7⟩⟩,
        ⟨.punct .leftBracket, ⟨7, 8⟩⟩, ⟨.word "b", ⟨8, 9⟩⟩, ⟨.punct .rightBracket, ⟨9, 10⟩⟩]
    tokenize ("[a]k=w" ++ "\n" ++ "[b]") = .ok tokens ∧
      Section.ofLexemes tokens =
        .ok [⟨⟨"a", ⟨1, 2⟩⟩, [], [⟨⟨"k", ⟨3, 4⟩⟩, .word ⟨5, 6⟩ "w"⟩], ⟨0, 3⟩⟩,
          ⟨⟨"b", ⟨8, 9⟩⟩, [], [], ⟨7, 10⟩⟩] := by
  intro tokens
  obtain ⟨hs, ht⟩ : tokenize "[a]k=w" = .ok [⟨.punct .leftBracket, ⟨0, 1⟩⟩, ⟨.word "a", ⟨1, 2⟩⟩,
        ⟨.punct .rightBracket, ⟨2, 3⟩⟩, ⟨.word "k", ⟨3, 4⟩⟩, ⟨.punct .equals, ⟨4, 5⟩⟩,
        ⟨.word "w", ⟨5, 6⟩⟩] ∧
      tokenize "[b]" = .ok [⟨.punct .leftBracket, ⟨0, 1⟩⟩, ⟨.word "b", ⟨1, 2⟩⟩,
        ⟨.punct .rightBracket, ⟨2, 3⟩⟩] := by
    constructor <;> cbv
  have hss : Section.ofLexemes [⟨.punct .leftBracket, ⟨0, 1⟩⟩, ⟨.word "a", ⟨1, 2⟩⟩,
      ⟨.punct .rightBracket, ⟨2, 3⟩⟩, ⟨.word "k", ⟨3, 4⟩⟩, ⟨.punct .equals, ⟨4, 5⟩⟩,
      ⟨.word "w", ⟨5, 6⟩⟩] =
      .ok [⟨⟨"a", ⟨1, 2⟩⟩, [], [⟨⟨"k", ⟨3, 4⟩⟩, .word ⟨5, 6⟩ "w"⟩], ⟨0, 3⟩⟩] := rfl
  have hss' : Section.ofLexemes [⟨.punct .leftBracket, ⟨0, 1⟩⟩, ⟨.word "b", ⟨1, 2⟩⟩,
      ⟨.punct .rightBracket, ⟨2, 3⟩⟩] = .ok [⟨⟨"b", ⟨1, 2⟩⟩, [], [], ⟨0, 3⟩⟩] := rfl
  have hlen : "[a]k=w".utf8ByteSize = 6 := by decide
  have happend := tokenize_ofLexemes_append hs hss ht hss'
  rw [hlen] at happend
  exact happend

end SceneDiagram
