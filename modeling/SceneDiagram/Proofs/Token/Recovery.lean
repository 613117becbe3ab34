import SceneDiagram.Proofs.Token.Attempt

/-!
# Going on after a fault

After an attempt that failed, reading goes on behind the character that was skipped. Every failed
attempt is told of once, and the findings are told in the order in which they stand in the source. A
string that nothing ends is the last of them, since the attempt at it takes all that is left
(`tokenize_recovers`).
-/

namespace SceneDiagram

open Text

variable {cs : List Char} {n : Nat} {fault : LexicalFault} {a : Span} {xs : List Attempt}
  {d : Diagnostic}

/-! ## One fault -/

theorem LexicalFault.Arises.start_lt {consumed left : List Char}
    (h : fault.Arises a consumed left) : a.start < byteLength (consumed ++ left.take 1) := by
  cases h with
  | unterminatedString _ => exact byteLength_pos (List.cons_ne_nil _ _)
  | @invalidEscape before contents accepted left _ _ =>
    have hpos : 0 < byteLength ('\\' :: accepted) := byteLength_pos (List.cons_ne_nil _ _)
    rw [byteLength_append, byteLength_append]
    exact Nat.lt_of_lt_of_le (Nat.lt_add_of_pos_right hpos) (Nat.le_add_right _ _)
  | unexpectedCharacter _ => exact byteLength_pos (List.cons_ne_nil _ _)

theorem LexicalFault.eq_unterminatedString (h : fault.code = .unterminatedString) :
    fault = .unterminatedString := by
  cases fault with
  | unterminatedString => rfl
  | unexpectedCharacter => cases h
  | invalidEscape => cases h

/-- Whether a finding tells of a string that nothing ends, in a text that starts at an offset, as
going from its opening quote to the end of the text. -/
def Diagnostic.ReachesEnd (d : Diagnostic) (n : Nat) (cs : List Char) : Prop :=
  ∃ before rest contents, cs = before ++ '"' :: rest ∧ Quoted.Spells rest contents ∧
    d.primarySpan? = some ⟨n + byteLength before, n + byteLength cs⟩

theorem Diagnostic.ReachesEnd.prepend {text : List Char}
    (h : d.ReachesEnd (n + byteLength text) cs) : d.ReachesEnd n (text ++ cs) := by
  obtain ⟨before, rest, contents, hcs, hspells, hspan⟩ := h
  refine ⟨text ++ before, rest, contents, ?_, hspells, ?_⟩
  · rw [hcs, List.append_assoc]
  · rw [hspan, byteLength_append, byteLength_append, Nat.add_assoc, Nat.add_assoc]

namespace Piece.Taken

variable {p : Piece} {after : List Char} {m : Nat}

/-- The finding about an attempt is told at a place within the attempt. -/
theorem starts_within (h : p.Taken after) (hd : Attempt.diagnostic? ⟨⟨n, m⟩, p⟩ = some d) :
    ∃ a, d.primarySpan? = some a ∧ n ≤ a.start ∧ a.start < n + byteLength p.text := by
  cases h with
  | token _ _ => cases hd
  | @fault c more consumed left fault a harises _ htext =>
    cases hd
    refine ⟨a.shift n, rfl, Nat.le_add_right _ _, ?_⟩
    rw [text, htext]
    exact Nat.add_lt_add_left harises.start_lt n

/-- The attempt at a string that nothing ends takes all that is left. -/
theorem reachesEnd (h : p.Taken after) (hd : Attempt.diagnostic? ⟨⟨n, m⟩, p⟩ = some d)
    (hcode : d.code = some .unterminatedString) : after = [] ∧ d.ReachesEnd n p.text := by
  cases h with
  | token _ _ => cases hd
  | @fault c more consumed left fault a harises _ htext =>
    cases hd
    obtain rfl := LexicalFault.eq_unterminatedString (Option.some.inj hcode)
    cases harises with
    | @unterminatedString spelling contents hspells =>
      rw [text, htext, List.take_nil, List.append_nil]
      exact ⟨rfl, [], spelling, contents, rfl, hspells, rfl⟩

end Piece.Taken

/-! ## All findings -/

namespace Attempted

/-- The findings are told in the order of the places where they start. -/
theorem exists_spans (h : Attempted n cs xs) :
    ∃ spans : List Span,
      (xs.filterMap (·.diagnostic?)).map (·.primarySpan?) = spans.map some ∧
      (∀ a ∈ spans, n ≤ a.start) ∧ spans.Pairwise (·.start < ·.start) := by
  induction h with
  | nil => exact ⟨[], rfl, by simp, .nil⟩
  | @cons n p after xs htaken _ ih =>
    obtain ⟨spans, hspans, hle, hsorted⟩ := ih
    rw [List.filterMap_cons]
    cases hd : Attempt.diagnostic? ⟨⟨n, n + byteLength p.text⟩, p⟩ with
    | none => exact ⟨spans, hspans, fun a ha => Nat.le_of_add_right_le (hle a ha), hsorted⟩
    | some d =>
      obtain ⟨a, hspan, hstart, hlt⟩ := htaken.starts_within hd
      refine ⟨a :: spans, ?_, ?_, ?_⟩
      · rw [List.map_cons, List.map_cons, hspan, hspans]
      · rw [List.forall_mem_cons]
        exact ⟨hstart, fun b hb => Nat.le_of_add_right_le (hle b hb)⟩
      · apply List.Pairwise.cons _ hsorted
        intro b hb
        exact Nat.lt_of_lt_of_le hlt (hle b hb)

/-- A string that nothing ends is the last finding, since there is no attempt after the one at
it. -/
theorem last_of_unterminatedString (h : Attempted n cs xs)
    (hd : d ∈ xs.filterMap (·.diagnostic?)) (hcode : d.code = some .unterminatedString) :
    ∃ others, xs.filterMap (·.diagnostic?) = others ++ [d] ∧
      (∀ d' ∈ others, d'.code ≠ some .unterminatedString) ∧ d.ReachesEnd n cs := by
  induction h with
  | nil => cases hd
  | @cons n p after xs htaken hrest ih =>
    rw [List.filterMap_cons] at hd ⊢
    cases hfirst : Attempt.diagnostic? ⟨⟨n, n + byteLength p.text⟩, p⟩ with
    | none =>
      rw [hfirst] at hd
      obtain ⟨others, hlast, hothers, hend⟩ := ih hd
      exact ⟨others, hlast, hothers, hend.prepend⟩
    | some first =>
      rw [hfirst] at hd
      rcases List.mem_cons.mp hd with rfl | hd
      · obtain ⟨rfl, hend⟩ := htaken.reachesEnd hfirst hcode
        rw [hrest.eq_nil, List.append_nil]
        exact ⟨[], rfl, by simp, hend⟩
      · obtain ⟨others, hlast, hothers, hend⟩ := ih hd
        refine ⟨first :: others, ?_, ?_, hend.prepend⟩
        · rw [hlast, List.cons_append]
        · rw [List.forall_mem_cons]
          refine ⟨fun hcode' => ?_, hothers⟩
          obtain ⟨rfl, -⟩ := htaken.reachesEnd hfirst hcode'
          rw [hrest.eq_nil] at hd
          cases hd

end Attempted

/-- Every source is gone through by attempts that lose nothing of it. There are no more of them than
characters, and their spans go from the first byte to the last without a gap. An attempt gives a
token or it fails, each failed one is told of by one finding, and the tokens are given if none
failed. The findings start one after another, and a string that nothing ends is told of once, after
all others, as going to the end of the source. -/
theorem tokenize_recovers (source : String) :
    let diagnostics := (attempts source).filterMap (·.diagnostic?)
    (attempts source).length ≤ source.toList.length ∧
    Abut 0 ((attempts source).map (·.span)) source.utf8ByteSize ∧
    (∀ x ∈ attempts source, ∃ before after, source.toList = before ++ x.piece.text ++ after ∧
      x.span = ⟨byteLength before, byteLength before + byteLength x.piece.text⟩ ∧
      x.piece.Taken after ∧ (x.Failed ↔ x.diagnostic? ≠ none)) ∧
    (∀ tokens, tokenize source = .ok tokens ↔
      (∀ x ∈ attempts source, ¬ x.Failed) ∧
        tokens = (attempts source).filterMap (·.lexeme?)) ∧
    (∀ e, tokenize source = .error e ↔
      (∃ x ∈ attempts source, x.Failed) ∧ e.diagnostics = diagnostics) ∧
    (∃ spans : List Span, diagnostics.map (·.primarySpan?) = spans.map some ∧
      spans.Pairwise (·.start < ·.start)) ∧
    ∀ d ∈ diagnostics, d.code = some .unterminatedString →
      ∃ others, diagnostics = others ++ [d] ∧
        (∀ d' ∈ others, d'.code ≠ some .unterminatedString) ∧ d.ReachesEnd 0 source.toList := by
  intro diagnostics
  have hall : Attempted 0 source.toList (attempts source) := attempted_readAll 0 source.toList
  have hdiagnostics : Piece.diagnostics 0 (Piece.readAll source.toList) = diagnostics :=
    Piece.diagnostics_eq_filterMap _
  have hlexemes : Piece.lexemes 0 (Piece.readAll source.toList) =
      (attempts source).filterMap (·.lexeme?) := Piece.lexemes_eq_filterMap _
  have hnone : diagnostics = [] ↔ ∀ x ∈ attempts source, ¬ x.Failed := by
    simp only [diagnostics, List.filterMap_eq_nil_iff, Attempt.failed_iff, not_not]
  refine ⟨hall.length_le, ?_, ?_, ?_, ?_, ?_, ?_⟩
  · have habut := hall.abut
    rwa [byteLength_toList, Nat.zero_add] at habut
  · intro x hx
    obtain ⟨before, after, hsource, hspan, htaken⟩ := hall.exists_of_mem hx
    rw [Nat.zero_add] at hspan
    exact ⟨before, after, hsource, hspan, htaken, Attempt.failed_iff⟩
  · intro tokens
    rw [tokenize_eq_ok_iff_diagnostics, hdiagnostics, hlexemes, hnone, eq_comm]
  · intro e
    rw [tokenize_eq_error_iff, hdiagnostics, Ne, hnone, eq_comm]
    simp only [not_forall, not_not, exists_prop]
  · obtain ⟨spans, hspans, -, hsorted⟩ := hall.exists_spans
    exact ⟨spans, hspans, hsorted⟩
  · intro d hd hcode
    exact hall.last_of_unterminatedString hd hcode

/-- After an escape that is none, the quote that was to end the string opens another one, which
nothing ends. -/
theorem tokenize_recovers_second_string :
    let source := "\"\\q\""
    let diagnostics := (attempts source).filterMap (·.diagnostic?)
    diagnostics.map (·.code) = [some .invalidEscape, some .unterminatedString] ∧
    diagnostics.map (·.primarySpan?) = [some ⟨1, 2⟩, some ⟨3, 4⟩] ∧
    Abut 0 ((attempts source).map (·.span)) 4 ∧
    (∃ x ∈ attempts source, x.Failed) ∧
    ∃ d ∈ diagnostics, d.ReachesEnd 0 source.toList := by
  have hfound : (attempts "\"\\q\"").filterMap (·.diagnostic?) =
      [LexicalFault.invalidEscape.diagnostic ⟨1, 2⟩,
        LexicalFault.unterminatedString.diagnostic ⟨3, 4⟩] := by cbv
  obtain ⟨-, habut, -, -, herror, -, hlast⟩ := tokenize_recovers "\"\\q\""
  have hfailed : tokenize "\"\\q\"" = .error ⟨[LexicalFault.invalidEscape.diagnostic ⟨1, 2⟩,
      LexicalFault.unterminatedString.diagnostic ⟨3, 4⟩]⟩ := by cbv
  have hlater : LexicalFault.unterminatedString.diagnostic ⟨3, 4⟩ ∈
      (attempts "\"\\q\"").filterMap (·.diagnostic?) := by
    rw [hfound]
    exact List.mem_cons_of_mem _ (List.mem_singleton_self _)
  obtain ⟨others, -, -, hend⟩ := hlast _ hlater rfl
  refine ⟨?_, ?_, habut, ((herror _).mp hfailed).1, _, hlater, hend⟩
  · show List.map _ (List.filterMap _ _) = _
    rw [hfound]
    rfl
  · show List.map _ (List.filterMap _ _) = _
    rw [hfound]
    rfl

end SceneDiagram
