import SceneDiagram.Proofs.Section.Outline
import SceneDiagram.Proofs.Section.Recognition
import SceneDiagram.Proofs.Section.Relocation

/-!
# The span of a node holds the node

Cut out of its source and read on its own, the text of a value gives the value again, and the text
of a header gives the header (`Section.ofLexemes_faithful`). The consecutive tokens of a node span
a part of the source that has the same tokens, and the grammar does not care where they stand.
-/

namespace SceneDiagram

open Text Grammar

/-- What a property says, without the places that it was read from. -/
def Property.unplaced (p : Property) : String × Value := (p.key.text, p.value.unplaced)

/-- The span of a value is right: it cuts no character in two, its text is read on its own as the
same value, and the parts of the value stand inside it, one after another and apart. A pair, which
only an argument list can hold, is not read on its own. -/
structure Value.Faithful (source : String) (v : Value) : Prop where
  cuts : v.span.Cuts source
  rereads : (∀ a key entry, v ≠ .pair a key entry) →
    ∃ tokens v', tokenize (v.span.text source) = .ok tokens ∧
      Value.ofLexemes? tokens = some v' ∧ v'.unplaced = v.unplaced
  nested : Ascending v.span.start (v.children.map (·.span)) v.span.stop

/-- The span of a header is right: it cuts no character in two, its text is read on its own as the
same header, and the tag, the keys and the values in it stand inside it, one after another and
apart. The spans of all values in the section are right too, however deep they are. -/
structure Section.Faithful (source : String) (s : Section) : Prop where
  cuts : s.headerSpan.Cuts source
  rereads : ∃ tokens s', tokenize (s.headerSpan.text source) = .ok tokens ∧
    Section.ofLexemes tokens = .ok [s'] ∧ s'.tag.text = s.tag.text ∧
    s'.attributes.map (·.unplaced) = s.attributes.map (·.unplaced) ∧ s'.properties = []
  nested : Ascending s.headerSpan.start s.headerOutline s.headerSpan.stop
  values : ∀ w ∈ s.values, ∀ v : Value, v.Occurs w → v.Faithful source

variable {source : String} {tokens ts : List Lexeme} {v : Value} {s : Section}

theorem Value.faithful_of_argument (htokens : tokenize source = .ok tokens) (hts : ts <:+: tokens)
    (hv : Argument ValueForm ts v) : v.Faithful source := by
  obtain ⟨n, m, habut, hcuts, hread⟩ := tokenize_infix htokens hts
  have hspan := hv.span_eq habut
  refine ⟨hspan ▸ hcuts, fun hpair => ?_, ?_⟩
  · cases hv with
    | value hv =>
      have hmoved := hv.mapSpan (Span.back_join n)
      exact ⟨_, _, hspan ▸ hread, Value.ofLexemes?_eq_some_iff.mpr hmoved, v.unplaced_mapSpan⟩
    | pair => exact absurd rfl (hpair _ _ _)
  · rw [hspan]
    exact hv.children_ascending habut

theorem Section.faithful_of_sectionForm (htokens : tokenize source = .ok tokens)
    (hts : ts <:+: tokens) (hs : SectionForm ts s) : s.Faithful source := by
  obtain ⟨hs', ps, rfl, hform, -, hheader⟩ := hs.exists_header
  have hinfix : hs' <:+: tokens := (List.prefix_append hs' ps).isInfix.trans hts
  obtain ⟨n, m, habut, hcuts, hread⟩ := tokenize_infix htokens hinfix
  obtain ⟨hspan, -, hnested⟩ := hheader habut
  have hmoved := hform.mapSpan (Span.back_join n)
  have hscene : SceneForm (hs'.map (Lexeme.mapSpan (Span.back n)))
      [Section.mapSpan (Span.back n) { s with properties := [] }] := by
    have hfile : SceneForm ([] ++ hs'.map (Lexeme.mapSpan (Span.back n)) ++ [])
        [Section.mapSpan (Span.back n) { s with properties := [] }] :=
      .more isTrivia_nil hmoved (by simp [Apart]) (.none isTrivia_nil)
    simpa using hfile
  refine ⟨hspan ▸ hcuts, ⟨_, _, hspan ▸ hread,
    Section.ofLexemes_eq_ok_iff_sceneForm.mpr hscene, rfl, ?_, rfl⟩, ?_, ?_⟩
  · simp [Section.mapSpan, Property.unplaced, Property.mapSpan, Value.unplaced_mapSpan]
  · rw [hspan]
    exact hnested
  · intro w hw v hv
    obtain ⟨us, hus, hform⟩ := hs.exists_infix hw
    obtain ⟨us', hus', hform'⟩ := argument_of_occurs hv (.value hform)
    exact Value.faithful_of_argument htokens ((hus'.trans hus).trans hts) hform'

/-- The spans of what is read from a source are right. The text of the span of every value, however
deep in others it is, is read on its own as the same value, and that of every header as the same
header; and the parts of each value, of each header and of the whole source lie inside it, one after
another and apart. -/
theorem Section.ofLexemes_faithful {sections : List Section}
    (htokens : tokenize source = .ok tokens) (hsections : Section.ofLexemes tokens = .ok sections) :
    (∀ s ∈ sections, s.Faithful source) ∧
      Ascending 0 (sections.flatMap (·.outline)) source.utf8ByteSize := by
  have hscene := Section.ofLexemes_eq_ok_iff_sceneForm.mp hsections
  constructor
  · intro s hs
    obtain ⟨ts, hts, hform⟩ := FileForm.exists_infix hscene hs
    exact Section.faithful_of_sectionForm htokens hts hform
  · have habut := (tokenize_eq_ok_iff.mp htokens).abut
    rw [Nat.zero_add, byteLength_toList] at habut
    exact FileForm.orders hscene habut

/-- The spans in a header with an attribute and in a typed call are right. -/
theorem Section.ofLexemes_faithful_typed_call :
    let source := "[a b=1]k=T[w](x: 2)"
    let tokens : List Lexeme :=
      [⟨.punct .leftBracket, ⟨0, 1⟩⟩, ⟨.word "a", ⟨1, 2⟩⟩, ⟨.space, ⟨2, 3⟩⟩, ⟨.word "b", ⟨3, 4⟩⟩,
        ⟨.punct .equals, ⟨4, 5⟩⟩, ⟨.number "1", ⟨5, 6⟩⟩, ⟨.punct .rightBracket, ⟨6, 7⟩⟩,
        ⟨.word "k", ⟨7, 8⟩⟩, ⟨.punct .equals, ⟨8, 9⟩⟩, ⟨.word "T", ⟨9, 10⟩⟩,
        ⟨.punct .leftBracket, ⟨10, 11⟩⟩, ⟨.word "w", ⟨11, 12⟩⟩, ⟨.punct .rightBracket, ⟨12, 13⟩⟩,
        ⟨.punct .leftParen, ⟨13, 14⟩⟩, ⟨.word "x", ⟨14, 15⟩⟩, ⟨.punct .colon, ⟨15, 16⟩⟩,
        ⟨.space, ⟨16, 17⟩⟩, ⟨.number "2", ⟨17, 18⟩⟩, ⟨.punct .rightParen, ⟨18, 19⟩⟩]
    let call : Value := .call ⟨9, 19⟩ "T" (some (.word ⟨11, 12⟩ "w"))
      [.pair ⟨14, 18⟩ (.word ⟨14, 15⟩ "x") (.number ⟨17, 18⟩ "2")]
    let s : Section :=
      ⟨⟨"a", ⟨1, 2⟩⟩, [⟨⟨"b", ⟨3, 4⟩⟩, .number ⟨5, 6⟩ "1"⟩], [⟨⟨"k", ⟨7, 8⟩⟩, call⟩], ⟨0, 7⟩⟩
    tokenize source = .ok tokens ∧ Section.ofLexemes tokens = .ok [s] ∧ s.Faithful source ∧
      Ascending 0 [⟨0, 7⟩, ⟨7, 8⟩, ⟨9, 19⟩] 19 := by
  intro source tokens call s
  have hread : tokenize source = .ok tokens := by cbv
  have hsections : Section.ofLexemes tokens = .ok [s] := rfl
  obtain ⟨hfaithful, houtline⟩ := Section.ofLexemes_faithful hread hsections
  exact ⟨hread, hsections, hfaithful s (List.mem_singleton_self s), houtline⟩

end SceneDiagram
