import SceneDiagram.Section.Reader
import SceneDiagram.Proofs.Section.Relocation

/-!
# Readers at other places

A reader keeps spans, joins them, and never looks at them. So when all spans in a reader and in a
token are changed by a function that keeps joins, the reader does the same with the token as before,
and its spans are changed by that function (`step_mapSpan`, `finish_mapSpan`).
-/

namespace SceneDiagram

open Text

/-- A word at another place. -/
def PlacedWord.mapSpan (f : Span → Span) (w : PlacedWord) : PlacedWord := ⟨w.text, f w.span⟩

/-- A refusal with other spans. -/
def Refusal.mapSpan (f : Span → Span) (e : Refusal) : Refusal := ⟨e.expected, e.opened.map f⟩

namespace SectionReader

/-! ## Other spans in a reader -/

section

variable (f : Span → Span)

/-- An array with other spans. -/
def OpenArray.mapSpan (a : OpenArray) : OpenArray := ⟨f a.start, a.items.map (Value.mapSpan f)⟩

/-- A dictionary with other spans. -/
def OpenDict.mapSpan (d : OpenDict) : OpenDict :=
  ⟨f d.start, d.entries.map (Value.mapSpanEntry f)⟩

/-- A call with other spans. -/
def OpenCall.mapSpan (c : OpenCall) : OpenCall :=
  ⟨f c.start, f c.head, c.name, Value.mapSpanTypeParam f c.typeParam, c.args.map (Value.mapSpan f)⟩

/-- A group with other spans. -/
def Group.mapSpan : Group → Group
  | array a => array (a.mapSpan f)
  | dict d => dict (d.mapSpan f)
  | call c => call (c.mapSpan f)

/-- The name of a typed call with other spans. -/
def OpenType.mapSpan (t : OpenType) : OpenType := ⟨f t.start, f t.bracket, t.name⟩

/-- A waiting construct with other spans. -/
def Frame.mapSpan : Frame → Frame
  | item g => item (g.mapSpan f)
  | entry d key => entry (d.mapSpan f) (key.mapSpan f)
  | pair c key => pair (c.mapSpan f) (key.mapSpan f)
  | typeParam t => typeParam (t.mapSpan f)

/-- A header with other spans. -/
def OpenHeader.mapSpan (h : OpenHeader) : OpenHeader :=
  ⟨f h.start, h.tag.mapSpan f, h.attributes.map (Property.mapSpan f)⟩

/-- A slot with other spans. -/
def Slot.mapSpan (s : Slot) : Slot :=
  ⟨s.header.map (OpenHeader.mapSpan f), s.key.mapSpan f, s.frames.map (Frame.mapSpan f)⟩

/-- A stage with other spans. -/
def Stage.mapSpan : Stage → Stage
  | outside => outside
  | tag start => tag (f start)
  | header h => header (h.mapSpan f)
  | equals h key => equals (h.map (OpenHeader.mapSpan f)) (key.mapSpan f)
  | value slot => value (slot.mapSpan f)
  | text slot kind start => text (slot.mapSpan f) kind (f start)
  | argument slot c key => argument (slot.mapSpan f) (c.mapSpan f) (key.mapSpan f)
  | separator slot g => separator (slot.mapSpan f) (g.mapSpan f)
  | colon slot d key => colon (slot.mapSpan f) (d.mapSpan f) (key.mapSpan f)
  | closeType slot t param => closeType (slot.mapSpan f) (t.mapSpan f) (param.mapSpan f)
  | openArgs slot t param => openArgs (slot.mapSpan f) (t.mapSpan f) (param.mapSpan f)

/-- A reader with other spans. -/
def mapSpan (r : SectionReader) : SectionReader where
  done := r.done.map (Section.mapSpan f)
  body := r.body.map (Section.mapSpan f)
  stage := r.stage.mapSpan f
  word := r.word.map fun (slot, w) => (slot.mapSpan f, w.mapSpan f)

/-- What comes of a token, or the reason why it is refused, with other spans. -/
def mapOutcome {α β : Type} (g : α → β) : Except Refusal α → Except Refusal β
  | .ok a => .ok (g a)
  | .error e => .error (e.mapSpan f)

end

variable {f : Span → Span} {r : SectionReader} {l : Lexeme}

@[simp] theorem mapOutcome_ok {α β : Type} {g : α → β} {a : α} :
    mapOutcome f g (.ok a) = .ok (g a) := rfl

@[simp] theorem mapOutcome_error {α β : Type} {g : α → β} {e : Refusal} :
    mapOutcome f g (.error e) = .error (e.mapSpan f) := rfl

@[simp] theorem mapSpan_initial : initial.mapSpan f = initial := rfl

@[simp] theorem mapSpan_moveTo (stage : Stage) :
    (r.moveTo stage).mapSpan f = (r.mapSpan f).moveTo (stage.mapSpan f) := rfl

@[simp] theorem mapSpan_push (slot : Slot) (frame : Frame) :
    (slot.push frame).mapSpan f = (slot.mapSpan f).push (frame.mapSpan f) := rfl

@[simp] theorem start_mapSpan (g : Group) : (g.mapSpan f).start = f g.start := by
  cases g <;> rfl

@[simp] theorem closing_mapSpan (g : Group) : (g.mapSpan f).closing = g.closing := by
  cases g <;> rfl

theorem start_mapSpan_frame (frame : Frame) : (frame.mapSpan f).start = f frame.start := by
  cases frame with
  | item g => exact start_mapSpan g
  | _ => rfl

theorem start_mapSpan_slot (slot : Slot) : (slot.mapSpan f).start = f slot.start := by
  obtain ⟨header, key, frames⟩ := slot
  cases frames with
  | nil => rfl
  | cons frame frames => exact start_mapSpan_frame frame

theorem isTight_mapSpan (stage : Stage) : (stage.mapSpan f).isTight = stage.isTight := by
  cases stage <;> rfl

theorem mapSpan_addToBody (p : Property) :
    (r.addToBody p).mapSpan f = (r.mapSpan f).addToBody (p.mapSpan f) := by
  obtain ⟨done, body, stage, word⟩ := r
  cases body with
  | none => rfl
  | some s => simp [addToBody, mapSpan, Section.mapSpan]

variable (hf : ∀ a b, f (a.join b) = (f a).join (f b))
include hf

theorem close_mapSpan (close : Span) (g : Group) :
    (g.close close).mapSpan f = (g.mapSpan f).close (f close) := by
  cases g <;> simp [Group.close, Group.mapSpan, OpenArray.mapSpan, OpenDict.mapSpan,
    OpenCall.mapSpan, Value.mapSpan, hf, Value.mapSpanItems_eq_map, Value.mapSpanEntries_eq_map]

/-- A reader gives a value to the construct that waits for it, wherever the two stand. -/
theorem mapSpan_receive (slot : Slot) (v : Value) :
    (r.receive slot v).mapSpan f = (r.mapSpan f).receive (slot.mapSpan f) (v.mapSpan f) := by
  obtain ⟨header, key, frames⟩ := slot
  cases frames with
  | nil =>
    cases header with
    | none =>
      have hbody := mapSpan_addToBody (f := f) (r := r) ⟨key, v⟩
      exact congrArg (fun r => r.moveTo .outside) hbody
    | some h =>
      simp [receive, Slot.mapSpan, Stage.mapSpan, OpenHeader.mapSpan, Property.mapSpan,
        PlacedWord.mapSpan]
  | cons frame frames =>
    cases frame with
    | item g =>
      cases g <;> simp [receive, Slot.mapSpan, Frame.mapSpan, Group.mapSpan, Stage.mapSpan,
        OpenArray.mapSpan]
    | entry d key =>
      simp [receive, Slot.mapSpan, Frame.mapSpan, Group.mapSpan, Stage.mapSpan, OpenDict.mapSpan,
        Value.mapSpanEntry]
    | pair c key =>
      simp [receive, Slot.mapSpan, Frame.mapSpan, Group.mapSpan, Stage.mapSpan, OpenCall.mapSpan,
        Value.mapSpan, hf]
    | typeParam t => rfl

theorem mapSpan_settle : r.settle.mapSpan f = (r.mapSpan f).settle := by
  obtain ⟨done, body, stage, word⟩ := r
  cases word with
  | none => rfl
  | some held => exact mapSpan_receive hf held.1 (.word held.2.span held.2.text)

/-! ## One token at another place -/

omit hf in
theorem stepOutside_mapSpan :
    (r.mapSpan f).stepOutside (l.mapSpan f) = mapOutcome f (mapSpan f) (r.stepOutside l) := by
  obtain ⟨done, body, stage, word⟩ := r
  obtain ⟨token, a⟩ := l
  cases token with
  | word w => cases body <;> rfl
  | punct p => cases p <;> cases body <;> simp [stepOutside, mapSpan, Lexeme.mapSpan,
      Refusal.mapSpan, Stage.mapSpan]
  | _ => cases body <;> rfl

theorem stepHeader_mapSpan (h : OpenHeader) :
    (r.mapSpan f).stepHeader (h.mapSpan f) (l.mapSpan f) =
      mapOutcome f (mapSpan f) (r.stepHeader h l) := by
  obtain ⟨token, a⟩ := l
  cases token with
  | punct p =>
    cases p with
    | rightBracket =>
      simp [stepHeader, mapSpan, Lexeme.mapSpan, OpenHeader.mapSpan, Section.mapSpan,
        PlacedWord.mapSpan, Stage.mapSpan, hf]
    | _ => rfl
  | _ => rfl

theorem stepValue_mapSpan (slot : Slot) :
    (r.mapSpan f).stepValue (slot.mapSpan f) (l.mapSpan f) =
      mapOutcome f (mapSpan f) (r.stepValue slot l) := by
  have hreceive : ∀ v, (r.receive slot v).mapSpan f =
      (r.mapSpan f).receive (slot.mapSpan f) (v.mapSpan f) := mapSpan_receive hf slot
  obtain ⟨token, a⟩ := l
  cases token with
  | string s => exact congrArg Except.ok (hreceive (.string a s)).symm
  | number n => exact congrArg Except.ok (hreceive (.number a n)).symm
  | word w => rfl
  | punct p =>
    cases p <;> first | rfl | simp [stepValue, Lexeme.mapSpan, Refusal.mapSpan, start_mapSpan_slot]
  | _ => simp [stepValue, Lexeme.mapSpan, Refusal.mapSpan, start_mapSpan_slot]

theorem stepItem_mapSpan (slot : Slot) :
    (r.mapSpan f).stepItem (slot.mapSpan f) (l.mapSpan f) =
      mapOutcome f (mapSpan f) (r.stepItem slot l) := by
  obtain ⟨header, key, frames⟩ := slot
  cases frames with
  | nil => exact stepValue_mapSpan hf ⟨header, key, []⟩
  | cons frame frames =>
    cases frame with
    | item g =>
      by_cases hl : l.token = .punct g.closing
      · have hclosed := mapSpan_receive hf (r := r) ⟨header, key, frames⟩ (g.close l.span)
        simp only [stepItem, Slot.mapSpan, List.map_cons, Frame.mapSpan, closing_mapSpan,
          Lexeme.mapSpan, hl, if_true, mapOutcome_ok, hclosed, close_mapSpan hf]
      · have hvalue := stepValue_mapSpan hf (r := r) (l := l) ⟨header, key, .item g :: frames⟩
        simp only [Slot.mapSpan, List.map_cons, Frame.mapSpan] at hvalue
        simp only [stepItem, Slot.mapSpan, List.map_cons, Frame.mapSpan, closing_mapSpan, hl,
          if_false, hvalue]
        simp only [Lexeme.mapSpan, hl, if_false]
    | _ => exact stepValue_mapSpan hf ⟨header, key, _ :: frames⟩

theorem stepSeparator_mapSpan (slot : Slot) (g : Group) :
    (r.mapSpan f).stepSeparator (slot.mapSpan f) (g.mapSpan f) (l.mapSpan f) =
      mapOutcome f (mapSpan f) (r.stepSeparator slot g l) := by
  by_cases hclose : l.token = .punct g.closing
  · simp [stepSeparator, Lexeme.mapSpan, hclose, mapSpan_receive hf, close_mapSpan hf]
  · by_cases hcomma : l.token = .punct .comma
    · simp [stepSeparator, Lexeme.mapSpan, hcomma, hcomma ▸ hclose, Stage.mapSpan, Frame.mapSpan]
    · simp [stepSeparator, Lexeme.mapSpan, hclose, hcomma, Refusal.mapSpan]

omit hf in
theorem stepMark_mapSpan (mark : Punct) (start : Span) (next : Stage) :
    (r.mapSpan f).stepMark mark (f start) (next.mapSpan f) (l.mapSpan f) =
      mapOutcome f (mapSpan f) (r.stepMark mark start next l) := by
  by_cases hl : l.token = .punct mark <;> simp [stepMark, Lexeme.mapSpan, hl, Refusal.mapSpan]

theorem stepSettled_mapSpan :
    (r.mapSpan f).stepSettled (l.mapSpan f) = mapOutcome f (mapSpan f) (r.stepSettled l) := by
  obtain ⟨done, body, stage, word⟩ := r
  cases stage with
  | outside => exact stepOutside_mapSpan
  | tag start =>
    obtain ⟨token, a⟩ := l
    cases token <;> rfl
  | header h => exact stepHeader_mapSpan hf h
  | equals h key => exact stepMark_mapSpan .equals key.span (.value ⟨h, key, []⟩)
  | value slot => exact stepItem_mapSpan hf slot
  | text slot kind start =>
    obtain ⟨token, a⟩ := l
    cases token with
    | string s =>
      have hvalue : (kind.value (start.join a) s).mapSpan f =
          kind.value ((f start).join (f a)) s := by
        cases kind <;> simp [Prefixed.value, Value.mapSpan, hf]
      have hreceive := mapSpan_receive hf (r := ⟨done, body, .text slot kind start, word⟩) slot
        (kind.value (start.join a) s)
      rw [hvalue] at hreceive
      exact congrArg Except.ok hreceive.symm
    | _ => rfl
  | argument slot c key =>
    by_cases hl : l.token = .punct .colon
    · simp [stepSettled, mapSpan, Stage.mapSpan, Lexeme.mapSpan, hl, moveTo, Frame.mapSpan]
    · have hseparator := stepSeparator_mapSpan hf (r := ⟨done, body, .argument slot c key, word⟩)
        (l := l) slot (.call { c with args := c.args ++ [key] })
      simp only [Group.mapSpan, OpenCall.mapSpan, List.map_append, List.map_cons,
        List.map_nil] at hseparator
      have hl' : (l.mapSpan f).token ≠ .punct .colon := hl
      simp only [stepSettled, mapSpan, Stage.mapSpan, if_neg hl, if_neg hl', OpenCall.mapSpan]
      exact hseparator
  | separator slot g => exact stepSeparator_mapSpan hf slot g
  | colon slot d key => exact stepMark_mapSpan .colon d.start (.value (slot.push (.entry d key)))
  | closeType slot t param =>
    exact stepMark_mapSpan .rightBracket t.start (.openArgs slot t param)
  | openArgs slot t param =>
    have hmark := stepMark_mapSpan (f := f) (r := ⟨done, body, .openArgs slot t param, word⟩)
      (l := l) .leftParen t.start (.value (slot.push
        (.item (.call ⟨t.start, t.start.join t.bracket, t.name, some param, []⟩))))
    simp only [Stage.mapSpan, mapSpan_push, Frame.mapSpan, Group.mapSpan, OpenCall.mapSpan, hf,
      Value.mapSpanTypeParam, List.map_nil] at hmark
    exact hmark

/-- A reader does the same with a token wherever the two stand. -/
theorem step_mapSpan :
    (r.mapSpan f).step (l.mapSpan f) = mapOutcome f (mapSpan f) (r.step l) := by
  have hsettle := mapSpan_settle hf (r := r)
  obtain ⟨done, body, stage, word⟩ := r
  cases word with
  | none =>
    by_cases hskip : (l.token.isTrivia && !stage.isTight) = true
    · have hskip' : ((l.mapSpan f).token.isTrivia && !(stage.mapSpan f).isTight) = true := by
        rwa [isTight_mapSpan]
      simp only [step, mapSpan, Option.map_none, hskip, hskip', if_true]
      rfl
    · have hskip' : ¬ ((l.mapSpan f).token.isTrivia && !(stage.mapSpan f).isTight) = true := by
        rwa [isTight_mapSpan]
      have hsettled := stepSettled_mapSpan hf (r := ⟨done, body, stage, none⟩) (l := l)
      simp only [step, mapSpan, Option.map_none, hskip, hskip']
      exact hsettled
  | some held =>
    obtain ⟨slot, w⟩ := held
    have hsettled := stepSettled_mapSpan hf (l := l)
      (r := SectionReader.settle ⟨done, body, stage, some (slot, w)⟩)
    rw [hsettle] at hsettled
    obtain ⟨token, a⟩ := l
    by_cases hparen : token = .punct .leftParen
    · subst hparen
      rfl
    by_cases hbracket : token = .punct .leftBracket
    · subst hbracket
      rfl
    by_cases htrivia : token.isTrivia = true
    · simp only [step, mapSpan, Option.map_some, Lexeme.mapSpan_mk, hparen, hbracket, htrivia,
        if_true, if_false, mapOutcome_ok]
      exact congrArg Except.ok hsettle.symm
    · simp only [step, mapSpan, Option.map_some, Lexeme.mapSpan_mk, hparen, hbracket, htrivia,
        if_false]
      exact hsettled

/-- A reader has read the same sections wherever they stand. -/
theorem finish_mapSpan :
    (r.mapSpan f).finish = mapOutcome f (List.map (Section.mapSpan f)) r.finish := by
  rw [finish, finish, ← mapSpan_settle hf]
  generalize r.settle = s
  obtain ⟨done, body, stage, word⟩ := s
  cases stage with
  | outside => cases body <;> simp [mapSpan, Stage.mapSpan]
  | value slot => simp [mapSpan, Stage.mapSpan, Refusal.mapSpan, start_mapSpan_slot]
  | separator slot g => simp [mapSpan, Stage.mapSpan, Refusal.mapSpan]
  | _ => rfl

end SectionReader

end SceneDiagram
