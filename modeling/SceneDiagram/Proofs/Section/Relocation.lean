import SceneDiagram.Proofs.Section.Grammar
import SceneDiagram.Proofs.Token.Locality

/-!
# Syntax trees at other places

The grammar knows nothing of spans but how to join them. So when the spans of all tokens are changed
by a function that keeps joins, the tokens still follow the grammar, and the spans of the tree change
by the same function (`ValueForm.mapSpan`, `SceneForm.mapSpan`).
-/

namespace SceneDiagram

open Text Grammar

namespace Value

mutual

/-- A value with other spans. -/
def mapSpan (f : Span → Span) : Value → Value
  | string s t => string (f s) t
  | stringName s t => stringName (f s) t
  | nodePath s t => nodePath (f s) t
  | number s n => number (f s) n
  | word s w => word (f s) w
  | call s name typeParam args =>
    call (f s) name (mapSpanTypeParam f typeParam) (mapSpanItems f args)
  | array s items => array (f s) (mapSpanItems f items)
  | pair s key entry => pair (f s) (key.mapSpan f) (entry.mapSpan f)
  | dict s entries => dict (f s) (mapSpanEntries f entries)

/-- The type of a call with other spans. -/
def mapSpanTypeParam (f : Span → Span) : Option Value → Option Value
  | none => none
  | some v => some (v.mapSpan f)

/-- Items with other spans. -/
def mapSpanItems (f : Span → Span) : List Value → List Value
  | [] => []
  | v :: vs => v.mapSpan f :: mapSpanItems f vs

/-- Entries with other spans. -/
def mapSpanEntries (f : Span → Span) : List (Value × Value) → List (Value × Value)
  | [] => []
  | (key, entry) :: entries => (key.mapSpan f, entry.mapSpan f) :: mapSpanEntries f entries

end

variable {f : Span → Span}

@[simp] theorem span_mapSpan (v : Value) : (v.mapSpan f).span = f v.span := by
  cases v <;> rfl

theorem mapSpanItems_eq_map (vs : List Value) : mapSpanItems f vs = vs.map (mapSpan f) := by
  induction vs with
  | nil => rfl
  | cons v vs ih => rw [mapSpanItems, ih, List.map_cons]

/-- An entry with other spans. -/
def mapSpanEntry (f : Span → Span) (e : Value × Value) : Value × Value :=
  (e.1.mapSpan f, e.2.mapSpan f)

theorem mapSpanEntries_eq_map (es : List (Value × Value)) :
    mapSpanEntries f es = es.map (mapSpanEntry f) := by
  induction es with
  | nil => rfl
  | cons e es ih => rw [mapSpanEntries, ih, List.map_cons, mapSpanEntry]

mutual

/-- Other spans do not change what a value says. -/
theorem unplaced_mapSpan : (v : Value) → (v.mapSpan f).unplaced = v.unplaced
  | string _ _ | stringName _ _ | nodePath _ _ | number _ _ | word _ _ => rfl
  | call _ name typeParam args => by
    rw [mapSpan, unplaced, unplaced, unplacedTypeParam_mapSpan, unplacedItems_mapSpan]
  | array _ items => by rw [mapSpan, unplaced, unplaced, unplacedItems_mapSpan]
  | pair _ key entry => by
    rw [mapSpan, unplaced, unplaced, unplaced_mapSpan key, unplaced_mapSpan entry]
  | dict _ entries => by rw [mapSpan, unplaced, unplaced, unplacedEntries_mapSpan]

theorem unplacedTypeParam_mapSpan :
    (v : Option Value) → unplacedTypeParam (mapSpanTypeParam f v) = unplacedTypeParam v
  | none => rfl
  | some v => by rw [mapSpanTypeParam, unplacedTypeParam, unplacedTypeParam, unplaced_mapSpan v]

theorem unplacedItems_mapSpan :
    (vs : List Value) → unplacedItems (mapSpanItems f vs) = unplacedItems vs
  | [] => rfl
  | v :: vs => by
    rw [mapSpanItems, unplacedItems, unplacedItems, unplaced_mapSpan v, unplacedItems_mapSpan vs]

theorem unplacedEntries_mapSpan :
    (es : List (Value × Value)) → unplacedEntries (mapSpanEntries f es) = unplacedEntries es
  | [] => rfl
  | (key, entry) :: es => by
    rw [mapSpanEntries, unplacedEntries, unplacedEntries, unplaced_mapSpan key,
      unplaced_mapSpan entry, unplacedEntries_mapSpan es]

end

end Value

/-- A property with other spans. -/
def Property.mapSpan (f : Span → Span) (p : Property) : Property :=
  ⟨⟨p.key.text, f p.key.span⟩, p.value.mapSpan f⟩

/-- A section with other spans. -/
def Section.mapSpan (f : Span → Span) (s : Section) : Section :=
  ⟨⟨s.tag.text, f s.tag.span⟩, s.attributes.map (Property.mapSpan f),
    s.properties.map (Property.mapSpan f), f s.headerSpan⟩

namespace Grammar

variable {f : Span → Span} {ts us : List Lexeme} {v : Value} {p : Property} {s : Section}
  {ps : List Property} {ss : List Section}

theorem IsTrivia.map (f : Span → Span) (h : IsTrivia ts) :
    IsTrivia (ts.map (Lexeme.mapSpan f)) := by
  intro l hl
  obtain ⟨l', hl', rfl⟩ := List.mem_map.mp hl
  exact h l' hl'

theorem Listed.map {α β : Type} {form : List Lexeme → α → Prop} {form' : List Lexeme → β → Prop}
    {g : α → β} {xs : List α} (h : Listed form ts xs)
    (hform : ∀ {us x}, form us x → form' (us.map (Lexeme.mapSpan f)) (g x)) :
    Listed form' (ts.map (Lexeme.mapSpan f)) (xs.map g) := by
  induction h with
  | none hts => exact .none (hts.map f)
  | one hbefore hx hafter =>
    simp only [List.map_append, List.map_cons, List.map_nil]
    exact .one (hbefore.map f) (hform hx) (hafter.map f)
  | more hbefore hx hafter _ ih =>
    simp only [List.map_append, List.map_cons, Lexeme.mapSpan_mk]
    exact .more (hbefore.map f) (hform hx) (hafter.map f) ih

/-- Values of some form are values at other places. -/
def Moves (f : Span → Span) (form : List Lexeme → Value → Prop) : Prop :=
  ∀ {us v}, form us v → ValueForm (us.map (Lexeme.mapSpan f)) (v.mapSpan f)

variable {form : List Lexeme → Value → Prop}

theorem Entry.map {e : Value × Value} (h : Entry form ts e) (hform : Moves f form) :
    Entry ValueForm (ts.map (Lexeme.mapSpan f)) (Value.mapSpanEntry f e) := by
  cases h with
  | mk hkey hbefore hafter hvalue =>
    simp only [List.map_append, List.map_cons, Lexeme.mapSpan_mk]
    exact .mk (hform hkey) (hbefore.map f) (hafter.map f) (hform hvalue)

variable (hf : ∀ a b, f (a.join b) = (f a).join (f b))
include hf

theorem Argument.map (h : Argument form ts v) (hform : Moves f form) :
    Argument ValueForm (ts.map (Lexeme.mapSpan f)) (v.mapSpan f) := by
  cases h with
  | value hv => exact .value (hform hv)
  | @pair ks before after vs colon key value hkey hbefore hafter hvalue =>
    have hspan : f (key.span.join value.span) =
        (key.mapSpan f).span.join (value.mapSpan f).span := by
      rw [hf, Value.span_mapSpan, Value.span_mapSpan]
    simp only [List.map_append, List.map_cons, Lexeme.mapSpan_mk, Value.mapSpan, hspan]
    exact .pair (hform hkey) (hbefore.map f) (hafter.map f) (hform hvalue)

theorem ValueForm.mapSpan (h : ValueForm ts v) :
    ValueForm (ts.map (Lexeme.mapSpan f)) (v.mapSpan f) := by
  have hmoves : Moves f fun us v =>
      ∃ _ : ValueForm us v, ValueForm (us.map (Lexeme.mapSpan f)) (v.mapSpan f) :=
    fun ⟨_, h⟩ => h
  induction h using ValueForm.induction with
  | string => exact .string
  | stringName =>
    simp only [List.map_cons, List.map_nil, Lexeme.mapSpan_mk, Value.mapSpan, hf]
    exact .stringName
  | nodePath =>
    simp only [List.map_cons, List.map_nil, Lexeme.mapSpan_mk, Value.mapSpan, hf]
    exact .nodePath
  | number => exact .number
  | word => exact .word
  | array _ ih =>
    simp only [List.map_append, List.map_cons, List.map_nil, Lexeme.mapSpan_mk, Value.mapSpan, hf,
      Value.mapSpanItems_eq_map]
    exact .array (ih.map hmoves)
  | dict _ ih =>
    simp only [List.map_append, List.map_cons, List.map_nil, Lexeme.mapSpan_mk, Value.mapSpan, hf,
      Value.mapSpanEntries_eq_map]
    exact .dict (ih.map (·.map hmoves))
  | call _ ih =>
    simp only [List.map_append, List.map_cons, List.map_nil, Lexeme.mapSpan_mk, Value.mapSpan, hf,
      Value.mapSpanItems_eq_map, Value.mapSpanTypeParam]
    exact .call (ih.map (Argument.map hf · hmoves))
  | typedCall hbefore _ hafter _ ihparam ih =>
    simp only [List.map_append, List.map_cons, List.map_nil, Lexeme.mapSpan_mk, Value.mapSpan, hf,
      Value.mapSpanItems_eq_map, Value.mapSpanTypeParam]
    exact .typedCall (hbefore.map f) ihparam (hafter.map f) (ih.map (Argument.map hf · hmoves))

theorem PropertyForm.mapSpan (h : PropertyForm ts p) :
    PropertyForm (ts.map (Lexeme.mapSpan f)) (p.mapSpan f) := by
  cases h with
  | mk hbefore hafter hv =>
    simp only [List.map_append, List.map_cons, Lexeme.mapSpan_mk, Property.mapSpan]
    exact .mk (hbefore.map f) (hafter.map f) (hv.mapSpan hf)

theorem Properties.mapSpan (h : Properties ts ps) :
    Properties (ts.map (Lexeme.mapSpan f)) (ps.map (Property.mapSpan f)) := by
  induction h with
  | nil => exact .nil
  | cons hbefore hp _ ih =>
    simp only [List.map_append, List.map_cons]
    exact .cons (hbefore.map f) (hp.mapSpan hf) ih

theorem SectionForm.mapSpan (h : SectionForm ts s) :
    SectionForm (ts.map (Lexeme.mapSpan f)) (s.mapSpan f) := by
  cases h with
  | mk hbefore has hafter hps =>
    simp only [List.map_append, List.map_cons, Lexeme.mapSpan_mk, Section.mapSpan, hf]
    exact .mk (hbefore.map f) (has.mapSpan hf) (hafter.map f) (hps.mapSpan hf)

omit hf

theorem endsInWord_of_mapSpan (h : EndsInWord (s.mapSpan f)) : EndsInWord s := by
  obtain ⟨p', hlast, a, w, hword⟩ := h
  rw [Section.mapSpan, List.getLast?_map] at hlast
  obtain ⟨p, hp, rfl⟩ := Option.map_eq_some_iff.mp hlast
  obtain ⟨key, value⟩ := p
  cases value with
  | word b w => exact ⟨_, hp, b, w, rfl⟩
  | _ => cases hword

theorem Apart.map (h : Apart ts) : Apart (ts.map (Lexeme.mapSpan f)) := by
  cases ts with
  | nil => simp [Apart]
  | cons l ts => simpa [Apart, Lexeme.mapSpan] using h

include hf

/-- A scene source at another place is a scene source, and its sections are the same at that
place. -/
theorem SceneForm.mapSpan (h : SceneForm ts ss) :
    SceneForm (ts.map (Lexeme.mapSpan f)) (ss.map (Section.mapSpan f)) := by
  induction h with
  | none hts => exact .none (hts.map f)
  | more hbefore hs hfollowed _ ih =>
    simp only [List.map_append, List.map_cons]
    exact .more (hbefore.map f) (hs.mapSpan hf)
      (fun hword => (hfollowed (endsInWord_of_mapSpan hword)).map) ih

end Grammar

end SceneDiagram
