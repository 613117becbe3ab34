import SceneDiagram.Section
import SceneDiagram.Token

/-!
# The grammar of scene sources

Which tokens make up a value, a property, a section and a file. The rules speak of whole stretches
of tokens and of the syntax trees they stand for; they know nothing of a reader that goes through
the tokens one by one. Trivia may stand in every gap that a rule names. Where no gap is named, two
tokens touch: a mark and its string, a word and the bracket that makes it the name of a call.

What may follow a section is a parameter of the rules for files, so that the grammar with gaps
between sections (`Apart`), the one without any, and the one that scene sources obey can be compared.
-/

namespace SceneDiagram.Grammar

open Text

/-- Tokens that only separate others. -/
def IsTrivia (ts : List Lexeme) : Prop := ∀ l ∈ ts, l.token.isTrivia = true

/-- Items with commas between them. One more comma may follow the last item. -/
inductive Listed {α : Type} (form : List Lexeme → α → Prop) : List Lexeme → List α → Prop
  | none {ts : List Lexeme} : IsTrivia ts → Listed form ts []
  | one {before ts after : List Lexeme} {x : α} :
      IsTrivia before → form ts x → IsTrivia after → Listed form (before ++ ts ++ after) [x]
  | more {before ts after rest : List Lexeme} {comma : Span} {x : α} {xs : List α} :
      IsTrivia before → form ts x → IsTrivia after → Listed form rest xs →
      Listed form (before ++ ts ++ after ++ ⟨.punct .comma, comma⟩ :: rest) (x :: xs)

/-- A key, a colon and a value. -/
inductive Entry (form : List Lexeme → Value → Prop) : List Lexeme → Value × Value → Prop
  | mk {ks before after vs : List Lexeme} {colon : Span} {key value : Value} :
      form ks key → IsTrivia before → IsTrivia after → form vs value →
      Entry form (ks ++ before ++ ⟨.punct .colon, colon⟩ :: (after ++ vs)) (key, value)

/-- An argument of a call: a value, or a key with its value. -/
inductive Argument (form : List Lexeme → Value → Prop) : List Lexeme → Value → Prop
  | value {ts : List Lexeme} {v : Value} : form ts v → Argument form ts v
  | pair {ks before after vs : List Lexeme} {colon : Span} {key value : Value} :
      form ks key → IsTrivia before → IsTrivia after → form vs value →
      Argument form (ks ++ before ++ ⟨.punct .colon, colon⟩ :: (after ++ vs))
        (.pair (key.span.join value.span) key value)

/-- The tokens of a value, from the first to the last. -/
inductive ValueForm : List Lexeme → Value → Prop
  | string {a : Span} {s : String} : ValueForm [⟨.string s, a⟩] (.string a s)
  | stringName {a b : Span} {s : String} :
      ValueForm [⟨.punct .ampersand, a⟩, ⟨.string s, b⟩] (.stringName (a.join b) s)
  | nodePath {a b : Span} {s : String} :
      ValueForm [⟨.punct .caret, a⟩, ⟨.string s, b⟩] (.nodePath (a.join b) s)
  | number {a : Span} {n : String} : ValueForm [⟨.number n, a⟩] (.number a n)
  | word {a : Span} {w : String} : ValueForm [⟨.word w, a⟩] (.word a w)
  | array {a b : Span} {ts : List Lexeme} {items : List Value} : Listed ValueForm ts items →
      ValueForm (⟨.punct .leftBracket, a⟩ :: (ts ++ [⟨.punct .rightBracket, b⟩]))
        (.array (a.join b) items)
  | dict {a b : Span} {ts : List Lexeme} {entries : List (Value × Value)} :
      Listed (Entry ValueForm) ts entries →
      ValueForm (⟨.punct .leftBrace, a⟩ :: (ts ++ [⟨.punct .rightBrace, b⟩]))
        (.dict (a.join b) entries)
  | call {a b p : Span} {w : String} {ts : List Lexeme} {args : List Value} :
      Listed (Argument ValueForm) ts args →
      ValueForm (⟨.word w, a⟩ :: ⟨.punct .leftParen, p⟩ :: (ts ++ [⟨.punct .rightParen, b⟩]))
        (.call (a.join b) w none args)
  | typedCall {a b o c p : Span} {w : String} {before us after ts : List Lexeme} {param : Value}
      {args : List Value} :
      IsTrivia before → ValueForm us param → IsTrivia after → Listed (Argument ValueForm) ts args →
      ValueForm (⟨.word w, a⟩ :: ⟨.punct .leftBracket, o⟩ :: (before ++ us ++ after ++
          ⟨.punct .rightBracket, c⟩ :: ⟨.punct .leftParen, p⟩ ::
            (ts ++ [⟨.punct .rightParen, b⟩])))
        (.call ((a.join o).join b) w (some param) args)

/-- The tokens of a property. -/
inductive PropertyForm : List Lexeme → Property → Prop
  | mk {a e : Span} {w : String} {before after ts : List Lexeme} {v : Value} :
      IsTrivia before → IsTrivia after → ValueForm ts v →
      PropertyForm (⟨.word w, a⟩ :: (before ++ ⟨.punct .equals, e⟩ :: (after ++ ts))) ⟨⟨w, a⟩, v⟩

/-- Properties one after another, each with or without trivia before it. -/
inductive Properties : List Lexeme → List Property → Prop
  | nil : Properties [] []
  | cons {before ts rest : List Lexeme} {p : Property} {ps : List Property} :
      IsTrivia before → PropertyForm ts p → Properties rest ps →
      Properties (before ++ ts ++ rest) (p :: ps)

/-- The tokens of a section, from its first bracket to the end of its last property. -/
inductive SectionForm : List Lexeme → Section → Prop
  | mk {a b c : Span} {tag : String} {before as after ps : List Lexeme}
      {attributes properties : List Property} :
      IsTrivia before → Properties as attributes → IsTrivia after → Properties ps properties →
      SectionForm (⟨.punct .leftBracket, a⟩ :: (before ++ ⟨.word tag, b⟩ :: (as ++ after ++
          ⟨.punct .rightBracket, c⟩ :: ps)))
        ⟨⟨tag, b⟩, attributes, properties, a.join c⟩

/-- Nothing follows, or trivia does. -/
def Apart (rest : List Lexeme) : Prop := ∀ l ∈ rest.head?, l.token.isTrivia = true

/-- The last property of a section has a bare word as its value. -/
def EndsInWord (s : Section) : Prop :=
  ∃ p ∈ s.properties.getLast?, ∃ a w, p.value = .word a w

/-- The tokens of sections one after another, each with or without trivia around it, where each
section and the tokens after it are as `followed` says. -/
inductive FileForm (followed : Section → List Lexeme → Prop) : List Lexeme → List Section → Prop
  | none {ts : List Lexeme} : IsTrivia ts → FileForm followed ts []
  | more {before ts rest : List Lexeme} {s : Section} {ss : List Section} :
      IsTrivia before → SectionForm ts s → followed s rest → FileForm followed rest ss →
      FileForm followed (before ++ ts ++ rest) (s :: ss)

/-- The tokens of a scene source. A section that ends in a bare word has trivia after it, for a
bracket that touches the word would start the type of a call. -/
def SceneForm : List Lexeme → List Section → Prop :=
  FileForm fun s rest => EndsInWord s → Apart rest

/-! ## Trivia -/

@[simp] theorem isTrivia_nil : IsTrivia [] := by simp [IsTrivia]

@[simp] theorem isTrivia_cons {l : Lexeme} {ts : List Lexeme} :
    IsTrivia (l :: ts) ↔ l.token.isTrivia = true ∧ IsTrivia ts := by
  simp [IsTrivia]

@[simp] theorem isTrivia_append {ts us : List Lexeme} :
    IsTrivia (ts ++ us) ↔ IsTrivia ts ∧ IsTrivia us := by
  simp [IsTrivia, or_imp, forall_and]

theorem IsTrivia.apart {ts : List Lexeme} (h : IsTrivia ts) : Apart ts :=
  fun l hl => h l (List.mem_of_mem_head? hl)

theorem find?_eq_none_iff {ts : List Lexeme} :
    ts.find? (! ·.token.isTrivia) = none ↔ IsTrivia ts := by
  simp [IsTrivia]

theorem find?_append_cons {before rest : List Lexeme} {l : Lexeme} (hbefore : IsTrivia before)
    (hl : l.token.isTrivia = false) :
    (before ++ l :: rest).find? (! ·.token.isTrivia) = some l := by
  simp [List.find?_append, find?_eq_none_iff.mpr hbefore, hl]

theorem ValueForm.length_pos {ts : List Lexeme} {v : Value} (h : ValueForm ts v) :
    0 < ts.length := by
  cases h <;> simp

/-! ## Induction on the form of a value -/

/-- Induction on a value. The values in it come with what holds of them by induction, wherever in a
list, an entry or a pair they stand. -/
@[elab_as_elim]
theorem ValueForm.induction
    {motive : (ts : List Lexeme) → (v : Value) → ValueForm ts v → Prop}
    (string : ∀ {a s}, motive [⟨.string s, a⟩] (.string a s) .string)
    (stringName : ∀ {a b s},
      motive [⟨.punct .ampersand, a⟩, ⟨.string s, b⟩] (.stringName (a.join b) s) .stringName)
    (nodePath : ∀ {a b s},
      motive [⟨.punct .caret, a⟩, ⟨.string s, b⟩] (.nodePath (a.join b) s) .nodePath)
    (number : ∀ {a n}, motive [⟨.number n, a⟩] (.number a n) .number)
    (word : ∀ {a w}, motive [⟨.word w, a⟩] (.word a w) .word)
    (array : ∀ {a b ts items} (h : Listed ValueForm ts items),
      Listed (fun us v => ∃ hv, motive us v hv) ts items →
      motive (⟨.punct .leftBracket, a⟩ :: (ts ++ [⟨.punct .rightBracket, b⟩]))
        (.array (a.join b) items) (.array h))
    (dict : ∀ {a b ts entries} (h : Listed (Entry ValueForm) ts entries),
      Listed (Entry fun us v => ∃ hv, motive us v hv) ts entries →
      motive (⟨.punct .leftBrace, a⟩ :: (ts ++ [⟨.punct .rightBrace, b⟩]))
        (.dict (a.join b) entries) (.dict h))
    (call : ∀ {a b p w ts args} (h : Listed (Argument ValueForm) ts args),
      Listed (Argument fun us v => ∃ hv, motive us v hv) ts args →
      motive (⟨.word w, a⟩ :: ⟨.punct .leftParen, p⟩ :: (ts ++ [⟨.punct .rightParen, b⟩]))
        (.call (a.join b) w none args) (.call h))
    (typedCall : ∀ {a b o c p w before us after ts param args}
      (hbefore : IsTrivia before) (hparam : ValueForm us param) (hafter : IsTrivia after)
      (h : Listed (Argument ValueForm) ts args), motive us param hparam →
      Listed (Argument fun us v => ∃ hv, motive us v hv) ts args →
      motive (⟨.word w, a⟩ :: ⟨.punct .leftBracket, o⟩ :: (before ++ us ++ after ++
          ⟨.punct .rightBracket, c⟩ :: ⟨.punct .leftParen, p⟩ ::
            (ts ++ [⟨.punct .rightParen, b⟩])))
        (.call ((a.join o).join b) w (some param) args) (.typedCall hbefore hparam hafter h))
    {ts : List Lexeme} {v : Value} (h : ValueForm ts v) : motive ts v h := by
  refine @ValueForm.rec motive
    (fun ts items _ => Listed (fun us v => ∃ hv, motive us v hv) ts items)
    (fun ts entries _ => Listed (Entry fun us v => ∃ hv, motive us v hv) ts entries)
    (fun ts args _ => Listed (Argument fun us v => ∃ hv, motive us v hv) ts args)
    (fun ts e _ => Entry (fun us v => ∃ hv, motive us v hv) ts e)
    (fun ts v _ => Argument (fun us v => ∃ hv, motive us v hv) ts v)
    string stringName nodePath number word array dict call typedCall
    .none (fun hbefore hx hafter ih => .one hbefore ⟨hx, ih⟩ hafter)
    (fun hbefore hx hafter _ ih ihrest => .more hbefore ⟨hx, ih⟩ hafter ihrest)
    .none (fun hbefore _ hafter ih => .one hbefore ih hafter)
    (fun hbefore _ hafter _ ih ihrest => .more hbefore ih hafter ihrest)
    .none (fun hbefore _ hafter ih => .one hbefore ih hafter)
    (fun hbefore _ hafter _ ih ihrest => .more hbefore ih hafter ihrest)
    (fun hkey hbefore hafter hvalue ihkey ihvalue =>
      .mk ⟨hkey, ihkey⟩ hbefore hafter ⟨hvalue, ihvalue⟩)
    (fun hv ih => .value ⟨hv, ih⟩)
    (fun hkey hbefore hafter hvalue ihkey ihvalue =>
      .pair ⟨hkey, ihkey⟩ hbefore hafter ⟨hvalue, ihvalue⟩) ts v h

end SceneDiagram.Grammar
