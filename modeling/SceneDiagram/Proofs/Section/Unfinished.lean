import SceneDiagram.Proofs.Section.Grammar

/-!
# Source that breaks off

Which tokens are the beginning of a value, of a property, of a section and of a file and not yet the
whole of it. These rules go beside those of the grammar, one for each gap in a rule where the tokens
may break off. They name the innermost construct that is open there by the span of its first token;
tokens in a list or an entry that stand in no construct of their own name none. A bare word opens
nothing, for it is a value already, though a bracket may still make a call of it.

Wherever the tokens of a source are cut in two, the part before the cut is a source or follows these
rules (`SceneForm.cut`).
-/

namespace SceneDiagram.Grammar

open Text

/-- Items with commas between them, up to a place before the mark that closes the list: where an
item is due, within one, or after one. -/
inductive ListedUpTo {α : Type} (form : List Lexeme → α → Prop)
    (upTo : List Lexeme → Option Span → Prop) : List Lexeme → Option Span → Prop
  | due {ts : List Lexeme} : IsTrivia ts → ListedUpTo form upTo ts none
  | within {before ts : List Lexeme} {opened : Option Span} :
      IsTrivia before → upTo ts opened → ListedUpTo form upTo (before ++ ts) opened
  | after {before ts after : List Lexeme} {x : α} :
      IsTrivia before → form ts x → IsTrivia after →
      ListedUpTo form upTo (before ++ ts ++ after) none
  | more {before ts after rest : List Lexeme} {comma : Span} {x : α} {opened : Option Span} :
      IsTrivia before → form ts x → IsTrivia after → ListedUpTo form upTo rest opened →
      ListedUpTo form upTo (before ++ ts ++ after ++ ⟨.punct .comma, comma⟩ :: rest) opened

/-- A key, a colon and a value, up to a place before the end of the value. -/
inductive EntryUpTo (form : List Lexeme → Value → Prop)
    (upTo : List Lexeme → Option Span → Prop) : List Lexeme → Option Span → Prop
  | key {ts : List Lexeme} {opened : Option Span} : upTo ts opened → EntryUpTo form upTo ts opened
  | colon {ks before : List Lexeme} {key : Value} :
      form ks key → IsTrivia before → EntryUpTo form upTo (ks ++ before) none
  | due {ks before after : List Lexeme} {colon : Span} {key : Value} :
      form ks key → IsTrivia before → IsTrivia after →
      EntryUpTo form upTo (ks ++ before ++ ⟨.punct .colon, colon⟩ :: after) none
  | value {ks before after vs : List Lexeme} {colon : Span} {key : Value} {opened : Option Span} :
      form ks key → IsTrivia before → IsTrivia after → upTo vs opened →
      EntryUpTo form upTo (ks ++ before ++ ⟨.punct .colon, colon⟩ :: (after ++ vs)) opened

/-- The first tokens of a value that is open after them. -/
inductive ValueUpTo : List Lexeme → Option Span → Prop
  | stringName {a : Span} : ValueUpTo [⟨.punct .ampersand, a⟩] (some a)
  | nodePath {a : Span} : ValueUpTo [⟨.punct .caret, a⟩] (some a)
  | array {a : Span} {ts : List Lexeme} {opened : Option Span} :
      ListedUpTo ValueForm ValueUpTo ts opened →
      ValueUpTo (⟨.punct .leftBracket, a⟩ :: ts) (some (opened.getD a))
  | dict {a : Span} {ts : List Lexeme} {opened : Option Span} :
      ListedUpTo (Entry ValueForm) (EntryUpTo ValueForm ValueUpTo) ts opened →
      ValueUpTo (⟨.punct .leftBrace, a⟩ :: ts) (some (opened.getD a))
  | call {a p : Span} {w : String} {ts : List Lexeme} {opened : Option Span} :
      ListedUpTo (Argument ValueForm) (EntryUpTo ValueForm ValueUpTo) ts opened →
      ValueUpTo (⟨.word w, a⟩ :: ⟨.punct .leftParen, p⟩ :: ts) (some (opened.getD a))
  | typeDue {a o : Span} {w : String} {before : List Lexeme} : IsTrivia before →
      ValueUpTo (⟨.word w, a⟩ :: ⟨.punct .leftBracket, o⟩ :: before) (some a)
  | type {a o : Span} {w : String} {before us : List Lexeme} {opened : Option Span} :
      IsTrivia before → ValueUpTo us opened →
      ValueUpTo (⟨.word w, a⟩ :: ⟨.punct .leftBracket, o⟩ :: (before ++ us)) (some (opened.getD a))
  | closeType {a o : Span} {w : String} {before us after : List Lexeme} {param : Value} :
      IsTrivia before → ValueForm us param → IsTrivia after →
      ValueUpTo (⟨.word w, a⟩ :: ⟨.punct .leftBracket, o⟩ :: (before ++ us ++ after)) (some a)
  | openArgs {a o c : Span} {w : String} {before us after : List Lexeme} {param : Value} :
      IsTrivia before → ValueForm us param → IsTrivia after →
      ValueUpTo (⟨.word w, a⟩ :: ⟨.punct .leftBracket, o⟩ :: (before ++ us ++ after ++
        [⟨.punct .rightBracket, c⟩])) (some a)
  | typedCall {a o c p : Span} {w : String} {before us after ts : List Lexeme} {param : Value}
      {opened : Option Span} :
      IsTrivia before → ValueForm us param → IsTrivia after →
      ListedUpTo (Argument ValueForm) (EntryUpTo ValueForm ValueUpTo) ts opened →
      ValueUpTo (⟨.word w, a⟩ :: ⟨.punct .leftBracket, o⟩ :: (before ++ us ++ after ++
        ⟨.punct .rightBracket, c⟩ :: ⟨.punct .leftParen, p⟩ :: ts)) (some (opened.getD a))

/-- The first tokens of a property, up to a place before the end of its value. -/
inductive PropertyUpTo : List Lexeme → Span → Prop
  | equals {a : Span} {w : String} {before : List Lexeme} : IsTrivia before →
      PropertyUpTo (⟨.word w, a⟩ :: before) a
  | due {a e : Span} {w : String} {before after : List Lexeme} :
      IsTrivia before → IsTrivia after →
      PropertyUpTo (⟨.word w, a⟩ :: (before ++ ⟨.punct .equals, e⟩ :: after)) a
  | value {a e : Span} {w : String} {before after ts : List Lexeme} {opened : Option Span} :
      IsTrivia before → IsTrivia after → ValueUpTo ts opened →
      PropertyUpTo (⟨.word w, a⟩ :: (before ++ ⟨.punct .equals, e⟩ :: (after ++ ts)))
        (opened.getD a)

/-- The first tokens of a section, up to a place in its header or in one of its properties. -/
inductive SectionUpTo : List Lexeme → Span → Prop
  | tag {a : Span} {before : List Lexeme} : IsTrivia before →
      SectionUpTo (⟨.punct .leftBracket, a⟩ :: before) a
  | header {a b : Span} {tag : String} {before as after : List Lexeme}
      {attributes : List Property} :
      IsTrivia before → Properties as attributes → IsTrivia after →
      SectionUpTo (⟨.punct .leftBracket, a⟩ :: (before ++ ⟨.word tag, b⟩ :: (as ++ after))) a
  | inHeader {a b : Span} {tag : String} {before as between ts : List Lexeme}
      {attributes : List Property} {opened : Span} :
      IsTrivia before → Properties as attributes → IsTrivia between → PropertyUpTo ts opened →
      SectionUpTo (⟨.punct .leftBracket, a⟩ :: (before ++ ⟨.word tag, b⟩ :: (as ++ between ++ ts)))
        opened
  | inBody {ts between us : List Lexeme} {s : Section} {opened : Span} :
      SectionForm ts s → IsTrivia between → PropertyUpTo us opened →
      SectionUpTo (ts ++ between ++ us) opened

/-- The first tokens of a file, up to a place in the header of its last section or in one of the
properties of that. -/
inductive SceneUpTo : List Lexeme → Span → Prop
  | last {before ts : List Lexeme} {opened : Span} :
      IsTrivia before → SectionUpTo ts opened → SceneUpTo (before ++ ts) opened
  | more {before ts rest : List Lexeme} {s : Section} {opened : Span} :
      IsTrivia before → SectionForm ts s → (EndsInWord s → Apart rest) → SceneUpTo rest opened →
      SceneUpTo (before ++ ts ++ rest) opened

/-- Induction on a value that breaks off. The unfinished values in it come with what holds of them
by induction, wherever in a list or an entry they stand. -/
@[elab_as_elim]
theorem ValueUpTo.induction
    {motive : (ts : List Lexeme) → (opened : Option Span) → ValueUpTo ts opened → Prop}
    (stringName : ∀ {a}, motive [⟨.punct .ampersand, a⟩] (some a) .stringName)
    (nodePath : ∀ {a}, motive [⟨.punct .caret, a⟩] (some a) .nodePath)
    (array : ∀ {a ts opened} (h : ListedUpTo ValueForm ValueUpTo ts opened),
      ListedUpTo ValueForm (fun us opened => ∃ hv, motive us opened hv) ts opened →
      motive (⟨.punct .leftBracket, a⟩ :: ts) (some (opened.getD a)) (.array h))
    (dict : ∀ {a ts opened}
      (h : ListedUpTo (Entry ValueForm) (EntryUpTo ValueForm ValueUpTo) ts opened),
      ListedUpTo (Entry ValueForm)
        (EntryUpTo ValueForm fun us opened => ∃ hv, motive us opened hv) ts opened →
      motive (⟨.punct .leftBrace, a⟩ :: ts) (some (opened.getD a)) (.dict h))
    (call : ∀ {a p w ts opened}
      (h : ListedUpTo (Argument ValueForm) (EntryUpTo ValueForm ValueUpTo) ts opened),
      ListedUpTo (Argument ValueForm)
        (EntryUpTo ValueForm fun us opened => ∃ hv, motive us opened hv) ts opened →
      motive (⟨.word w, a⟩ :: ⟨.punct .leftParen, p⟩ :: ts) (some (opened.getD a)) (.call h))
    (typeDue : ∀ {a o w before} (hbefore : IsTrivia before),
      motive (⟨.word w, a⟩ :: ⟨.punct .leftBracket, o⟩ :: before) (some a) (.typeDue hbefore))
    (type : ∀ {a o w before us opened} (hbefore : IsTrivia before) (h : ValueUpTo us opened),
      motive us opened h →
      motive (⟨.word w, a⟩ :: ⟨.punct .leftBracket, o⟩ :: (before ++ us)) (some (opened.getD a))
        (.type hbefore h))
    (closeType : ∀ {a o w before us after param} (hbefore : IsTrivia before)
      (hparam : ValueForm us param) (hafter : IsTrivia after),
      motive (⟨.word w, a⟩ :: ⟨.punct .leftBracket, o⟩ :: (before ++ us ++ after)) (some a)
        (.closeType hbefore hparam hafter))
    (openArgs : ∀ {a o c w before us after param} (hbefore : IsTrivia before)
      (hparam : ValueForm us param) (hafter : IsTrivia after),
      motive (⟨.word w, a⟩ :: ⟨.punct .leftBracket, o⟩ :: (before ++ us ++ after ++
        [⟨.punct .rightBracket, c⟩])) (some a) (.openArgs hbefore hparam hafter))
    (typedCall : ∀ {a o c p w before us after ts param opened} (hbefore : IsTrivia before)
      (hparam : ValueForm us param) (hafter : IsTrivia after)
      (h : ListedUpTo (Argument ValueForm) (EntryUpTo ValueForm ValueUpTo) ts opened),
      ListedUpTo (Argument ValueForm)
        (EntryUpTo ValueForm fun us opened => ∃ hv, motive us opened hv) ts opened →
      motive (⟨.word w, a⟩ :: ⟨.punct .leftBracket, o⟩ :: (before ++ us ++ after ++
        ⟨.punct .rightBracket, c⟩ :: ⟨.punct .leftParen, p⟩ :: ts)) (some (opened.getD a))
        (.typedCall hbefore hparam hafter h))
    {ts : List Lexeme} {opened : Option Span} (h : ValueUpTo ts opened) : motive ts opened h := by
  refine @ValueUpTo.rec motive
    (fun ts opened _ =>
      ListedUpTo ValueForm (fun us opened => ∃ hv, motive us opened hv) ts opened)
    (fun ts opened _ => ListedUpTo (Entry ValueForm)
      (EntryUpTo ValueForm fun us opened => ∃ hv, motive us opened hv) ts opened)
    (fun ts opened _ => ListedUpTo (Argument ValueForm)
      (EntryUpTo ValueForm fun us opened => ∃ hv, motive us opened hv) ts opened)
    (fun ts opened _ => EntryUpTo ValueForm (fun us opened => ∃ hv, motive us opened hv) ts opened)
    stringName nodePath array dict call typeDue type closeType openArgs typedCall
    .due (fun hbefore h ih => .within hbefore ⟨h, ih⟩) .after
    (fun hbefore hx hafter _ ih => .more hbefore hx hafter ih)
    .due (fun hbefore _ ih => .within hbefore ih) .after
    (fun hbefore hx hafter _ ih => .more hbefore hx hafter ih)
    .due (fun hbefore _ ih => .within hbefore ih) .after
    (fun hbefore hx hafter _ ih => .more hbefore hx hafter ih)
    (fun h ih => .key ⟨h, ih⟩) .colon .due
    (fun hkey hbefore hafter h ih => .value hkey hbefore hafter ⟨h, ih⟩) ts opened h

/-! ## The first token of what is open -/

/-- The construct that is named starts at one of these tokens. -/
def StartsIn (ts : List Lexeme) (opened : Option Span) : Prop :=
  ∀ start ∈ opened, ∃ l ∈ ts, l.span = start

theorem startsIn_none {ts : List Lexeme} : StartsIn ts none := nofun

theorem StartsIn.mono {ts us : List Lexeme} {opened : Option Span} (h : StartsIn ts opened)
    (hsub : ts ⊆ us) : StartsIn us opened := by
  intro start hstart
  obtain ⟨l, hl, hspan⟩ := h start hstart
  exact ⟨l, hsub hl, hspan⟩

/-- A construct around another starts at its own first token. -/
theorem StartsIn.cons {ts us : List Lexeme} {opened : Option Span} (l : Lexeme)
    (h : StartsIn ts opened) (hsub : ts ⊆ us) :
    StartsIn (l :: us) (some (opened.getD l.span)) := by
  cases opened with
  | none => exact fun start hstart => ⟨l, List.mem_cons_self, Option.some.inj hstart⟩
  | some a => exact h.mono fun m hm => List.mem_cons_of_mem l (hsub hm)

section

variable {form : List Lexeme → Value → Prop} {upTo : List Lexeme → Option Span → Prop}
  (hupTo : ∀ {ts opened}, upTo ts opened → StartsIn ts opened)
  {ts : List Lexeme} {opened : Option Span} {start : Span}
include hupTo

theorem ListedUpTo.startsIn {α : Type} {form : List Lexeme → α → Prop}
    (h : ListedUpTo form upTo ts opened) : StartsIn ts opened := by
  induction h with
  | due | after => exact startsIn_none
  | within _ hopened => exact (hupTo hopened).mono fun l hl => by simp [hl]
  | more _ _ _ _ ih => exact ih.mono fun l hl => by simp [hl]

theorem EntryUpTo.startsIn (h : EntryUpTo form upTo ts opened) : StartsIn ts opened := by
  cases h with
  | colon | due => exact startsIn_none
  | key hopened => exact hupTo hopened
  | value _ _ _ hopened => exact (hupTo hopened).mono fun l hl => by simp [hl]

omit hupTo

theorem ValueUpTo.startsIn (h : ValueUpTo ts opened) : StartsIn ts opened := by
  induction h using ValueUpTo.induction with
  | stringName | nodePath => exact startsIn_none.cons _ (List.nil_subset _)
  | array _ hitems =>
    exact (hitems.startsIn fun ⟨_, h⟩ => h).cons _ (List.Subset.refl _)
  | dict _ hentries =>
    exact (hentries.startsIn (EntryUpTo.startsIn fun ⟨_, h⟩ => h)).cons _ (List.Subset.refl _)
  | call _ hargs =>
    exact (hargs.startsIn (EntryUpTo.startsIn fun ⟨_, h⟩ => h)).cons _ fun l hl => by simp [hl]
  | typeDue | closeType | openArgs => exact startsIn_none.cons _ (List.nil_subset _)
  | type _ _ ih => exact ih.cons _ fun l hl => by simp [hl]
  | typedCall _ _ _ _ hargs =>
    exact (hargs.startsIn (EntryUpTo.startsIn fun ⟨_, h⟩ => h)).cons _ fun l hl => by simp [hl]

theorem PropertyUpTo.startsIn (h : PropertyUpTo ts start) : StartsIn ts (some start) := by
  cases h with
  | equals | due => exact startsIn_none.cons _ (List.nil_subset _)
  | value _ _ hopened => exact hopened.startsIn.cons _ fun l hl => by simp [hl]

theorem SectionUpTo.startsIn (h : SectionUpTo ts start) : StartsIn ts (some start) := by
  cases h with
  | tag | header => exact startsIn_none.cons _ (List.nil_subset _)
  | inHeader _ _ _ hopened => exact hopened.startsIn.mono fun l hl => by simp [hl]
  | inBody _ _ hopened => exact hopened.startsIn.mono fun l hl => by simp [hl]

theorem SceneUpTo.startsIn (h : SceneUpTo ts start) : StartsIn ts (some start) := by
  induction h with
  | last _ hopened => exact hopened.startsIn.mono fun l hl => by simp [hl]
  | more _ _ _ _ ih => exact ih.mono fun l hl => by simp [hl]

end

/-! ## Cutting tokens in two -/

/-- Tokens that are none, or all of a construct, or the beginning of one. -/
def Begins {α : Type} (form : List Lexeme → α → Prop) (upTo : List Lexeme → Option Span → Prop)
    (ts : List Lexeme) : Prop :=
  ts = [] ∨ (∃ x, form ts x) ∨ ∃ opened, upTo ts opened

/-- Wherever the tokens of a construct are cut, what comes before the cut is the beginning of
one. -/
def Cuts {α : Type} (form : List Lexeme → α → Prop) (upTo : List Lexeme → Option Span → Prop)
    (ts : List Lexeme) : Prop :=
  ∀ p, p <+: ts → Begins form upTo p

theorem prefix_append_iff {α : Type} {p xs ys : List α} :
    p <+: xs ++ ys ↔ p <+: xs ∨ ∃ q, p = xs ++ q ∧ q <+: ys := by
  constructor
  · rintro ⟨s, hs⟩
    rcases List.append_eq_append_iff.mp hs with ⟨q, rfl, -⟩ | ⟨q, rfl, rfl⟩
    · exact .inl (List.prefix_append p q)
    · exact .inr ⟨q, rfl, List.prefix_append q s⟩
  · rintro (h | ⟨q, rfl, h⟩)
    · exact h.trans (List.prefix_append xs ys)
    · exact (List.prefix_append_right_inj xs).mpr h

/-- Two lists one after another are cut within the first or within the second. -/
@[elab_as_elim]
theorem prefix_append_cases {α : Type} {xs ys : List α}
    {motive : (p : List α) → p <+: xs ++ ys → Prop}
    (left : ∀ p (h : p <+: xs), motive p (prefix_append_iff.mpr (.inl h)))
    (right : ∀ q (h : q <+: ys), motive (xs ++ q) (prefix_append_iff.mpr (.inr ⟨q, rfl, h⟩)))
    {p : List α} (h : p <+: xs ++ ys) : motive p h := by
  rcases prefix_append_iff.mp h with hp | ⟨q, rfl, hq⟩
  · exact left p hp
  · exact right q hq

/-- A list is cut before its first member or behind it. -/
@[elab_as_elim]
theorem prefix_cons_cases {α : Type} {x : α} {xs : List α}
    {motive : (p : List α) → p <+: x :: xs → Prop} (nil : motive [] List.nil_prefix)
    (cons : ∀ q (h : q <+: xs), motive (x :: q) (List.cons_prefix_cons.mpr ⟨rfl, h⟩))
    {p : List α} (h : p <+: x :: xs) : motive p h := by
  rcases List.prefix_cons_iff.mp h with rfl | ⟨q, rfl, hq⟩
  · exact nil
  · exact cons q hq

theorem IsTrivia.cut {p ts : List Lexeme} (h : IsTrivia ts) (hp : p <+: ts) : IsTrivia p :=
  fun l hl => h l (hp.subset hl)

/-- A construct with trivia around it is cut in the trivia before it, within it or in the trivia
after it. -/
theorem gap_cut {α : Type} {form : List Lexeme → α → Prop}
    {upTo : List Lexeme → Option Span → Prop} {before ts after p : List Lexeme} {x : α}
    (hbefore : IsTrivia before) (hx : form ts x) (hcuts : Cuts form upTo ts)
    (hafter : IsTrivia after) (hp : p <+: before ++ ts ++ after) :
    IsTrivia p ∨ (∃ us opened, p = before ++ us ∧ upTo us opened) ∨
      ∃ us y rest, p = before ++ us ++ rest ∧ form us y ∧ IsTrivia rest := by
  cases hp using prefix_append_cases with
  | left p hp =>
    cases hp using prefix_append_cases with
    | left p hp => exact .inl (hbefore.cut hp)
    | right q hq =>
      rcases hcuts q hq with rfl | ⟨y, hy⟩ | ⟨opened, hopened⟩
      · exact .inl (by simpa using hbefore)
      · exact .inr (.inr ⟨q, y, [], by simp, hy, isTrivia_nil⟩)
      · exact .inr (.inl ⟨q, opened, rfl, hopened⟩)
  | right q hq => exact .inr (.inr ⟨ts, x, q, rfl, hx, hafter.cut hq⟩)

section

variable {form form' : List Lexeme → Value → Prop} {upTo : List Lexeme → Option Span → Prop}
  {p ts : List Lexeme}

theorem Listed.cut {α : Type} {form form' : List Lexeme → α → Prop}
    (hform : ∀ {ts x}, form' ts x → form ts x ∧ Cuts form upTo ts) {xs : List α}
    (h : Listed form' ts xs) (hp : p <+: ts) : ∃ opened, ListedUpTo form upTo p opened := by
  -- Up to the end of an item a list with one item and a list with more are cut alike.
  have hitem : ∀ {before ts after p : List Lexeme} {x : α}, IsTrivia before → form' ts x →
      IsTrivia after → p <+: before ++ ts ++ after → ∃ opened, ListedUpTo form upTo p opened := by
    intro before ts after p x hbefore hx hafter hp
    rcases gap_cut hbefore (hform hx).1 (hform hx).2 hafter hp with
      hp | ⟨us, opened, rfl, hopened⟩ | ⟨us, y, rest, rfl, hy, hrest⟩
    · exact ⟨_, .due hp⟩
    · exact ⟨opened, .within hbefore hopened⟩
    · exact ⟨_, .after hbefore hy hrest⟩
  induction h generalizing p with
  | none hts => exact ⟨_, .due (hts.cut hp)⟩
  | one hbefore hx hafter => exact hitem hbefore hx hafter hp
  | more hbefore hx hafter _ ih =>
    cases hp using prefix_append_cases with
    | left p hp => exact hitem hbefore hx hafter hp
    | right q hq =>
      cases hq using prefix_cons_cases with
      | nil => exact hitem hbefore hx hafter (by simp)
      | cons q hq =>
        obtain ⟨opened, hopened⟩ := ih hq
        exact ⟨opened, .more hbefore (hform hx).1 hafter hopened⟩

/-- A key, a colon and a value are cut before the value or within it. -/
theorem pair_cut {ks before after vs : List Lexeme} {colon : Span} {key : Value}
    (hkey : form ks key) (hkeyCuts : Cuts form upTo ks) (hbefore : IsTrivia before)
    (hafter : IsTrivia after) (hvalueCuts : Cuts form upTo vs)
    (hp : p <+: ks ++ before ++ ⟨.punct .colon, colon⟩ :: (after ++ vs)) :
    p = [] ∨
      (∃ q v, p = ks ++ before ++ ⟨.punct .colon, colon⟩ :: (after ++ q) ∧ form q v) ∨
      ∃ opened, EntryUpTo form upTo p opened := by
  cases hp using prefix_append_cases with
  | left p hp =>
    cases hp using prefix_append_cases with
    | left p hp =>
      rcases hkeyCuts p hp with rfl | ⟨key', hkey'⟩ | ⟨opened, hopened⟩
      · exact .inl rfl
      · exact .inr (.inr ⟨_, by simpa using @EntryUpTo.colon form upTo _ _ _ hkey' isTrivia_nil⟩)
      · exact .inr (.inr ⟨opened, .key hopened⟩)
    | right q hq => exact .inr (.inr ⟨_, .colon hkey (hbefore.cut hq)⟩)
  | right q hq =>
    cases hq using prefix_cons_cases with
    | nil => exact .inr (.inr ⟨_, by simpa using EntryUpTo.colon hkey hbefore⟩)
    | cons q hq =>
      cases hq using prefix_append_cases with
      | left q hq => exact .inr (.inr ⟨_, .due hkey hbefore (hafter.cut hq)⟩)
      | right q hq =>
        rcases hvalueCuts q hq with rfl | ⟨v, hv⟩ | ⟨opened, hopened⟩
        · exact .inr (.inr ⟨_, by simpa using EntryUpTo.due hkey hbefore hafter⟩)
        · exact .inr (.inl ⟨q, v, rfl, hv⟩)
        · exact .inr (.inr ⟨opened, .value hkey hbefore hafter hopened⟩)

theorem Entry.cut (hform : ∀ {ts v}, form' ts v → form ts v ∧ Cuts form upTo ts)
    {entry : Value × Value} (h : Entry form' ts entry) :
    Entry form ts entry ∧ Cuts (Entry form) (EntryUpTo form upTo) ts := by
  obtain ⟨hkey, hbefore, hafter, hvalue⟩ := h
  obtain ⟨hkey, hkeyCuts⟩ := hform hkey
  obtain ⟨hvalue, hvalueCuts⟩ := hform hvalue
  refine ⟨.mk hkey hbefore hafter hvalue, fun p hp => ?_⟩
  rcases pair_cut hkey hkeyCuts hbefore hafter hvalueCuts hp with
    rfl | ⟨q, v, rfl, hv⟩ | hopened
  · exact .inl rfl
  · exact .inr (.inl ⟨_, .mk hkey hbefore hafter hv⟩)
  · exact .inr (.inr hopened)

theorem Argument.cut (hform : ∀ {ts v}, form' ts v → form ts v ∧ Cuts form upTo ts) {v : Value}
    (h : Argument form' ts v) :
    Argument form ts v ∧ Cuts (Argument form) (EntryUpTo form upTo) ts := by
  cases h with
  | value hv =>
    obtain ⟨hv, hcuts⟩ := hform hv
    refine ⟨.value hv, fun p hp => ?_⟩
    rcases hcuts p hp with rfl | ⟨v', hv'⟩ | ⟨opened, hopened⟩
    · exact .inl rfl
    · exact .inr (.inl ⟨v', .value hv'⟩)
    · exact .inr (.inr ⟨opened, .key hopened⟩)
  | pair hkey hbefore hafter hvalue =>
    obtain ⟨hkey, hkeyCuts⟩ := hform hkey
    obtain ⟨hvalue, hvalueCuts⟩ := hform hvalue
    refine ⟨.pair hkey hbefore hafter hvalue, fun p hp => ?_⟩
    rcases pair_cut hkey hkeyCuts hbefore hafter hvalueCuts hp with
      rfl | ⟨q, v, rfl, hv⟩ | hopened
    · exact .inl rfl
    · exact .inr (.inl ⟨_, .pair hkey hbefore hafter hv⟩)
    · exact .inr (.inr hopened)

end

theorem ValueForm.cut {ts : List Lexeme} {v : Value} (h : ValueForm ts v) :
    Cuts ValueForm ValueUpTo ts := by
  induction h using ValueForm.induction with
  | string | number | word =>
    intro p hp
    cases hp using prefix_cons_cases with
    | nil => exact .inl rfl
    | cons q hq =>
      obtain rfl := List.prefix_nil.mp hq
      exact .inr (.inl ⟨_, by constructor⟩)
  | stringName | nodePath =>
    intro p hp
    cases hp using prefix_cons_cases with
    | nil => exact .inl rfl
    | cons q hq =>
      cases hq using prefix_cons_cases with
      | nil => exact .inr (.inr ⟨_, by constructor⟩)
      | cons q hq =>
        obtain rfl := List.prefix_nil.mp hq
        exact .inr (.inl ⟨_, by constructor⟩)
  | array hitems ih =>
    intro p hp
    cases hp using prefix_cons_cases with
    | nil => exact .inl rfl
    | cons q hq =>
      rcases List.prefix_concat_iff.mp hq with rfl | hq
      · exact .inr (.inl ⟨_, .array hitems⟩)
      · obtain ⟨opened, hopened⟩ := ih.cut (fun ⟨hv, hcuts⟩ => ⟨hv, hcuts⟩) hq
        exact .inr (.inr ⟨_, .array hopened⟩)
  | dict hentries ih =>
    intro p hp
    cases hp using prefix_cons_cases with
    | nil => exact .inl rfl
    | cons q hq =>
      rcases List.prefix_concat_iff.mp hq with rfl | hq
      · exact .inr (.inl ⟨_, .dict hentries⟩)
      · obtain ⟨opened, hopened⟩ := ih.cut (Entry.cut fun ⟨hv, hcuts⟩ => ⟨hv, hcuts⟩) hq
        exact .inr (.inr ⟨_, .dict hopened⟩)
  | call hargs ih =>
    intro p hp
    cases hp using prefix_cons_cases with
    | nil => exact .inl rfl
    | cons q hq =>
      cases hq using prefix_cons_cases with
      | nil => exact .inr (.inl ⟨_, .word⟩)
      | cons q hq =>
        rcases List.prefix_concat_iff.mp hq with rfl | hq
        · exact .inr (.inl ⟨_, .call hargs⟩)
        · obtain ⟨opened, hopened⟩ := ih.cut (Argument.cut fun ⟨hv, hcuts⟩ => ⟨hv, hcuts⟩) hq
          exact .inr (.inr ⟨_, .call hopened⟩)
  | typedCall hbefore hparam hafter hargs ihparam ih =>
    intro p hp
    cases hp using prefix_cons_cases with
    | nil => exact .inl rfl
    | cons q hq =>
      cases hq using prefix_cons_cases with
      | nil => exact .inr (.inl ⟨_, .word⟩)
      | cons q hq =>
        right
        cases hq using prefix_append_cases with
        | left q hq =>
          right
          rcases gap_cut hbefore hparam ihparam hafter hq with
            hq | ⟨us, opened, rfl, hopened⟩ | ⟨us, param, rest, rfl, hparam, hrest⟩
          · exact ⟨_, .typeDue hq⟩
          · exact ⟨_, .type hbefore hopened⟩
          · exact ⟨_, .closeType hbefore hparam hrest⟩
        | right q hq =>
          cases hq using prefix_cons_cases with
          | nil => exact .inr ⟨_, by simpa using ValueUpTo.closeType hbefore hparam hafter⟩
          | cons q hq =>
            cases hq using prefix_cons_cases with
            | nil => exact .inr ⟨_, .openArgs hbefore hparam hafter⟩
            | cons q hq =>
              rcases List.prefix_concat_iff.mp hq with rfl | hq
              · exact .inl ⟨_, .typedCall hbefore hparam hafter hargs⟩
              · obtain ⟨opened, hopened⟩ :=
                  ih.cut (Argument.cut fun ⟨hv, hcuts⟩ => ⟨hv, hcuts⟩) hq
                exact .inr ⟨_, .typedCall hbefore hparam hafter hopened⟩

theorem PropertyForm.cut {p ts : List Lexeme} {property : Property} (h : PropertyForm ts property)
    (hp : p <+: ts) :
    p = [] ∨ (∃ property', PropertyForm p property') ∨ ∃ opened, PropertyUpTo p opened := by
  obtain ⟨hbefore, hafter, hv⟩ := h
  cases hp using prefix_cons_cases with
  | nil => exact .inl rfl
  | cons q hq =>
    right
    cases hq using prefix_append_cases with
    | left q hq => exact .inr ⟨_, .equals (hbefore.cut hq)⟩
    | right q hq =>
      cases hq using prefix_cons_cases with
      | nil => exact .inr ⟨_, .equals (by simpa using hbefore)⟩
      | cons q hq =>
        cases hq using prefix_append_cases with
        | left q hq => exact .inr ⟨_, .due hbefore (hafter.cut hq)⟩
        | right q hq =>
          rcases hv.cut q hq with rfl | ⟨v', hv'⟩ | ⟨opened, hopened⟩
          · exact .inr ⟨_, .due hbefore (by simpa using hafter)⟩
          · exact .inl ⟨_, .mk hbefore hafter hv'⟩
          · exact .inr ⟨_, .value hbefore hafter hopened⟩

/-- Properties are cut between two of them or within one. -/
theorem Properties.cut {p ts : List Lexeme} {properties : List Property}
    (h : Properties ts properties) (hp : p <+: ts) :
    ∃ us properties' between, Properties us properties' ∧ IsTrivia between ∧
      (p = us ++ between ∨
        ∃ vs opened, p = us ++ between ++ vs ∧ PropertyUpTo vs opened) := by
  induction h generalizing p with
  | nil =>
    obtain rfl := List.prefix_nil.mp hp
    exact ⟨[], [], [], .nil, isTrivia_nil, .inl rfl⟩
  | cons hbefore hproperty hrest ih =>
    cases hp using prefix_append_cases with
    | left p hp =>
      cases hp using prefix_append_cases with
      | left p hp => exact ⟨[], [], p, .nil, hbefore.cut hp, .inl rfl⟩
      | right q hq =>
        rcases hproperty.cut hq with rfl | ⟨property', hproperty'⟩ | ⟨opened, hopened⟩
        · exact ⟨[], [], _, .nil, hbefore, .inl (by simp)⟩
        · exact ⟨_, _, [], .cons hbefore hproperty' .nil, isTrivia_nil, .inl (by simp)⟩
        · exact ⟨[], [], _, .nil, hbefore, .inr ⟨q, opened, rfl, hopened⟩⟩
    | right q hq =>
      obtain ⟨us, properties', between, hus, hbetween, hq⟩ := ih hq
      refine ⟨_, _, between, .cons hbefore hproperty hus, hbetween, ?_⟩
      rcases hq with rfl | ⟨vs, opened, rfl, hopened⟩
      · exact .inl (by simp)
      · exact .inr ⟨vs, opened, by simp, hopened⟩

theorem SectionForm.cut {p ts : List Lexeme} {s : Section} (h : SectionForm ts s)
    (hp : p <+: ts) :
    p = [] ∨ (∃ us s' after, p = us ++ after ∧ SectionForm us s' ∧ IsTrivia after) ∨
      ∃ opened, SectionUpTo p opened := by
  obtain @⟨a, b, c, tag, _, _, _, _, _, _, hbefore, hattributes, hafter, hproperties⟩ := h
  cases hp using prefix_cons_cases with
  | nil => exact .inl rfl
  | cons q hq =>
    right
    cases hq using prefix_append_cases with
    | left q hq => exact .inr ⟨_, .tag (hbefore.cut hq)⟩
    | right q hq =>
      cases hq using prefix_cons_cases with
      | nil => exact .inr ⟨_, .tag (by simpa using hbefore)⟩
      | cons q hq =>
        cases hq using prefix_append_cases with
        | left q hq =>
          right
          cases hq using prefix_append_cases with
          | left q hq =>
            obtain ⟨us, attributes', between, hus, hbetween, rfl | ⟨vs, opened, rfl, hopened⟩⟩ :=
              hattributes.cut hq
            · exact ⟨_, .header hbefore hus hbetween⟩
            · exact ⟨_, .inHeader hbefore hus hbetween hopened⟩
          | right q hq => exact ⟨_, .header hbefore hattributes (hafter.cut hq)⟩
        | right q hq =>
          cases hq using prefix_cons_cases with
          | nil => exact .inr ⟨_, by simpa using SectionUpTo.header hbefore hattributes hafter⟩
          | cons q hq =>
            obtain ⟨us, properties', between, hus, hbetween, hq⟩ := hproperties.cut hq
            have hsection := @SectionForm.mk a b c tag _ _ _ _ _ _ hbefore hattributes hafter hus
            rcases hq with rfl | ⟨vs, opened, rfl, hopened⟩
            · exact .inl ⟨_, _, between, by simp, hsection, hbetween⟩
            · exact .inr ⟨opened, by simpa using SectionUpTo.inBody hsection hbetween hopened⟩

theorem Apart.cut {p ts : List Lexeme} (h : Apart ts) (hp : p <+: ts) : Apart p := by
  obtain ⟨us, rfl⟩ := hp
  cases p with
  | nil => simp [Apart]
  | cons l p => exact h

/-- Wherever a source is cut in two, the part before the cut is a source of its own or one that
breaks off. -/
theorem SceneForm.cut {p ts : List Lexeme} {sections : List Section} (h : SceneForm ts sections)
    (hp : p <+: ts) :
    (∃ sections', SceneForm p sections') ∨ ∃ opened, SceneUpTo p opened := by
  induction h generalizing p with
  | none hts => exact .inl ⟨[], .none (hts.cut hp)⟩
  | more hbefore hs hfollowed hrest ih =>
    cases hp using prefix_append_cases with
    | left p hp =>
      cases hp using prefix_append_cases with
      | left p hp => exact .inl ⟨[], .none (hbefore.cut hp)⟩
      | right q hq =>
        rcases hs.cut hq with rfl | ⟨us, s', after, rfl, hus, hafter⟩ | ⟨opened, hopened⟩
        · exact .inl ⟨[], .none (by simpa using hbefore)⟩
        · have hscene : SceneForm (_ ++ us ++ after) [s'] :=
            .more hbefore hus (fun _ => hafter.apart) (.none hafter)
          exact .inl ⟨_, by simpa using hscene⟩
        · exact .inr ⟨opened, .last hbefore hopened⟩
    | right q hq =>
      have hapart := fun hword => (hfollowed hword).cut hq
      rcases ih hq with ⟨sections', hsections'⟩ | ⟨opened, hopened⟩
      · exact .inl ⟨_, .more hbefore hs hapart hsections'⟩
      · exact .inr ⟨opened, .more hbefore hs hapart hopened⟩

end SceneDiagram.Grammar
