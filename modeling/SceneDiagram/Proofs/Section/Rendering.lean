import SceneDiagram.Proofs.Section.Outline
import SceneDiagram.Proofs.Section.Recognition
import SceneDiagram.Proofs.Section.Relocation
import SceneDiagram.Proofs.Token.Delimited

/-!
# Values written out

The line that a value is written out as is read as the value again, as long as no string in it has
a quote or a backslash (`Value.render_rereads`): strings are written without escapes. Words and
numbers keep their class because the line has a delimiter after each of them; lists lose a trailing
comma, and the blanks and line ends between tokens are those of the line, so spans differ.
-/

namespace SceneDiagram

open Text Grammar

/-! ## The line of a value -/

namespace Value

/-- The characters of the line of a value. -/
def line (v : Value) : List Char := v.render.toList

/-- The characters of the line of an entry. -/
def entryLine (e : Value × Value) : List Char := e.1.line ++ ':' :: ' ' :: e.2.line

/-- The texts of items with commas between them, and a given text before each item: `lead` before
the first, a blank before the others. -/
def row {α : Type} (text : α → List Char) (lead : List Char) : List α → List Char
  | [] => []
  | [x] => lead ++ text x
  | x :: y :: ys => lead ++ text x ++ ',' :: row text [' '] (y :: ys)

theorem row_lead {α : Type} (text : α → List Char) (lead : List Char) (x : α) (xs : List α) :
    row text lead (x :: xs) = lead ++ row text [] (x :: xs) := by
  cases xs <;> simp [row]

theorem toList_renderItems (vs : List Value) : (renderItems vs).toList = row line [] vs := by
  induction vs with
  | nil => rfl
  | cons v vs ih =>
    cases vs with
    | nil => rfl
    | cons w ws =>
      rw [row, row_lead, ← ih]
      simp [renderItems, line]

theorem toList_renderEntries (es : List (Value × Value)) :
    (renderEntries es).toList = row entryLine [' '] es := by
  induction es with
  | nil => rfl
  | cons e es ih =>
    cases es with
    | nil => simp [renderEntries, row, entryLine, line]
    | cons e' es =>
      rw [row, ← ih]
      simp [renderEntries, entryLine, line]

/-- The line of a value, piece by piece. -/
theorem line_eq (v : Value) :
    v.line =
      match v with
      | string _ s => '"' :: (s.toList ++ ['"'])
      | stringName _ s => '&' :: '"' :: (s.toList ++ ['"'])
      | nodePath _ s => '^' :: '"' :: (s.toList ++ ['"'])
      | number _ n => n.toList
      | word _ w => w.toList
      | call _ name none args => name.toList ++ '(' :: (row line [] args ++ [')'])
      | call _ name (some param) args =>
        name.toList ++ ('[' :: (param.line ++ [']']) ++ '(' :: (row line [] args ++ [')']))
      | array _ items => '[' :: (row line [] items ++ [']'])
      | pair _ key entry => entryLine (key, entry)
      | dict _ entries => '\x7b' :: (row entryLine [' '] entries ++ [' ', '\x7d']) := by
  cases v with
  | call _ name typeParam args =>
    cases typeParam <;> simp [line, render, renderTypeParam, toList_renderItems]
  | _ => simp [line, render, toList_renderItems, toList_renderEntries, entryLine]

theorem unplacedItems_eq_map (vs : List Value) : unplacedItems vs = vs.map unplaced := by
  induction vs with
  | nil => rfl
  | cons v vs ih => rw [unplacedItems, ih, List.map_cons]

/-- An entry without places. -/
def unplacedEntry (e : Value × Value) : Value × Value := (e.1.unplaced, e.2.unplaced)

theorem unplacedEntries_eq_map (es : List (Value × Value)) :
    unplacedEntries es = es.map unplacedEntry := by
  induction es with
  | nil => rfl
  | cons e es ih => rw [unplacedEntries, ih, List.map_cons, unplacedEntry]

/-- No string in a value has a quote or a backslash. -/
def IsPlain (v : Value) : Prop :=
  ∀ u : Value, u.Occurs v → ∀ s, u.asString? = some s → '"' ∉ s.toList ∧ '\\' ∉ s.toList

theorem IsPlain.child {c v : Value} (h : v.IsPlain) (hc : c ∈ v.children) : c.IsPlain :=
  fun u hu => h u (.child hc hu)

theorem IsPlain.contents {v : Value} {s : String} (h : v.IsPlain) (hs : v.asString? = some s) :
    '"' ∉ s.toList ∧ '\\' ∉ s.toList :=
  h v .self s hs

theorem isPlain_iff {v : Value} :
    v.IsPlain ↔ (∀ s, v.asString? = some s → '"' ∉ s.toList ∧ '\\' ∉ s.toList) ∧
      ∀ c ∈ v.children, c.IsPlain := by
  refine ⟨fun h => ⟨fun s hs => h.contents hs, fun c hc => h.child hc⟩, ?_⟩
  rintro ⟨hcontents, hchildren⟩ u hu
  cases hu with
  | self => exact hcontents
  | child hc hu => exact hchildren _ hc u hu

end Value

/-! ## Reading a line -/

namespace Grammar

open Value

/-- A text before a delimiter has tokens that stand for something again, apart from places. -/
def Rereads {α β : Type} (form : List Lexeme → α → Prop) (say : α → β) (text : List Char) (x : α) :
    Prop :=
  ∀ n rest, IsDelimiter rest → ∃ us y, Lexed rest n text us ∧ form us y ∧ say y = say x

/-- The tokens of a form do not start with trivia. -/
def StartsBare {α : Type} (form : List Lexeme → α → Prop) : Prop :=
  ∀ {us x}, form us x → ∃ l ∈ us.head?, l.token.isTrivia = false

variable {α β : Type} {form : List Lexeme → α → Prop} {say : α → β} {text : α → List Char}
  {lead rest cs : List Char} {n : Nat} {us ts : List Lexeme} {v : Value} {x : α} {xs : List α}

theorem startsBare_value : StartsBare ValueForm := fun h => h.bounds.1

theorem startsBare_append {us ts : List Lexeme}
    (h : ∃ l ∈ us.head?, l.token.isTrivia = false) :
    ∃ l ∈ (us ++ ts).head?, l.token.isTrivia = false := by
  obtain ⟨l, hl, htrivia⟩ := h
  exact ⟨l, by rw [List.head?_append, Option.mem_def.mp hl]; rfl, htrivia⟩

theorem startsBare_entry : StartsBare (Entry ValueForm) := by
  rintro us x ⟨hkey, -, -, -⟩
  rw [List.append_assoc]
  exact startsBare_append (startsBare_value hkey)

theorem startsBare_argument : StartsBare (Argument ValueForm) := by
  rintro us x (hv | ⟨hkey, -, -, -⟩)
  · exact startsBare_value hv
  · rw [List.append_assoc]
    exact startsBare_append (startsBare_value hkey)

/-! ### Forms without gaps -/

theorem Listed.last {before us : List Lexeme} (hbefore : IsTrivia before) (hx : form us x) :
    Listed form (before ++ us) [x] := by
  have h := Listed.one hbefore hx isTrivia_nil
  rwa [List.append_nil] at h

theorem Listed.next {before us rest : List Lexeme} {comma : Span} (hbefore : IsTrivia before)
    (hx : form us x) (hrest : Listed form rest xs) :
    Listed form (before ++ us ++ ⟨.punct .comma, comma⟩ :: rest) (x :: xs) := by
  have h := @Listed.more _ form before us [] rest comma x xs hbefore hx isTrivia_nil hrest
  rwa [List.append_nil] at h

theorem Listed.append_trivia {after : List Lexeme} (h : Listed form ts xs)
    (hafter : IsTrivia after) : Listed form (ts ++ after) xs := by
  induction h with
  | none hts => exact .none (isTrivia_append.mpr ⟨hts, hafter⟩)
  | one hbefore hx hts =>
    rw [List.append_assoc]
    exact .one hbefore hx (isTrivia_append.mpr ⟨hts, hafter⟩)
  | more hbefore hx hts _ ih =>
    rw [List.append_assoc, List.cons_append]
    exact .more hbefore hx hts ih

theorem Entry.spaced {ks vs : List Lexeme} {colon a : Span} {key value : Value}
    (hkey : ValueForm ks key) (hvalue : ValueForm vs value) :
    Entry ValueForm (ks ++ ⟨.punct .colon, colon⟩ :: ⟨.space, a⟩ :: vs) (key, value) := by
  have hblank : IsTrivia [⟨.space, a⟩] := by simp [Token.isTrivia]
  have h := @Entry.mk ValueForm ks [] _ vs colon key value hkey isTrivia_nil hblank hvalue
  rwa [List.append_nil] at h

/-- An entry stands for a pair among the arguments of a call. -/
theorem Entry.argument {key value : Value} (h : Entry ValueForm us (key, value)) :
    Argument ValueForm us (.pair (key.span.join value.span) key value) := by
  cases h with
  | mk hkey hbefore hafter hvalue => exact .pair hkey hbefore hafter hvalue

theorem ValueForm.dict_spaced {a b blank : Span} {entries : List (Value × Value)}
    (h : Listed (Entry ValueForm) ts entries) :
    ValueForm (⟨.punct .leftBrace, a⟩ :: (ts ++ [⟨.space, blank⟩, ⟨.punct .rightBrace, b⟩]))
      (.dict (a.join b) entries) := by
  have hspaced : Listed (Entry ValueForm) (ts ++ [⟨.space, blank⟩]) entries :=
    h.append_trivia (by simp [Token.isTrivia])
  have hform : ValueForm (⟨.punct .leftBrace, a⟩ :: (ts ++ [⟨.space, blank⟩] ++
      [⟨.punct .rightBrace, b⟩])) (.dict (a.join b) entries) := .dict hspaced
  rwa [List.append_assoc] at hform

theorem ValueForm.typedCall_bare {a b o c p : Span} {w : String} {param : Value}
    {args : List Value} (hparam : ValueForm us param)
    (hargs : Listed (Argument ValueForm) ts args) :
    ValueForm (⟨.word w, a⟩ ::
      (⟨.punct .leftBracket, o⟩ :: (us ++ [⟨.punct .rightBracket, c⟩]) ++
        ⟨.punct .leftParen, p⟩ :: (ts ++ [⟨.punct .rightParen, b⟩])))
      (.call ((a.join o).join b) w (some param) args) := by
  have hform := @ValueForm.typedCall a b o c p w [] us [] ts param args isTrivia_nil hparam
    isTrivia_nil hargs
  simpa using hform

/-! ### Rows -/

theorem exists_lead (hlead : lead = [] ∨ lead = [' ']) (h : Lexed rest (n + byteLength lead) cs us)
    (hhead : ∃ l ∈ us.head?, l.token.isTrivia = false) :
    ∃ before, IsTrivia before ∧ Lexed rest n (lead ++ cs) (before ++ us) := by
  rcases hlead with rfl | rfl
  · exact ⟨[], isTrivia_nil, h⟩
  · exact ⟨[_], by simp [Token.isTrivia], h.space hhead⟩

/-- A row of items is read as the items. -/
theorem rereads_row (hstart : StartsBare form) (hlead : lead = [] ∨ lead = [' '])
    (hxs : ∀ x ∈ xs, Rereads form say (text x) x) :
    Rereads (Listed form) (List.map say) (row text lead xs) xs := by
  induction xs generalizing lead with
  | nil => exact fun n rest _ => ⟨[], [], .nil, .none isTrivia_nil, rfl⟩
  | cons x xs ih =>
    intro n rest hrest
    have hx := hxs x (List.mem_cons_self ..)
    cases xs with
    | nil =>
      obtain ⟨us, y, hus, hy, hsay⟩ := hx (n + byteLength lead) rest hrest
      obtain ⟨before, hbefore, hlexed⟩ := exists_lead hlead hus (hstart hy)
      exact ⟨before ++ us, [y], hlexed, .last hbefore hy, by rw [List.map_singleton, hsay]; rfl⟩
    | cons x' xs =>
      have hcomma : IsDelimiter ((Punct.comma.char :: row text [' '] (x' :: xs)) ++ rest) :=
        isDelimiter_punct .comma (by decide)
      obtain ⟨us, y, hus, hy, hsay⟩ := hx (n + byteLength lead) _ hcomma
      obtain ⟨before, hbefore, hlexed⟩ := exists_lead hlead hus (hstart hy)
      obtain ⟨ts, ys, hts, hys, hsays⟩ := ih (.inr rfl)
        (fun z hz => hxs z (List.mem_cons_of_mem _ hz))
        (n + byteLength (lead ++ text x) + byteLength [Punct.comma.char]) rest hrest
      exact ⟨_, y :: ys, hlexed.append ((Lexed.punct .comma).append hts), .next hbefore hy hys,
        by rw [List.map_cons, List.map_cons, hsay, hsays]⟩

/-- A key and a value with a colon and a blank between them are read as the entry. -/
theorem rereads_entry {key entry : Value} (hkey : Rereads ValueForm unplaced key.line key)
    (hentry : Rereads ValueForm unplaced entry.line entry) :
    Rereads (Entry ValueForm) unplacedEntry (entryLine (key, entry)) (key, entry) := by
  intro n rest hrest
  obtain ⟨ks, key', hks, hkey', hsay⟩ := hkey n (':' :: ' ' :: entry.line ++ rest)
    isDelimiter_colon_space
  obtain ⟨vs, entry', hvs, hentry', hsay'⟩ := hentry
    (n + byteLength key.line + byteLength [Punct.colon.char] + byteLength [' ']) rest hrest
  have hvalue := hvs.space (startsBare_value hentry')
  have hlexed := hks.append ((Lexed.punct .colon).append hvalue)
  exact ⟨_, (key', entry'), hlexed, .spaced hkey' hentry',
    by rw [unplacedEntry, unplacedEntry, hsay, hsay']⟩

/-- A row between two marks is read as the items between the marks. -/
theorem exists_enclosed (p q : Punct) (hq : q ≠ .colon) (hstart : StartsBare form)
    (hxs : ∀ x ∈ xs, Rereads form say (text x) x) (n : Nat) (rest : List Char) :
    ∃ a us b ys, Lexed rest n (p.char :: (row text [] xs ++ [q.char]))
        (⟨.punct p, a⟩ :: (us ++ [⟨.punct q, b⟩])) ∧
      Listed form us ys ∧ ys.map say = xs.map say := by
  obtain ⟨us, ys, hus, hys, hsay⟩ := rereads_row hstart (.inl rfl) hxs (n + byteLength [p.char])
    (q.char :: rest) (isDelimiter_punct q hq)
  obtain ⟨a, b, hlexed⟩ := hus.enclose p q
  exact ⟨a, us, b, ys, hlexed, hys, hsay⟩

/-! ### Values -/

/-- The line of a value is read again if its tokens were read and its strings are plain. -/
def Rewritten (ts : List Lexeme) (v : Value) : Prop :=
  ∃ _ : ValueForm ts v,
    (∀ l ∈ ts, l.token.WasRead) → v.IsPlain → Rereads ValueForm unplaced v.line v

theorem Rewritten.of_part (h : Rewritten us v) (hpart : us <:+: ts)
    (hts : ∀ l ∈ ts, l.token.WasRead) (hv : v.IsPlain) :
    Rereads ValueForm unplaced v.line v :=
  h.2 (fun l hl => hts l (hpart.mem hl)) hv

theorem rereads_of_entry {key entry : Value} (h : Entry Rewritten ts (key, entry))
    (hts : ∀ l ∈ ts, l.token.WasRead) (hkey : key.IsPlain) (hentry : entry.IsPlain) :
    Rereads (Entry ValueForm) unplacedEntry (entryLine (key, entry)) (key, entry) := by
  obtain ⟨ks, hks, hkey'⟩ := h.exists_infix (.inl rfl)
  obtain ⟨vs, hvs, hentry'⟩ := h.exists_infix (.inr rfl)
  exact rereads_entry (hkey'.of_part hks hts hkey) (hentry'.of_part hvs hts hentry)

/-- An argument is a value, or a pair that is written as an entry. -/
theorem rereads_of_argument {c : Value} (h : Argument Rewritten ts c)
    (hts : ∀ l ∈ ts, l.token.WasRead) (hc : c.IsPlain) :
    Rereads (Argument ValueForm) unplaced c.line c := by
  cases h with
  | value hv =>
    intro n rest hrest
    obtain ⟨us, y, hus, hy, hsay⟩ := hv.of_part List.infix_rfl hts hc n rest hrest
    exact ⟨us, y, hus, .value hy, hsay⟩
  | pair hkey hbefore hafter hvalue =>
    intro n rest hrest
    obtain ⟨us, ⟨key', value'⟩, hus, hform, hsay⟩ :=
      rereads_of_entry (.mk hkey hbefore hafter hvalue) hts (hc.child (by simp [children]))
        (hc.child (by simp [children])) n rest hrest
    rw [line_eq]
    refine ⟨us, _, hus, hform.argument, ?_⟩
    rw [unplacedEntry, unplacedEntry, Prod.mk.injEq] at hsay
    rw [unplaced, unplaced, hsay.1, hsay.2]

/-- The arguments of a call are read again between its parentheses. -/
theorem exists_arguments {args : List Value} (h : Listed (Argument Rewritten) ts args)
    (hts : ∀ l ∈ ts, l.token.WasRead) (hargs : ∀ c ∈ args, c.IsPlain) (n : Nat)
    (rest : List Char) :
    ∃ a us b args', Lexed rest n ('(' :: (row line [] args ++ [')']))
        (⟨.punct .leftParen, a⟩ :: (us ++ [⟨.punct .rightParen, b⟩])) ∧
      Listed (Argument ValueForm) us args' ∧ unplacedItems args' = unplacedItems args := by
  have heach : ∀ c ∈ args, Rereads (Argument ValueForm) unplaced c.line c := by
    intro c hc
    obtain ⟨us, hus, harg⟩ := h.exists_infix hc
    exact rereads_of_argument harg (fun l hl => hts l (hus.mem hl)) (hargs c hc)
  simp only [unplacedItems_eq_map]
  exact exists_enclosed .leftParen .rightParen (by decide) startsBare_argument heach n rest

/-- The line of a value that was read from a source without escapes is read as the value. -/
theorem rewritten_of_valueForm (h : ValueForm ts v) : Rewritten ts v := by
  refine ⟨h, ?_⟩
  induction h using ValueForm.induction with
  | @string a s =>
    intro _ hplain n rest _
    obtain ⟨hquote, hbackslash⟩ := hplain.contents rfl
    rw [line_eq]
    exact ⟨_, _, .quoted hquote hbackslash, .string, rfl⟩
  | @stringName a b s =>
    intro _ hplain n rest _
    obtain ⟨hquote, hbackslash⟩ := hplain.contents rfl
    rw [line_eq]
    exact ⟨_, _, (Lexed.punct .ampersand).append (.quoted hquote hbackslash), .stringName, rfl⟩
  | @nodePath a b s =>
    intro _ hplain n rest _
    obtain ⟨hquote, hbackslash⟩ := hplain.contents rfl
    rw [line_eq]
    exact ⟨_, _, (Lexed.punct .caret).append (.quoted hquote hbackslash), .nodePath, rfl⟩
  | @number a m =>
    intro htokens _ n rest hrest
    exact ⟨_, _, .number (htokens _ (List.mem_singleton_self _)) hrest, .number, rfl⟩
  | @word a w =>
    intro htokens _ n rest hrest
    exact ⟨_, _, .word (htokens _ (List.mem_singleton_self _)) hrest, .word, rfl⟩
  | @array a b ts items hitems ih =>
    intro htokens hplain n rest _
    have heach : ∀ x ∈ items, Rereads ValueForm unplaced x.line x := by
      intro x hx
      obtain ⟨us, hus, hx'⟩ := Listed.exists_infix ih hx
      exact Rewritten.of_part hx' (hus.trans (infix_enclosed _ _)) htokens (hplain.child hx)
    obtain ⟨_, _, _, _, hlexed, hform, hsay⟩ :=
      exists_enclosed .leftBracket .rightBracket (by decide) startsBare_value heach n rest
    rw [line_eq]
    refine ⟨_, _, hlexed, .array hform, ?_⟩
    rw [unplaced, unplaced, unplacedItems_eq_map, unplacedItems_eq_map, hsay]
  | @dict a b ts entries hentries ih =>
    intro htokens hplain n rest _
    have heach : ∀ e ∈ entries, Rereads (Entry ValueForm) unplacedEntry (entryLine e) e := by
      rintro ⟨key, entry⟩ he
      obtain ⟨us, hus, he'⟩ := Listed.exists_infix ih he
      have hpart : ∀ c ∈ [key, entry], c.IsPlain :=
        fun c hc => hplain.child (List.mem_flatMap.mpr ⟨_, he, hc⟩)
      exact rereads_of_entry he' (fun l hl => htokens l (by simp [hus.mem hl]))
        (hpart key (by simp)) (hpart entry (by simp))
    obtain ⟨us, ys, hus, hys, hsay⟩ := rereads_row startsBare_entry (.inr rfl) heach
      (n + byteLength [Punct.leftBrace.char]) (' ' :: Punct.rightBrace.char :: rest)
      isDelimiter_space
    obtain ⟨_, _, hclose⟩ := Lexed.space_punct .rightBrace
      (n + byteLength [Punct.leftBrace.char] + byteLength (row entryLine [' '] entries)) rest
    rw [line_eq]
    refine ⟨_, _, (Lexed.punct .leftBrace).append (hus.append hclose), .dict_spaced hys, ?_⟩
    rw [unplaced, unplaced, unplacedEntries_eq_map, unplacedEntries_eq_map, hsay]
  | @call a b p w ts args hargs ih =>
    intro htokens hplain n rest _
    obtain ⟨_, _, _, _, hlexed, hform, hsay⟩ := exists_arguments ih
      (fun l hl => htokens l (by simp [hl])) (fun c hc => hplain.child hc)
      (n + byteLength w.toList) rest
    have hparen : IsDelimiter ('(' :: (row line [] args ++ [')']) ++ rest) :=
      isDelimiter_punct .leftParen (by decide)
    have hname := Lexed.word (n := n) (htokens ⟨.word w, a⟩ (by simp)) hparen
    rw [line_eq]
    refine ⟨_, _, hname.append hlexed, .call hform, ?_⟩
    rw [unplaced, unplaced, hsay]
  | @typedCall a b o c p w before us after ts param args hbefore hparam hafter hargs ihparam ih =>
    intro htokens hplain n rest _
    let parens := '(' :: (row line [] args ++ [')'])
    have hbracket : IsDelimiter ('[' :: (param.line ++ [']']) ++ parens ++ rest) :=
      isDelimiter_punct .leftBracket (by decide)
    have hname := Lexed.word (n := n) (htokens ⟨.word w, a⟩ (by simp)) hbracket
    obtain ⟨_, _, hlexed, hparam', hsay⟩ := ihparam (fun l hl => htokens l (by simp [hl]))
      (hplain.child (by simp [children]))
      (n + byteLength w.toList + byteLength [Punct.leftBracket.char])
      (Punct.rightBracket.char :: (parens ++ rest)) (isDelimiter_punct .rightBracket (by decide))
    obtain ⟨_, _, htype⟩ := hlexed.enclose .leftBracket .rightBracket
    obtain ⟨_, _, _, _, hargs', hform, hsays⟩ := exists_arguments ih
      (fun l hl => htokens l (by simp [hl])) (fun c hc => hplain.child (by simp [children, hc]))
      (n + byteLength w.toList + byteLength ('[' :: (param.line ++ [']']))) rest
    rw [line_eq]
    refine ⟨_, _, hname.append (htype.append hargs'), .typedCall_bare hparam' hform, ?_⟩
    rw [unplaced, unplaced, unplacedTypeParam, unplacedTypeParam, hsay, hsays]

end Grammar

/-- Whatever value occurs in a source, its line is read as the value again, as long as no string in
the value has a quote or a backslash. A pair, which only an argument list can hold, is not read on
its own. -/
theorem Value.render_rereads {source : String} {tokens : List Lexeme} {sections : List Section}
    {s : Section} {w v : Value} (htokens : tokenize source = .ok tokens)
    (hsections : Section.ofLexemes tokens = .ok sections) (hs : s ∈ sections) (hw : w ∈ s.values)
    (hv : v.Occurs w) (hpair : ∀ a key entry, v ≠ .pair a key entry) (hplain : v.IsPlain) :
    ∃ tokens' v', tokenize v.render = .ok tokens' ∧ Value.ofLexemes? tokens' = some v' ∧
      v'.unplaced = v.unplaced := by
  have hscene := Section.ofLexemes_eq_ok_iff_sceneForm.mp hsections
  obtain ⟨ss, hss, hsection⟩ := FileForm.exists_infix hscene hs
  obtain ⟨ws, hws, hvalue⟩ := hsection.exists_infix hw
  obtain ⟨ts, hts, hargument⟩ := argument_of_occurs hv (.value hvalue)
  have hpart : ts <:+: tokens := (hts.trans hws).trans hss
  have hread := (tokenize_eq_ok_iff.mp htokens).wasRead
  cases hargument with
  | pair => exact absurd rfl (hpair _ _ _)
  | value hform =>
    obtain ⟨us, v', hlexed, hform', hsay⟩ :=
      (rewritten_of_valueForm hform).of_part hpart hread hplain 0 [] isDelimiter_nil
    exact ⟨us, v', tokenize_eq_ok_iff.mpr hlexed, Value.ofLexemes?_eq_some_iff.mpr hform', hsay⟩

/-- A typed call with a pair, an array that has a trailing comma and a dictionary whose key is a
word with a colon in it. -/
theorem Value.render_rereads_typed_call :
    let source := "[a]k=T[w](x: [1,], \x7b0:1:&\"s\"\x7d)"
    let tokens : List Lexeme :=
      [⟨.punct .leftBracket, ⟨0, 1⟩⟩, ⟨.word "a", ⟨1, 2⟩⟩, ⟨.punct .rightBracket, ⟨2, 3⟩⟩,
        ⟨.word "k", ⟨3, 4⟩⟩, ⟨.punct .equals, ⟨4, 5⟩⟩, ⟨.word "T", ⟨5, 6⟩⟩,
        ⟨.punct .leftBracket, ⟨6, 7⟩⟩, ⟨.word "w", ⟨7, 8⟩⟩, ⟨.punct .rightBracket, ⟨8, 9⟩⟩,
        ⟨.punct .leftParen, ⟨9, 10⟩⟩, ⟨.word "x", ⟨10, 11⟩⟩, ⟨.punct .colon, ⟨11, 12⟩⟩,
        ⟨.space, ⟨12, 13⟩⟩, ⟨.punct .leftBracket, ⟨13, 14⟩⟩, ⟨.number "1", ⟨14, 15⟩⟩,
        ⟨.punct .comma, ⟨15, 16⟩⟩, ⟨.punct .rightBracket, ⟨16, 17⟩⟩, ⟨.punct .comma, ⟨17, 18⟩⟩,
        ⟨.space, ⟨18, 19⟩⟩, ⟨.punct .leftBrace, ⟨19, 20⟩⟩, ⟨.word "0:1", ⟨20, 23⟩⟩,
        ⟨.punct .colon, ⟨23, 24⟩⟩, ⟨.punct .ampersand, ⟨24, 25⟩⟩, ⟨.string "s", ⟨25, 28⟩⟩,
        ⟨.punct .rightBrace, ⟨28, 29⟩⟩, ⟨.punct .rightParen, ⟨29, 30⟩⟩]
    let call : Value := .call ⟨5, 30⟩ "T" (some (.word ⟨7, 8⟩ "w"))
      [.pair ⟨10, 17⟩ (.word ⟨10, 11⟩ "x") (.array ⟨13, 17⟩ [.number ⟨14, 15⟩ "1"]),
        .dict ⟨19, 29⟩ [(.word ⟨20, 23⟩ "0:1", .stringName ⟨24, 28⟩ "s")]]
    let s : Section := ⟨⟨"a", ⟨1, 2⟩⟩, [], [⟨⟨"k", ⟨3, 4⟩⟩, call⟩], ⟨0, 3⟩⟩
    tokenize source = .ok tokens ∧ Section.ofLexemes tokens = .ok [s] ∧ call.IsPlain ∧
      call.render = "T[w](x: [1], \x7b 0:1: &\"s\" \x7d)" ∧
      ∃ tokens' v', tokenize call.render = .ok tokens' ∧ Value.ofLexemes? tokens' = some v' ∧
        v'.unplaced = call.unplaced := by
  intro source tokens call s
  have hread : tokenize source = .ok tokens := by cbv
  have hsections : Section.ofLexemes tokens = .ok [s] := rfl
  have hplain : call.IsPlain := by
    simp [call, Value.isPlain_iff (v := .call _ _ _ _), Value.isPlain_iff (v := .pair _ _ _),
      Value.isPlain_iff (v := .array _ _), Value.isPlain_iff (v := .dict _ _),
      Value.isPlain_iff (v := .number _ _), Value.isPlain_iff (v := .stringName _ _),
      Value.isPlain_iff (v := .word _ _), Value.children, Value.asString?]
  have hwithin : call ∈ s.values := List.mem_singleton_self call
  have hrendered := Value.render_rereads hread hsections (List.mem_singleton_self s) hwithin .self
    (by simp [call]) hplain
  exact ⟨hread, hsections, hplain, by decide, hrendered⟩

end SceneDiagram
