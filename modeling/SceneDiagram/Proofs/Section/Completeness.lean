import SceneDiagram.Proofs.Section.Continuation

/-!
# Every scene source is read

Where tokens follow the grammar, a reader takes them and comes to the syntax tree that the grammar
gives them (`reads_of_sceneForm`). Each rule is followed from the place where its first token is
due: if a reader that holds the finished construct can go on with the tokens after it, then the
reader before the construct can go on with all of them.
-/

namespace SceneDiagram.SectionReader

open Text Grammar

variable {r : SectionReader} {stage : Stage} {slot : Slot} {g : Group} {l : Lexeme}
  {ts us before after rest : List Lexeme} {ss : List Section}
  {out : Except Refusal (List Section)} {v : Value}

/-- What may come after a value: no bracket touches a bare word. -/
def Ends (v : Value) (rest : List Lexeme) : Prop :=
  (∃ a w, v = .word a w) → ¬ OpensCall rest

theorem ends_of_not_opensCall (h : ¬ OpensCall rest) : Ends v rest := fun _ => h

/-- Where a value is due, a token that closes no group has to start one. -/
theorem step_value (hl : l.token.isTrivia = false)
    (hclosing : ∀ g : Group, l.token ≠ .punct g.closing) :
    (r.moveTo (.value slot)).step l = (r.moveTo (.value slot)).stepValue slot l := by
  rw [step_of_not_isTrivia rfl hl]
  show (r.moveTo (.value slot)).stepItem slot l = _
  unfold stepItem
  split
  · rw [if_neg (hclosing _)]
  · rfl

/-- Where a value is due, a token that starts one takes the reader on. -/
theorem reads_of_stepValue {next : SectionReader} (hl : l.token.isTrivia = false)
    (hclosing : ∀ g : Group, l.token ≠ .punct g.closing)
    (hstep : (r.moveTo (.value slot)).stepValue slot l = .ok next) (h : Reads next rest out) :
    Reads (r.moveTo (.value slot)) (l :: rest) out :=
  reads_cons.mpr ⟨next, (step_value hl hclosing).trans hstep, h⟩

/-! ## Groups -/

theorem reads_of_closing (hl : l.token = .punct g.closing)
    (h : Reads (r.receive slot (g.close l.span)) rest out) :
    Reads (r.moveTo (.separator slot g)) (l :: rest) out := by
  refine reads_cons.mpr ⟨_, ?_, h⟩
  rw [step_of_not_isTrivia rfl (by simp [hl, Token.isTrivia])]
  exact stepSeparator_eq_ok_iff.mpr (.inl ⟨hl, rfl⟩)

theorem reads_of_comma (hl : l.token = .punct .comma)
    (h : Reads (r.moveTo (.value (slot.push (.item g)))) rest out) :
    Reads (r.moveTo (.separator slot g)) (l :: rest) out := by
  refine reads_cons.mpr ⟨_, ?_, h⟩
  rw [step_of_not_isTrivia rfl (by simp [hl, Token.isTrivia])]
  exact stepSeparator_eq_ok_iff.mpr (.inr ⟨hl, rfl⟩)

/-- Where an item is due, a group may also end. -/
theorem reads_of_closing_item (hl : l.token = .punct g.closing)
    (h : Reads (r.receive slot (g.close l.span)) rest out) :
    Reads (r.moveTo (.value (slot.push (.item g)))) (l :: rest) out := by
  refine reads_cons.mpr ⟨_, ?_, h⟩
  rw [step_of_not_isTrivia rfl (by simp [hl, Token.isTrivia])]
  exact if_pos hl

/-- What may come after an item: the first token that counts, if there is one, closes the group or
is a comma. -/
def EndsItem (g : Group) (rest : List Lexeme) : Prop :=
  ∀ l ∈ rest.find? (! ·.token.isTrivia), l.token = .punct g.closing ∨ l.token = .punct .comma

theorem endsItem_append (hafter : IsTrivia after)
    (hl : l.token = .punct g.closing ∨ l.token = .punct .comma) :
    EndsItem g (after ++ l :: rest) := by
  have hcounts : l.token.isTrivia = false := by rcases hl with hl | hl <;> simp [hl, Token.isTrivia]
  simpa [EndsItem, find?_append_cons hafter hcounts] using hl

theorem endsItem_of_isTrivia (hafter : IsTrivia after) : EndsItem g after := by
  simp [EndsItem, find?_eq_none_iff.mpr hafter]

theorem EndsItem.not_opensCall (h : EndsItem g rest) : ¬ OpensCall rest := by
  cases rest with
  | nil => exact not_opensCall_nil
  | cons l rest =>
    rw [opensCall_cons]
    intro hopens
    have hcounts : l.token.isTrivia = false := by
      rcases hopens with hl | hl <;> simp [hl, Token.isTrivia]
    have hl := h l (by simp [hcounts])
    cases g <;> rcases hopens with hopens | hopens <;> simp [hopens, Group.closing] at hl

/-- A reader takes items of a kind, one after another, if it takes one from the place where it is
due to the mark after it. -/
theorem reads_of_listed {α : Type} {form : List Lexeme → α → Prop} (group : List α → Group)
    {mark : Punct} (hmark : ∀ xs, (group xs).closing = mark)
    (hitem : ∀ {ts x}, form ts x →
      ∀ (xs : List α) {rest}, EndsItem (group (xs ++ [x])) rest →
        Reads (r.moveTo (.separator slot (group (xs ++ [x])))) rest out →
        Reads (r.moveTo (.value (slot.push (.item (group xs))))) (ts ++ rest) out)
    {ts : List Lexeme} {xs' : List α} (hlisted : Listed form ts xs') :
    ∀ {xs close rest},
      Reads (r.receive slot ((group (xs ++ xs')).close close)) rest out →
      Reads (r.moveTo (.value (slot.push (.item (group xs)))))
        (ts ++ ⟨.punct mark, close⟩ :: rest) out := by
  induction hlisted with
  | none hts =>
    intro xs close rest h
    rw [List.append_nil] at h
    rw [reads_append_trivia rfl rfl hts]
    exact reads_of_closing_item (by rw [hmark]) h
  | one hbefore hx hafter =>
    intro xs close rest h
    rw [List.append_assoc, List.append_assoc, reads_append_trivia rfl rfl hbefore]
    refine hitem hx _ (endsItem_append hafter (.inl (by rw [hmark]))) ?_
    exact (reads_append_trivia rfl rfl hafter).mpr (reads_of_closing (by rw [hmark]) h)
  | more hbefore hx hafter _ ih =>
    intro xs close rest h
    rw [List.append_assoc, List.append_assoc, List.append_assoc, List.cons_append,
      reads_append_trivia rfl rfl hbefore]
    refine hitem hx _ (endsItem_append hafter (.inr rfl)) ?_
    refine (reads_append_trivia rfl rfl hafter).mpr (reads_of_comma rfl (ih ?_))
    simpa using h

/-- An argument that no colon follows is no key. -/
theorem reads_of_endsItem {c : OpenCall}
    (hrest : EndsItem (.call { c with args := c.args ++ [v] }) rest)
    (h : Reads (r.moveTo (.separator slot (.call { c with args := c.args ++ [v] }))) rest out) :
    Reads (r.moveTo (.argument slot c v)) rest out := by
  rcases reads_next rfl rfl h with
    ⟨hrest, hfinish⟩ | ⟨before, l, us, next, rfl, hbefore, hcounts, hstep, hnext⟩
  · exact (reads_of_isTrivia rfl rfl hrest).mpr hfinish
  · have hcolon : l.token ≠ .punct .colon := by
      rcases hrest l (find?_append_cons hbefore hcounts) with hl | hl <;> simp [hl, Group.closing]
    refine (reads_append_trivia rfl rfl hbefore).mpr (reads_cons.mpr ⟨next, ?_, hnext⟩)
    rw [step_of_not_isTrivia rfl hcounts, ← hstep]
    exact if_neg hcolon

/-! ## Values -/

/-- A reader takes a value from the place where it is due. -/
def TakesValue (ts : List Lexeme) (v : Value) : Prop :=
  ∀ {r : SectionReader} {slot : Slot} {rest : List Lexeme}
    {out : Except Refusal (List Section)}, Ends v rest →
    Reads (r.receive slot v) rest out → Reads (r.moveTo (.value slot)) (ts ++ rest) out

variable {form : List Lexeme → Value → Prop} (htakes : ∀ {ts v}, form ts v → TakesValue ts v)
include htakes

theorem reads_of_element {a : OpenArray} (hv : form ts v)
    (hrest : EndsItem (.array { a with items := a.items ++ [v] }) rest)
    (h : Reads (r.moveTo (.separator slot (.array { a with items := a.items ++ [v] }))) rest out) :
    Reads (r.moveTo (.value (slot.push (.item (.array a))))) (ts ++ rest) out :=
  htakes hv (ends_of_not_opensCall hrest.not_opensCall) h

theorem reads_of_entry {d : OpenDict} {key value : Value} (he : Entry form ts (key, value))
    (hrest : EndsItem (.dict { d with entries := d.entries ++ [(key, value)] }) rest)
    (h : Reads (r.moveTo (.separator slot
      (.dict { d with entries := d.entries ++ [(key, value)] }))) rest out) :
    Reads (r.moveTo (.value (slot.push (.item (.dict d))))) (ts ++ rest) out := by
  obtain ⟨hkey, hbefore, hbetween, hvalue⟩ := he
  simp only [List.append_assoc, List.cons_append]
  refine htakes hkey ?_ ((reads_append_trivia rfl rfl hbefore).mpr ?_)
  · exact ends_of_not_opensCall (not_opensCall_append hbefore (by simp))
  · refine reads_cons.mpr ⟨_, rfl, ?_⟩
    rw [reads_append_trivia rfl rfl hbetween]
    exact htakes hvalue (ends_of_not_opensCall hrest.not_opensCall) h

theorem reads_of_argument {c : OpenCall} (hv : Argument form ts v)
    (hrest : EndsItem (.call { c with args := c.args ++ [v] }) rest)
    (h : Reads (r.moveTo (.separator slot (.call { c with args := c.args ++ [v] }))) rest out) :
    Reads (r.moveTo (.value (slot.push (.item (.call c))))) (ts ++ rest) out := by
  cases hv with
  | value hv =>
    exact htakes hv (ends_of_not_opensCall hrest.not_opensCall) (reads_of_endsItem hrest h)
  | pair hkey hbefore hbetween hvalue =>
    simp only [List.append_assoc, List.cons_append]
    refine htakes hkey ?_ ((reads_append_trivia rfl rfl hbefore).mpr ?_)
    · exact ends_of_not_opensCall (not_opensCall_append hbefore (by simp))
    · refine reads_cons.mpr ⟨_, rfl, ?_⟩
      rw [reads_append_trivia rfl rfl hbetween]
      exact htakes hvalue (ends_of_not_opensCall hrest.not_opensCall) h

/-- After the bracket of a call come its arguments. -/
theorem reads_of_arguments {start head close : Span} {name : String} {param : Option Value}
    {args : List Value} (hargs : Listed (Argument form) ts args)
    (h : Reads (r.receive slot (.call (head.join close) name param args)) rest out) :
    Reads (r.moveTo (.value (slot.push (.item (.call ⟨start, head, name, param, []⟩)))))
      (ts ++ ⟨.punct .rightParen, close⟩ :: rest) out :=
  reads_of_listed (fun args => .call ⟨start, head, name, param, args⟩) (fun _ => rfl)
    (fun hx xs => reads_of_argument (c := ⟨start, head, name, param, xs⟩) htakes hx) hargs h

omit htakes

theorem takesValue_of_form (h : ValueForm ts v) : TakesValue ts v := by
  induction h using ValueForm.induction with
  | string => exact fun _ h => reads_of_stepValue rfl (by rintro ⟨⟩ <;> nofun) rfl h
  | number => exact fun _ h => reads_of_stepValue rfl (by rintro ⟨⟩ <;> nofun) rfl h
  | word =>
    intro r slot rest out hends h
    refine reads_of_stepValue rfl (by rintro ⟨⟩ <;> nofun) rfl ?_
    exact (reads_held (hends ⟨_, _, rfl⟩)).mpr h
  | stringName =>
    intro r slot rest out _ h
    refine reads_of_stepValue rfl (by rintro ⟨⟩ <;> nofun) rfl ?_
    exact reads_cons.mpr ⟨_, rfl, h⟩
  | nodePath =>
    intro r slot rest out _ h
    refine reads_of_stepValue rfl (by rintro ⟨⟩ <;> nofun) rfl ?_
    exact reads_cons.mpr ⟨_, rfl, h⟩
  | @array a b ts items _ hitems =>
    intro r slot rest out _ h
    rw [List.cons_append, List.append_assoc, List.singleton_append]
    refine reads_of_stepValue rfl (by rintro ⟨⟩ <;> nofun) rfl ?_
    exact reads_of_listed (fun items => .array ⟨a, items⟩) (fun _ => rfl)
      (fun hx xs => reads_of_element (a := ⟨a, xs⟩) (fun ⟨_, hv⟩ => hv) hx) hitems h
  | @dict a b ts entries _ hentries =>
    intro r slot rest out _ h
    rw [List.cons_append, List.append_assoc, List.singleton_append]
    refine reads_of_stepValue rfl (by rintro ⟨⟩ <;> nofun) rfl ?_
    exact reads_of_listed (fun entries => .dict ⟨a, entries⟩) (fun _ => rfl)
      (fun hx xs => reads_of_entry (d := ⟨a, xs⟩) (fun ⟨_, hv⟩ => hv) hx) hentries h
  | call _ hargs =>
    intro r slot rest out _ h
    rw [List.cons_append, List.cons_append, List.append_assoc, List.singleton_append]
    refine reads_of_stepValue rfl (by rintro ⟨⟩ <;> nofun) rfl ?_
    refine reads_cons.mpr ⟨_, rfl, ?_⟩
    exact reads_of_arguments (fun ⟨_, hv⟩ => hv) hargs h
  | typedCall hbefore _ hafter _ ihparam hargs =>
    intro r slot rest out _ h
    simp only [List.cons_append, List.append_assoc, List.nil_append]
    refine reads_of_stepValue rfl (by rintro ⟨⟩ <;> nofun) rfl ?_
    refine reads_cons.mpr ⟨_, rfl, (reads_append_trivia rfl rfl hbefore).mpr ?_⟩
    refine ihparam (ends_of_not_opensCall (not_opensCall_append hafter (by simp))) ?_
    refine (reads_append_trivia rfl rfl hafter).mpr (reads_cons.mpr ⟨_, rfl, ?_⟩)
    refine reads_cons.mpr ⟨_, rfl, ?_⟩
    exact reads_of_arguments (fun ⟨_, hv⟩ => hv) hargs h

/-! ## Properties, sections and files -/

/-- The reader between sections, or in the body of one that may go on. -/
def outside (done : List Section) (body : Option Section) : SectionReader :=
  ⟨done, body, .outside, none⟩

theorem reads_of_propertyForm (header : Option OpenHeader) {p : Property}
    (hp : PropertyForm ts p)
    (hstart : ∀ {key a}, (r.moveTo stage).step ⟨.word key, a⟩ =
      .ok (r.moveTo (.equals header ⟨key, a⟩)))
    (hends : Ends p.value rest) (h : Reads (r.receive ⟨header, p.key, []⟩ p.value) rest out) :
    Reads (r.moveTo stage) (ts ++ rest) out := by
  obtain ⟨hbefore, hafter, hv⟩ := hp
  simp only [List.cons_append, List.append_assoc]
  refine reads_cons.mpr ⟨_, hstart, (reads_append_trivia rfl rfl hbefore).mpr ?_⟩
  refine reads_cons.mpr ⟨_, rfl, (reads_append_trivia rfl rfl hafter).mpr ?_⟩
  exact takesValue_of_form hv hends h

theorem not_opensCall_of_properties {p : Property} {ps : List Property}
    (h : Properties ts (p :: ps)) : ¬ OpensCall (ts ++ rest) := by
  cases h with
  | cons hbefore hp _ =>
    cases hp
    simp only [List.append_assoc, List.cons_append]
    exact not_opensCall_append hbefore (by simp)

/-- A reader takes properties one after another if it takes one. `next` is the reader that has
taken those before. -/
theorem reads_of_properties (next : List Property → SectionReader)
    (hnext : ∀ ps, (next ps).word = none ∧ (next ps).stage.isTight = false)
    (htakes : ∀ {ts p rest}, PropertyForm ts p → ∀ ps, Ends p.value rest →
      Reads (next (ps ++ [p])) rest out → Reads (next ps) (ts ++ rest) out)
    {ts : List Lexeme} {ps' : List Property} (h : Properties ts ps') :
    ∀ {ps rest}, (∀ p ∈ ps'.getLast?, Ends p.value rest) → Reads (next (ps ++ ps')) rest out →
      Reads (next ps) (ts ++ rest) out := by
  induction h with
  | nil => simp
  | @cons before ts us p ps' hbefore hp hps ih =>
    intro ps rest hends h
    rw [List.append_assoc, List.append_assoc,
      reads_append_trivia (hnext ps).1 (hnext ps).2 hbefore]
    refine htakes hp ps ?_ (ih ?_ (by simpa using h))
    · cases ps' with
      | nil =>
        cases hps
        exact hends p rfl
      | cons p' ps' => exact ends_of_not_opensCall (not_opensCall_of_properties hps)
    · intro q hq
      refine hends q ?_
      cases ps' with
      | nil => simp at hq
      | cons p' ps' => rwa [List.getLast?_cons_cons]

theorem reads_of_attributes {h : OpenHeader} {ps : List Property} (hps : Properties ts ps)
    (hrest : ¬ OpensCall rest)
    (hreads : Reads (r.moveTo (.header { h with attributes := h.attributes ++ ps })) rest out) :
    Reads (r.moveTo (.header h)) (ts ++ rest) out :=
  reads_of_properties (fun ps => r.moveTo (.header { h with attributes := ps }))
    (fun _ => ⟨rfl, rfl⟩)
    (fun hp ps hends hreads =>
      reads_of_propertyForm (some { h with attributes := ps }) hp rfl hends hreads)
    hps (fun _ _ => ends_of_not_opensCall hrest) hreads

theorem reads_of_body {done : List Section} {s : Section} {ps : List Property}
    (hps : Properties ts ps) (hends : ∀ p ∈ ps.getLast?, Ends p.value rest)
    (h : Reads (outside done (some { s with properties := s.properties ++ ps })) rest out) :
    Reads (outside done (some s)) (ts ++ rest) out :=
  reads_of_properties (fun ps => outside done (some { s with properties := ps }))
    (fun _ => ⟨rfl, rfl⟩)
    (fun hp ps hends h =>
      reads_of_propertyForm (r := outside done (some { s with properties := ps })) none hp rfl
        hends h)
    hps hends h

theorem reads_of_sectionForm {done : List Section} {body : Option Section} {s : Section}
    (hs : SectionForm ts s) (hends : ∀ p ∈ s.properties.getLast?, Ends p.value rest)
    (h : Reads (outside (done ++ body.toList) (some s)) rest out) :
    Reads (outside done body) (ts ++ rest) out := by
  obtain ⟨hbefore, hattributes, hafter, hproperties⟩ := hs
  simp only [List.cons_append, List.append_assoc]
  refine reads_cons.mpr ⟨_, rfl, (reads_append_trivia rfl rfl hbefore).mpr ?_⟩
  refine reads_cons.mpr ⟨_, rfl, reads_of_attributes hattributes ?_ ?_⟩
  · exact not_opensCall_append hafter (by simp)
  · refine (reads_append_trivia rfl rfl hafter).mpr (reads_cons.mpr ⟨_, rfl, ?_⟩)
    exact reads_of_body hproperties hends h

/-- A reader takes what the grammar makes a scene source, and adds the sections of it to those that
it has. The induction is on the sections; a section that ends where the next one starts leaves the
reader between them. -/
theorem reads_of_sceneForm {done : List Section} {body : Option Section}
    (h : SceneForm ts ss) : Reads (outside done body) ts (.ok (done ++ body.toList ++ ss)) := by
  induction h generalizing done body with
  | none hts =>
    rw [List.append_nil]
    exact (reads_of_isTrivia rfl rfl hts).mpr rfl
  | @more before ts rest s ss hbefore hs hfollowed _ ih =>
    rw [List.append_assoc, reads_append_trivia rfl rfl hbefore]
    refine reads_of_sectionForm hs ?_ ?_
    · intro p hp hword
      exact not_opensCall_of_apart (hfollowed ⟨p, hp, hword⟩)
    · simpa using @ih (done ++ body.toList) (some s)

end SceneDiagram.SectionReader
