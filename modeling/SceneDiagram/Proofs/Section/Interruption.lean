import SceneDiagram.Proofs.Section.Completeness
import SceneDiagram.Proofs.Section.Unfinished

/-!
# Where a reader stands when source breaks off

A reader that has gone through the beginning of a source and not the whole of it is refused the end,
and it names the first token of the construct that the grammar finds open there
(`stops_of_sceneUpTo`). So there is one such construct (`SceneUpTo.unique`). The rules for
unfinished source are followed one by one; up to the place where the tokens break off they are those
of the grammar, which a reader is known to take.
-/

namespace SceneDiagram

open Text Grammar

namespace SectionReader

/-- The tokens to come end inside a construct, and that starts at this place. -/
def Stops (r : SectionReader) (ts : List Lexeme) (start : Span) : Prop :=
  ∃ expected, Reads r ts (.error ⟨expected, some start⟩)

variable {r next : SectionReader} {stage : Stage} {slot : Slot} {l : Lexeme}
  {ts us rest : List Lexeme} {start : Span} {opened : Option Span} {v : Value}

theorem stops_of_isTrivia (expected : Expectation) (hword : r.word = none)
    (hloose : r.stage.isTight = false) (hts : IsTrivia ts)
    (hfinish : r.finish = .error ⟨expected, some start⟩) : Stops r ts start :=
  ⟨expected, (reads_of_isTrivia hword hloose hts).mpr hfinish⟩

theorem Stops.cons (hstep : r.step l = .ok next) (h : Stops next ts start) :
    Stops r (l :: ts) start :=
  h.imp fun _ hreads => reads_cons.mpr ⟨next, hstep, hreads⟩

theorem Stops.append_trivia (hword : r.word = none) (hloose : r.stage.isTight = false)
    (hts : IsTrivia ts) (h : Stops r us start) : Stops r (ts ++ us) start :=
  h.imp fun _ hreads => (reads_append_trivia hword hloose hts).mpr hreads

theorem Stops.append_value (hv : ValueForm ts v) (hrest : ¬ OpensCall rest)
    (h : Stops (r.receive slot v) rest start) :
    Stops (r.moveTo (.value slot)) (ts ++ rest) start :=
  h.imp fun _ hreads => takesValue_of_form hv (ends_of_not_opensCall hrest) hreads

theorem Stops.cons_value (hl : l.token.isTrivia = false)
    (hclosing : ∀ g : Group, l.token ≠ .punct g.closing)
    (hstep : (r.moveTo (.value slot)).stepValue slot l = .ok next) (h : Stops next rest start) :
    Stops (r.moveTo (.value slot)) (l :: rest) start :=
  h.imp fun _ hreads => reads_of_stepValue hl hclosing hstep hreads

/-! ## Values -/

/-- Where a value is due, the tokens end inside it. If they name no construct of their own, the one
that waits for the value is the innermost. -/
def StopsValue (ts : List Lexeme) (opened : Option Span) : Prop :=
  ∀ {r : SectionReader} {slot : Slot},
    Stops (r.moveTo (.value slot)) ts (opened.getD slot.start)

theorem stops_of_listedUpTo {α : Type} {form : List Lexeme → α → Prop}
    {upTo : List Lexeme → Option Span → Prop} (group : List α → Group)
    (hstart : ∀ xs, (group xs).start = start)
    (hitem : ∀ {ts x}, form ts x → ∀ (xs : List α) {rest out},
      EndsItem (group (xs ++ [x])) rest →
      Reads (r.moveTo (.separator slot (group (xs ++ [x])))) rest out →
      Reads (r.moveTo (.value (slot.push (.item (group xs))))) (ts ++ rest) out)
    (hwithin : ∀ {ts opened}, upTo ts opened → ∀ xs : List α,
      Stops (r.moveTo (.value (slot.push (.item (group xs))))) ts (opened.getD start))
    (h : ListedUpTo form upTo ts opened) (xs : List α) :
    Stops (r.moveTo (.value (slot.push (.item (group xs))))) ts (opened.getD start) := by
  induction h generalizing xs with
  | due hts =>
    refine stops_of_isTrivia .value rfl rfl hts ?_
    simp only [Option.getD_none, ← hstart xs]
    rfl
  | within hbefore hopened => exact (hwithin hopened xs).append_trivia rfl rfl hbefore
  | @after before ts after x hbefore hx hafter =>
    rw [List.append_assoc]
    refine Stops.append_trivia rfl rfl hbefore ⟨.commaOr (group (xs ++ [x])).closing, ?_⟩
    refine hitem hx xs (endsItem_of_isTrivia hafter) ?_
    refine (reads_of_isTrivia rfl rfl hafter).mpr ?_
    simp only [Option.getD_none, ← hstart (xs ++ [x])]
    rfl
  | @more before ts after rest comma x opened hbefore hx hafter _ ih =>
    rw [List.append_assoc, List.append_assoc]
    refine Stops.append_trivia rfl rfl hbefore ((ih (xs ++ [x])).imp fun _ hreads => ?_)
    refine hitem hx xs (endsItem_append hafter (.inr rfl)) ?_
    exact (reads_append_trivia rfl rfl hafter).mpr (reads_of_comma rfl hreads)

/-- A group that takes a key and a value stops in an entry. After the key stands a stage of its own,
and the colon leads to a frame of its own. -/
theorem stops_of_entryUpTo {upTo : List Lexeme → Option Span → Prop} {g : Group}
    (afterKey : Value → Stage) (frame : Value → Frame)
    (hreceive : ∀ key, r.receive (slot.push (.item g)) key = r.moveTo (afterKey key))
    (hloose : ∀ key, (afterKey key).isTight = false)
    (hfinish : ∀ key, ∃ expected,
      (r.moveTo (afterKey key)).finish = .error ⟨expected, some g.start⟩)
    (hcolon : ∀ key colon, (r.moveTo (afterKey key)).step ⟨.punct .colon, colon⟩ =
      .ok (r.moveTo (.value (slot.push (frame key)))))
    (hframe : ∀ key, (frame key).start = g.start)
    (hupTo : ∀ {ts opened}, upTo ts opened → StopsValue ts opened)
    (h : EntryUpTo ValueForm upTo ts opened) :
    Stops (r.moveTo (.value (slot.push (.item g)))) ts (opened.getD g.start) := by
  have hslot : ∀ key, (slot.push (frame key)).start = g.start := hframe
  cases h with
  | key hopened => exact hupTo hopened
  | @colon ks before key hkey hbefore =>
    obtain ⟨expected, hend⟩ := hfinish key
    refine Stops.append_value hkey (not_opensCall_of_apart hbefore.apart) ?_
    rw [hreceive]
    exact stops_of_isTrivia expected rfl (hloose key) hbefore hend
  | @due ks before after colon key hkey hbefore hafter =>
    rw [List.append_assoc]
    refine Stops.append_value hkey (not_opensCall_append hbefore (by simp)) ?_
    rw [hreceive]
    refine Stops.append_trivia rfl (hloose key) hbefore (.cons (hcolon key colon) ?_)
    refine stops_of_isTrivia .value rfl rfl hafter ?_
    rw [Option.getD_none, ← hslot key]
    rfl
  | @value ks before after vs colon key opened hkey hbefore hafter hopened =>
    rw [List.append_assoc]
    refine Stops.append_value hkey (not_opensCall_append hbefore (by simp)) ?_
    rw [hreceive]
    refine Stops.append_trivia rfl (hloose key) hbefore (.cons (hcolon key colon) ?_)
    refine Stops.append_trivia rfl rfl hafter ?_
    rw [← hslot key]
    exact hupTo hopened

/-- After the bracket of a call the tokens end inside its arguments. -/
theorem stops_of_arguments {upTo : List Lexeme → Option Span → Prop} {a head : Span} {name : String}
    {param : Option Value} (hupTo : ∀ {ts opened}, upTo ts opened → StopsValue ts opened)
    (h : ListedUpTo (Argument ValueForm) (EntryUpTo ValueForm upTo) ts opened) :
    Stops (r.moveTo (.value (slot.push (.item (.call ⟨a, head, name, param, []⟩))))) ts
      (opened.getD a) :=
  stops_of_listedUpTo (fun args => .call ⟨a, head, name, param, args⟩) (fun _ => rfl)
    (fun hx xs => reads_of_argument (c := ⟨a, head, name, param, xs⟩) takesValue_of_form hx)
    (fun hopened xs =>
      stops_of_entryUpTo (g := .call ⟨a, head, name, param, xs⟩) (.argument slot _) (.pair _)
        (fun _ => rfl) (fun _ => rfl) (fun _ => ⟨_, rfl⟩) (fun _ _ => rfl) (fun _ => rfl) hupTo
        hopened)
    h []

theorem stopsValue_of_valueUpTo (h : ValueUpTo ts opened) : StopsValue ts opened := by
  induction h using ValueUpTo.induction with
  | stringName | nodePath =>
    intro r slot
    refine .cons_value rfl (by rintro ⟨⟩ <;> nofun) rfl ?_
    exact ⟨.string, reads_nil.mpr rfl⟩
  | @array a ts opened _ hitems =>
    intro r slot
    refine .cons_value rfl (by rintro ⟨⟩ <;> nofun) rfl ?_
    exact stops_of_listedUpTo (fun items => .array ⟨a, items⟩) (fun _ => rfl)
      (fun hx xs => reads_of_element (a := ⟨a, xs⟩) takesValue_of_form hx)
      (fun ⟨_, hopened⟩ _ => hopened) hitems []
  | @dict a ts opened _ hentries =>
    intro r slot
    refine .cons_value rfl (by rintro ⟨⟩ <;> nofun) rfl ?_
    exact stops_of_listedUpTo (fun entries => .dict ⟨a, entries⟩) (fun _ => rfl)
      (fun hx xs => reads_of_entry (d := ⟨a, xs⟩) takesValue_of_form hx)
      (fun hopened xs =>
        stops_of_entryUpTo (g := .dict ⟨a, xs⟩) (.colon slot _) (.entry _) (fun _ => rfl)
          (fun _ => rfl) (fun _ => ⟨_, rfl⟩) (fun _ _ => rfl) (fun _ => rfl)
          (fun ⟨_, hopened⟩ => hopened) hopened)
      hentries []
  | call _ hargs =>
    intro r slot
    refine .cons_value rfl (by rintro ⟨⟩ <;> nofun) rfl (.cons rfl ?_)
    exact stops_of_arguments (fun ⟨_, hopened⟩ => hopened) hargs
  | typeDue hbefore =>
    intro r slot
    refine .cons_value rfl (by rintro ⟨⟩ <;> nofun) rfl (.cons rfl ?_)
    exact stops_of_isTrivia _ rfl rfl hbefore rfl
  | type hbefore _ ih =>
    intro r slot
    refine .cons_value rfl (by rintro ⟨⟩ <;> nofun) rfl (.cons rfl ?_)
    exact ih.append_trivia rfl rfl hbefore
  | closeType hbefore hparam hafter =>
    intro r slot
    rw [List.append_assoc]
    refine .cons_value rfl (by rintro ⟨⟩ <;> nofun) rfl (.cons rfl ?_)
    refine .append_trivia rfl rfl hbefore (.append_value hparam ?_ ?_)
    · exact not_opensCall_of_apart hafter.apart
    · exact stops_of_isTrivia _ rfl rfl hafter rfl
  | openArgs hbefore hparam hafter =>
    intro r slot
    rw [List.append_assoc, List.append_assoc]
    refine .cons_value rfl (by rintro ⟨⟩ <;> nofun) rfl (.cons rfl ?_)
    refine .append_trivia rfl rfl hbefore (.append_value hparam ?_ ?_)
    · exact not_opensCall_append hafter (by simp)
    · exact .append_trivia rfl rfl hafter (.cons rfl ⟨.mark .leftParen, reads_nil.mpr rfl⟩)
  | typedCall hbefore hparam hafter _ hargs =>
    intro r slot
    rw [List.append_assoc, List.append_assoc]
    refine .cons_value rfl (by rintro ⟨⟩ <;> nofun) rfl (.cons rfl ?_)
    refine .append_trivia rfl rfl hbefore (.append_value hparam ?_ ?_)
    · exact not_opensCall_append hafter (by simp)
    · refine .append_trivia rfl rfl hafter (.cons rfl (.cons rfl ?_))
      exact stops_of_arguments (fun ⟨_, hopened⟩ => hopened) hargs

/-! ## Properties, sections and files -/

theorem stops_of_propertyUpTo (header : Option OpenHeader) (h : PropertyUpTo ts start)
    (hstart : ∀ {key a}, (r.moveTo stage).step ⟨.word key, a⟩ =
      .ok (r.moveTo (.equals header ⟨key, a⟩))) :
    Stops (r.moveTo stage) ts start := by
  cases h with
  | equals hbefore => exact .cons hstart (stops_of_isTrivia _ rfl rfl hbefore rfl)
  | due hbefore hafter =>
    refine .cons hstart (.append_trivia rfl rfl hbefore (.cons rfl ?_))
    exact stops_of_isTrivia _ rfl rfl hafter rfl
  | value hbefore hafter hopened =>
    refine .cons hstart (.append_trivia rfl rfl hbefore (.cons rfl ?_))
    exact .append_trivia rfl rfl hafter (stopsValue_of_valueUpTo hopened)

theorem not_opensCall_of_propertyUpTo (h : PropertyUpTo ts start) : ¬ OpensCall ts := by
  cases h <;> simp

theorem stops_of_sectionUpTo {done : List Section} {body : Option Section}
    (h : SectionUpTo ts start) : Stops (outside done body) ts start := by
  cases h with
  | tag hbefore => exact .cons rfl (stops_of_isTrivia _ rfl rfl hbefore rfl)
  | @header a b tag before as after attributes hbefore hattributes hafter =>
    refine .cons rfl (.append_trivia rfl rfl hbefore (.cons rfl ⟨.headerItem, ?_⟩))
    refine reads_of_attributes hattributes (not_opensCall_of_apart hafter.apart) ?_
    exact (reads_of_isTrivia rfl rfl hafter).mpr rfl
  | @inHeader a b tag before as between us attributes _ hbefore hattributes hbetween hopened =>
    refine .cons rfl (.append_trivia rfl rfl hbefore (.cons rfl ?_))
    let afterBracket : SectionReader := ⟨done ++ body.toList, none, .tag a, none⟩
    obtain ⟨expected, hreads⟩ : Stops (afterBracket.moveTo (.header ⟨a, ⟨tag, b⟩, attributes⟩))
        (between ++ us) start :=
      (stops_of_propertyUpTo (some ⟨a, ⟨tag, b⟩, attributes⟩) hopened rfl).append_trivia rfl rfl
        hbetween
    rw [List.append_assoc]
    refine ⟨expected, reads_of_attributes (r := afterBracket) hattributes ?_ hreads⟩
    exact not_opensCall_append hbetween (not_opensCall_of_propertyUpTo hopened)
  | @inBody ts between us s _ hs hbetween hopened =>
    obtain ⟨expected, hreads⟩ :
        Stops (outside (done ++ body.toList) (some s)) (between ++ us) start :=
      (stops_of_propertyUpTo (r := outside (done ++ body.toList) (some s)) none hopened
        rfl).append_trivia rfl rfl hbetween
    rw [List.append_assoc]
    refine ⟨expected, reads_of_sectionForm hs (fun _ _ => ends_of_not_opensCall ?_) hreads⟩
    exact not_opensCall_append hbetween (not_opensCall_of_propertyUpTo hopened)

/-- A reader that comes to the end of an unfinished source stops there, and it names the construct
that is open. -/
theorem stops_of_sceneUpTo {done : List Section} {body : Option Section}
    (h : SceneUpTo ts start) : Stops (outside done body) ts start := by
  induction h generalizing done body with
  | last hbefore hopened => exact (stops_of_sectionUpTo hopened).append_trivia rfl rfl hbefore
  | @more before ts rest s start hbefore hs hfollowed _ ih =>
    rw [List.append_assoc]
    obtain ⟨expected, hreads⟩ := @ih (done ++ body.toList) (some s)
    refine .append_trivia rfl rfl hbefore ⟨expected, ?_⟩
    refine reads_of_sectionForm hs (fun p hp hword => ?_) hreads
    exact not_opensCall_of_apart (hfollowed ⟨p, hp, hword⟩)

theorem Reads.unique {out out' : Except Refusal (List Section)} (h : Reads r ts out)
    (h' : Reads r ts out') : out = out' := by
  obtain ⟨last, hrun, hfinish⟩ := h
  obtain ⟨last', hrun', hfinish'⟩ := h'
  obtain rfl : last = last' := Except.ok.inj (hrun.symm.trans hrun')
  exact hfinish.symm.trans hfinish'

end SectionReader

open SectionReader

/-- One construct is the innermost that is open where a source breaks off. -/
theorem Grammar.SceneUpTo.unique {ts : List Lexeme} {start start' : Span} (h : SceneUpTo ts start)
    (h' : SceneUpTo ts start') : start = start' := by
  obtain ⟨expected, hreads⟩ : Stops initial ts start := stops_of_sceneUpTo h
  obtain ⟨expected', hreads'⟩ : Stops initial ts start' := stops_of_sceneUpTo h'
  have hrefusal := Except.error.inj (hreads.unique hreads')
  rw [Refusal.mk.injEq] at hrefusal
  exact Option.some.inj hrefusal.2

end SceneDiagram
