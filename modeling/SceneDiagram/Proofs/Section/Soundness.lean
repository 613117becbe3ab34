import SceneDiagram.Proofs.Section.Completeness

/-!
# Whatever is read follows the grammar

The other way round: a reader that comes to the end has gone through tokens that the grammar makes a
scene source, and its sections are those that the grammar gives (`sceneForm_of_reads`). Each
construct takes a first part of the tokens to come and leaves the reader that holds the finished
construct with the rest. A value is made of values further on in the tokens, so the bound on their
number carries the induction (`leavesValue`).
-/

namespace SceneDiagram.SectionReader

open Text Grammar

variable {r : SectionReader} {slot : Slot} {l : Lexeme} {ts us rest : List Lexeme}
  {ss : List Section} {v : Value}

/-! ## Values -/

/-- A value that starts with one of the last `n` tokens is followed by what comes after it. -/
def LeavesValue (n : Nat) : Prop :=
  ∀ {r next : SectionReader} {slot : Slot} {l : Lexeme} {us : List Lexeme} {ss : List Section},
    us.length < n → r.stepValue slot l = .ok next → Reads next us (.ok ss) →
    ∃ ts v rest, l :: us = ts ++ rest ∧ ValueForm ts v ∧ Ends v rest ∧
      Reads (r.receive slot v) rest (.ok ss)

/-- After the mark of a prefixed string comes the string. -/
theorem string_of_reads {kind : Prefixed} {start : Span}
    (h : Reads (r.moveTo (.text slot kind start)) ts (.ok ss)) :
    ∃ s a rest, ts = ⟨.string s, a⟩ :: rest ∧
      Reads (r.receive slot (kind.value (start.join a) s)) rest (.ok ss) := by
  obtain ⟨⟨token, a⟩, rest, next, rfl, hstep, hnext⟩ :=
    reads_next_of_tight rfl rfl (by nofun) h
  cases token with
  | string s =>
    obtain rfl : _ = next := Except.ok.inj hstep
    exact ⟨s, a, rest, rfl, hnext⟩
  | _ => cases hstep

theorem separator_of_reads {g : Group} (h : Reads (r.moveTo (.separator slot g)) ts (.ok ss)) :
    ∃ after l rest, ts = after ++ l :: rest ∧ IsTrivia after ∧
      ((l.token = .punct g.closing ∧ Reads (r.receive slot (g.close l.span)) rest (.ok ss)) ∨
        (l.token = .punct .comma ∧
          Reads (r.moveTo (.value (slot.push (.item g)))) rest (.ok ss))) := by
  obtain ⟨after, l, rest, next, rfl, hafter, -, hstep, hnext⟩ :=
    reads_next_of_open rfl rfl (by nofun) h
  refine ⟨after, l, rest, rfl, hafter, ?_⟩
  rcases stepSeparator_eq_ok_iff.mp hstep with ⟨hl, rfl⟩ | ⟨hl, rfl⟩
  · exact .inl ⟨hl, hnext⟩
  · exact .inr ⟨hl, hnext⟩

/-- Where an item is due, the group ends or a token starts the item. -/
theorem item_of_reads {g : Group}
    (h : Reads (r.moveTo (.value (slot.push (.item g)))) ts (.ok ss)) :
    ∃ before l rest, ts = before ++ l :: rest ∧ IsTrivia before ∧
      ((l.token = .punct g.closing ∧ Reads (r.receive slot (g.close l.span)) rest (.ok ss)) ∨
        ∃ next, (r.moveTo (.value (slot.push (.item g)))).stepValue (slot.push (.item g)) l =
          .ok next ∧ Reads next rest (.ok ss)) := by
  obtain ⟨before, l, rest, next, rfl, hbefore, -, hstep, hnext⟩ :=
    reads_next_of_open rfl rfl (by nofun) h
  refine ⟨before, l, rest, rfl, hbefore, ?_⟩
  by_cases hl : l.token = .punct g.closing
  · have hnext' : next = r.receive slot (g.close l.span) := by
      have : (r.moveTo (.value (slot.push (.item g)))).stepSettled l =
          .ok (r.receive slot (g.close l.span)) := if_pos hl
      rw [this, Except.ok.injEq] at hstep
      exact hstep.symm
    exact .inl ⟨hl, hnext' ▸ hnext⟩
  · have : (r.moveTo (.value (slot.push (.item g)))).stepSettled l =
        (r.moveTo (.value (slot.push (.item g)))).stepValue (slot.push (.item g)) l := if_neg hl
    exact .inr ⟨next, this ▸ hstep, hnext⟩

/-- A group is a list of items between its marks if each token that starts an item starts one of the
given form, up to the mark after it. -/
theorem listed_of_reads {α : Type} {form : List Lexeme → α → Prop} (group : List α → Group)
    {mark : Punct} (hmark : ∀ xs, (group xs).closing = mark) {n : Nat}
    (hitem : ∀ {next l us} (xs : List α), us.length < n →
      (r.moveTo (.value (slot.push (.item (group xs))))).stepValue
        (slot.push (.item (group xs))) l = .ok next → Reads next us (.ok ss) →
      ∃ ts x rest, l :: us = ts ++ rest ∧ 0 < ts.length ∧ form ts x ∧
        Reads (r.moveTo (.separator slot (group (xs ++ [x])))) rest (.ok ss)) :
    ∀ {us} (xs : List α), us.length ≤ n →
      Reads (r.moveTo (.value (slot.push (.item (group xs))))) us (.ok ss) →
      ∃ ts xs' close rest, us = ts ++ ⟨.punct mark, close⟩ :: rest ∧ Listed form ts xs' ∧
        Reads (r.receive slot ((group (xs ++ xs')).close close)) rest (.ok ss) := by
  induction n with
  | zero =>
    intro us xs hus h
    obtain ⟨before, l, rest, rfl, -, -⟩ := item_of_reads h
    simp at hus
  | succ n ih =>
    intro us xs hus h
    obtain ⟨before, l, rest, rfl, hbefore, hl⟩ := item_of_reads h
    simp only [List.length_append, List.length_cons] at hus
    rcases hl with ⟨hl, hclose⟩ | ⟨next, hstep, hnext⟩
    · obtain ⟨token, close⟩ := l
      obtain rfl : token = .punct mark := hl.trans (by rw [hmark])
      exact ⟨before, [], close, rest, rfl, .none hbefore, by simpa using hclose⟩
    · obtain ⟨ts, x, rest', hsplit, hpos, hx, hreads⟩ := hitem xs (by omega) hstep hnext
      have hlen := congrArg List.length hsplit
      simp only [List.length_cons, List.length_append] at hlen
      rw [hsplit]
      obtain ⟨after, m, rest'', rfl, hafter, hm⟩ := separator_of_reads hreads
      obtain ⟨token, close⟩ := m
      rcases hm with ⟨hm, hclose⟩ | ⟨hm, hcomma⟩
      · obtain rfl : token = .punct mark := hm.trans (by rw [hmark])
        exact ⟨before ++ ts ++ after, [x], close, rest'', by simp, .one hbefore hx hafter, hclose⟩
      · obtain rfl : token = .punct .comma := hm
        simp only [List.length_append, List.length_cons] at hlen
        obtain ⟨ts', xs', close', rest, rfl, hlisted, hclose⟩ :=
          ih (fun xs h => hitem xs (by omega)) (xs ++ [x]) (by omega) hcomma
        exact ⟨before ++ ts ++ after ++ ⟨.punct .comma, close⟩ :: ts', x :: xs', close', rest,
          by simp, .more hbefore hx hafter hlisted, by simpa using hclose⟩

section Items

variable {n : Nat} (hvalue : LeavesValue n)
include hvalue

theorem element_of_stepValue {next : SectionReader} {a : OpenArray} (hus : us.length < n)
    (hstep : r.stepValue (slot.push (.item (.array a))) l = .ok next)
    (h : Reads next us (.ok ss)) :
    ∃ ts v rest, l :: us = ts ++ rest ∧ 0 < ts.length ∧ ValueForm ts v ∧
      Reads (r.moveTo (.separator slot (.array { a with items := a.items ++ [v] }))) rest
        (.ok ss) := by
  obtain ⟨ts, v, rest, hsplit, hv, -, hreads⟩ := hvalue hus hstep h
  exact ⟨ts, v, rest, hsplit, hv.length_pos, hv, hreads⟩

/-- After a token that has to be there, a value is due that does not start a group. -/
theorem value_of_reads {frame : Frame} (hframe : ∀ g, frame ≠ .item g)
    (hts : ts.length ≤ n) (h : Reads (r.moveTo (.value (slot.push frame))) ts (.ok ss)) :
    ∃ before us v rest, ts = before ++ us ++ rest ∧ IsTrivia before ∧ ValueForm us v ∧
      Reads (r.receive (slot.push frame) v) rest (.ok ss) := by
  obtain ⟨before, l, us, next, rfl, hbefore, -, hstep, hnext⟩ :=
    reads_next_of_open rfl rfl (by nofun) h
  have hitem : (r.moveTo (.value (slot.push frame))).stepSettled l =
      (r.moveTo (.value (slot.push frame))).stepValue (slot.push frame) l := by
    cases frame with
    | item g => exact absurd rfl (hframe g)
    | entry d key => rfl
    | pair c key => rfl
    | typeParam t => rfl
  rw [hitem] at hstep
  simp only [List.length_append, List.length_cons] at hts
  obtain ⟨ts, v, rest, hsplit, hv, -, hreads⟩ := hvalue (by omega) hstep hnext
  exact ⟨before, ts, v, rest, by rw [hsplit, List.append_assoc], hbefore, hv, hreads⟩

theorem entry_of_stepValue {next : SectionReader} {d : OpenDict} (hus : us.length < n)
    (hstep : r.stepValue (slot.push (.item (.dict d))) l = .ok next)
    (h : Reads next us (.ok ss)) :
    ∃ ts e rest, l :: us = ts ++ rest ∧ 0 < ts.length ∧ Entry ValueForm ts e ∧
      Reads (r.moveTo (.separator slot (.dict { d with entries := d.entries ++ [e] })))
        rest (.ok ss) := by
  obtain ⟨ks, key, rest, hsplit, hkey, -, hcolon⟩ := hvalue hus hstep h
  obtain ⟨before, ⟨token, colon⟩, rest, next, rfl, hbefore, -, hstep, hnext⟩ :=
    reads_next_of_open rfl rfl (by nofun) hcolon
  obtain ⟨rfl, rfl⟩ := stepMark_eq_ok_iff.mp hstep
  have hlen := congrArg List.length hsplit
  have hpos := hkey.length_pos
  simp only [List.length_append, List.length_cons] at hlen
  obtain ⟨after, vs, value, rest, rfl, hafter, hv, hreads⟩ :=
    value_of_reads hvalue (by nofun) (by omega) hnext
  exact ⟨ks ++ before ++ ⟨.punct .colon, colon⟩ :: (after ++ vs), (key, value), rest,
    by simp [hsplit], by simp only [List.length_append, List.length_cons]; omega,
    .mk hkey hbefore hafter hv, hreads⟩

theorem argument_of_stepValue {next : SectionReader} {c : OpenCall} (hus : us.length < n)
    (hstep : r.stepValue (slot.push (.item (.call c))) l = .ok next)
    (h : Reads next us (.ok ss)) :
    ∃ ts v rest, l :: us = ts ++ rest ∧ 0 < ts.length ∧ Argument ValueForm ts v ∧
      Reads (r.moveTo (.separator slot (.call { c with args := c.args ++ [v] }))) rest
        (.ok ss) := by
  obtain ⟨ks, key, rest, hsplit, hkey, -, hargument⟩ := hvalue hus hstep h
  have hpos := hkey.length_pos
  obtain ⟨before, ⟨token, colon⟩, rest, next, rfl, hbefore, hcounts, hstep, hnext⟩ :=
    reads_next_of_open rfl rfl (by nofun) hargument
  by_cases hcolon : token = .punct .colon
  · subst hcolon
    obtain rfl : _ = next := Except.ok.inj hstep
    have hlen := congrArg List.length hsplit
    simp only [List.length_append, List.length_cons] at hlen
    obtain ⟨after, vs, value, rest, rfl, hafter, hv, hreads⟩ :=
      value_of_reads hvalue (by nofun) (by omega) hnext
    exact ⟨ks ++ before ++ ⟨.punct .colon, colon⟩ :: (after ++ vs), _, rest, by simp [hsplit],
      by simp only [List.length_append, List.length_cons]; omega,
      .pair hkey hbefore hafter hv, hreads⟩
  · refine ⟨ks, key, _, hsplit, hpos, .value hkey, (reads_append_trivia rfl rfl hbefore).mpr ?_⟩
    refine reads_cons.mpr ⟨next, ?_, hnext⟩
    rw [step_of_not_isTrivia rfl hcounts, ← hstep]
    exact (if_neg hcolon).symm

/-- After the bracket of a call come its arguments, up to the closing bracket. -/
theorem arguments_of_reads {start head : Span} {name : String} {param : Option Value}
    (hus : us.length ≤ n)
    (h : Reads (r.moveTo (.value (slot.push (.item (.call ⟨start, head, name, param, []⟩))))) us
      (.ok ss)) :
    ∃ ts args close rest, us = ts ++ ⟨.punct .rightParen, close⟩ :: rest ∧
      Listed (Argument ValueForm) ts args ∧
      Reads (r.receive slot (.call (head.join close) name param args)) rest (.ok ss) :=
  listed_of_reads (fun args => .call ⟨start, head, name, param, args⟩) (fun _ => rfl)
    (fun xs => argument_of_stepValue (c := ⟨start, head, name, param, xs⟩) hvalue) [] hus h

/-- A word that a bracket touches is the name of a call. -/
theorem call_of_reads {w : PlacedWord} (hopens : OpensCall us) (hus : us.length ≤ n)
    (h : Reads { r with word := some (slot, w) } us (.ok ss)) :
    ∃ ts v rest, ⟨.word w.text, w.span⟩ :: us = ts ++ rest ∧ ValueForm ts v ∧ Ends v rest ∧
      Reads (r.receive slot v) rest (.ok ss) := by
  cases us with
  | nil => simp at hopens
  | cons l us =>
    obtain ⟨token, open'⟩ := l
    obtain ⟨next, hstep, hnext⟩ := reads_cons.mp h
    simp only [List.length_cons] at hus
    rcases opensCall_cons.mp hopens with hl | hl
    · obtain rfl : token = .punct .leftParen := hl
      obtain rfl : _ = next := Except.ok.inj hstep
      obtain ⟨ts, args, close, rest, rfl, hargs, hreads⟩ :=
        arguments_of_reads hvalue (by omega) hnext
      exact ⟨_, _, rest, by simp, .call (p := open') (b := close) hargs, by nofun, hreads⟩
    · obtain rfl : token = .punct .leftBracket := hl
      obtain rfl : _ = next := Except.ok.inj hstep
      obtain ⟨before, us', param, rest, rfl, hbefore, hparam, hclose⟩ :=
        value_of_reads hvalue (by nofun) (by omega) hnext
      obtain ⟨after, ⟨token, bracket⟩, rest, next, rfl, hafter, -, hstep, hnext⟩ :=
        reads_next_of_open rfl rfl (by nofun) hclose
      obtain ⟨rfl, rfl⟩ := stepMark_eq_ok_iff.mp hstep
      obtain ⟨⟨token, paren⟩, rest, next, rfl, hstep, hnext⟩ :=
        reads_next_of_tight rfl rfl (by nofun) hnext
      obtain ⟨rfl, rfl⟩ := stepMark_eq_ok_iff.mp hstep
      simp only [List.length_append, List.length_cons] at hus
      obtain ⟨ts, args, close, rest, rfl, hargs, hreads⟩ :=
        arguments_of_reads hvalue (by omega) hnext
      exact ⟨_, _, rest, by simp,
        .typedCall (o := open') (c := bracket) (p := paren) (b := close) hbefore hparam hafter
          hargs, by nofun, hreads⟩

end Items

theorem leavesValue (n : Nat) : LeavesValue n := by
  induction n with
  | zero =>
    intro r next slot l us ss hus
    omega
  | succ n ih =>
    intro r next slot ⟨token, a⟩ us ss hus hstep h
    have hus : us.length ≤ n := by omega
    cases token with
    | string s =>
      obtain rfl : _ = next := Except.ok.inj hstep
      exact ⟨[⟨.string s, a⟩], _, us, rfl, .string, by nofun, h⟩
    | number s =>
      obtain rfl : _ = next := Except.ok.inj hstep
      exact ⟨[⟨.number s, a⟩], _, us, rfl, .number, by nofun, h⟩
    | word w =>
      obtain rfl : _ = next := Except.ok.inj hstep
      by_cases hopens : OpensCall us
      · exact call_of_reads ih hopens hus h
      · exact ⟨[⟨.word w, a⟩], _, us, rfl, .word, fun _ => hopens, (reads_held hopens).mp h⟩
    | punct p =>
      cases p with
      | ampersand =>
        obtain rfl : _ = next := Except.ok.inj hstep
        obtain ⟨s, b, rest, rfl, hreads⟩ := string_of_reads h
        exact ⟨_, _, rest, rfl, .stringName (a := a) (b := b), by nofun, hreads⟩
      | caret =>
        obtain rfl : _ = next := Except.ok.inj hstep
        obtain ⟨s, b, rest, rfl, hreads⟩ := string_of_reads h
        exact ⟨_, _, rest, rfl, .nodePath (a := a) (b := b), by nofun, hreads⟩
      | leftBracket =>
        obtain rfl : _ = next := Except.ok.inj hstep
        obtain ⟨ts, items, b, rest, rfl, hitems, hreads⟩ :=
          listed_of_reads (fun items => .array ⟨a, items⟩) (fun _ => rfl)
            (fun xs => element_of_stepValue (a := ⟨a, xs⟩) ih) [] hus h
        exact ⟨_, _, rest, by simp, .array (a := a) (b := b) hitems, by nofun, hreads⟩
      | leftBrace =>
        obtain rfl : _ = next := Except.ok.inj hstep
        obtain ⟨ts, entries, b, rest, rfl, hentries, hreads⟩ :=
          listed_of_reads (fun entries => .dict ⟨a, entries⟩) (fun _ => rfl)
            (fun xs => entry_of_stepValue (d := ⟨a, xs⟩) ih) [] hus h
        exact ⟨_, _, rest, by simp, .dict (a := a) (b := b) hentries, by nofun, hreads⟩
      | _ => cases hstep
    | comment s => cases hstep
    | space => cases hstep
    | newline => cases hstep

/-! ## Properties, sections and files -/

/-- After the key of a property come the sign and the value. -/
theorem propertyForm_of_reads {header : Option OpenHeader} {key : PlacedWord}
    (h : Reads (r.moveTo (.equals header key)) us (.ok ss)) :
    ∃ ts v rest, us = ts ++ rest ∧ PropertyForm (⟨.word key.text, key.span⟩ :: ts) ⟨key, v⟩ ∧
      Ends v rest ∧ Reads (r.receive ⟨header, key, []⟩ v) rest (.ok ss) := by
  obtain ⟨before, ⟨token, sign⟩, us, next, rfl, hbefore, -, hstep, hnext⟩ :=
    reads_next_of_open rfl rfl (by nofun) h
  obtain ⟨rfl, rfl⟩ := stepMark_eq_ok_iff.mp hstep
  obtain ⟨after, l, us, next, rfl, hafter, -, hstep, hnext⟩ :=
    reads_next_of_open rfl rfl (by nofun) hnext
  obtain ⟨ts, v, rest, hsplit, hv, hends, hreads⟩ :=
    leavesValue (us.length + 1) (Nat.lt_succ_self _) hstep hnext
  refine ⟨before ++ ⟨.punct .equals, sign⟩ :: (after ++ ts), v, rest, by simp [hsplit], ?_,
    hends, hreads⟩
  exact .mk hbefore hafter hv

/-- After the tag of a header come attributes, up to the closing bracket. -/
theorem attributes_of_reads {h : OpenHeader} {n : Nat} (hts : ts.length ≤ n)
    (hreads : Reads (r.moveTo (.header h)) ts (.ok ss)) :
    ∃ as attributes after close rest,
      ts = as ++ after ++ ⟨.punct .rightBracket, close⟩ :: rest ∧ Properties as attributes ∧
        IsTrivia after ∧
        Reads (outside r.done (some ⟨h.tag, h.attributes ++ attributes, [], h.start.join close⟩))
          rest (.ok ss) := by
  induction n generalizing ts h with
  | zero =>
    obtain ⟨before, l, rest, next, rfl, -⟩ := reads_next_of_open rfl rfl (by nofun) hreads
    simp at hts
  | succ n ih =>
    obtain ⟨before, ⟨token, a⟩, rest, next, rfl, hbefore, -, hstep, hnext⟩ :=
      reads_next_of_open rfl rfl (by nofun) hreads
    simp only [List.length_append, List.length_cons] at hts
    cases token with
    | word w =>
      obtain rfl : _ = next := Except.ok.inj hstep
      obtain ⟨us, v, rest, rfl, hp, -, hreads⟩ := propertyForm_of_reads hnext
      simp only [List.length_append] at hts
      obtain ⟨as, attributes, after, close, rest, rfl, has, hafter, hreads⟩ :=
        ih (by omega) hreads
      exact ⟨before ++ (⟨.word w, a⟩ :: us) ++ as, _, after, close, rest, by simp,
        .cons hbefore hp has, hafter, by simpa using hreads⟩
    | punct p =>
      cases p with
      | rightBracket =>
        obtain rfl : _ = next := Except.ok.inj hstep
        exact ⟨[], [], before, a, rest, rfl, .nil, hbefore, by rwa [List.append_nil]⟩
      | _ => cases hstep
    | _ => cases hstep

/-- In the body of a section come properties, and what ends them ends the section. -/
theorem body_of_reads {done : List Section} {s : Section} {n : Nat} (hts : ts.length ≤ n)
    (h : Reads (outside done (some s)) ts (.ok ss)) :
    ∃ ps properties rest, ts = ps ++ rest ∧ Properties ps properties ∧
      (∀ p ∈ properties.getLast?, Ends p.value rest) ∧
      Reads (outside (done ++ [{ s with properties := s.properties ++ properties }]) none)
        rest (.ok ss) := by
  induction n generalizing ts s with
  | zero =>
    obtain rfl : ts = [] := List.length_eq_zero_iff.mp (by omega)
    refine ⟨[], [], [], rfl, .nil, by simp, ?_⟩
    simpa [reads_nil, finish, outside, settle] using h
  | succ n ih =>
    rcases reads_next rfl rfl h with
      ⟨htrivia, hfinish⟩ | ⟨before, ⟨token, a⟩, rest, next, rfl, hbefore, -, hstep, hnext⟩
    · refine ⟨[], [], ts, rfl, .nil, by simp, (reads_of_isTrivia rfl rfl htrivia).mpr ?_⟩
      simpa [finish, outside, settle] using hfinish
    · simp only [List.length_append, List.length_cons] at hts
      cases token with
      | word w =>
        obtain rfl : _ = next := Except.ok.inj hstep
        obtain ⟨us, v, rest, rfl, hp, hends, hreads⟩ := propertyForm_of_reads hnext
        simp only [List.length_append] at hts
        obtain ⟨ps, properties, rest, rfl, hps, hlast, hreads⟩ := ih (by omega) hreads
        refine ⟨before ++ (⟨.word w, a⟩ :: us) ++ ps, ⟨⟨w, a⟩, v⟩ :: properties, rest, by simp,
          .cons hbefore hp hps, ?_, by simpa using hreads⟩
        cases properties with
        | nil =>
          cases hps
          simpa using hends
        | cons p properties => simpa using hlast
      | punct p =>
        cases p with
        | leftBracket =>
          obtain rfl : _ = next := Except.ok.inj hstep
          refine ⟨[], [], _, rfl, .nil, by simp, (reads_append_trivia rfl rfl hbefore).mpr ?_⟩
          refine reads_cons.mpr ⟨_, rfl, ?_⟩
          simpa [outside] using hnext
        | _ => cases hstep
      | _ => cases hstep

theorem sectionForm_of_reads {done : List Section} {open' : Span}
    (h : Reads ⟨done, none, .tag open', none⟩ ts (.ok ss)) :
    ∃ us s rest, ts = us ++ rest ∧ SectionForm (⟨.punct .leftBracket, open'⟩ :: us) s ∧
      (∀ p ∈ s.properties.getLast?, Ends p.value rest) ∧
      Reads (outside (done ++ [s]) none) rest (.ok ss) := by
  obtain ⟨before, ⟨token, a⟩, rest, next, rfl, hbefore, -, hstep, hnext⟩ :=
    reads_next_of_open rfl rfl (by nofun) h
  cases token with
  | word tag =>
    obtain rfl : _ = next := Except.ok.inj hstep
    obtain ⟨as, attributes, after, close, rest, rfl, has, hafter, hbody⟩ :=
      attributes_of_reads (Nat.le_refl _) hnext
    obtain ⟨ps, properties, rest, rfl, hps, hends, hreads⟩ := body_of_reads (Nat.le_refl _) hbody
    exact ⟨_, _, rest, by simp, .mk (b := a) (c := close) hbefore has hafter hps, hends, hreads⟩
  | _ => cases hstep

/-- Where a section is due, the only token that counts is a bracket. -/
theorem stepSettled_outside_none {done : List Section} {next : SectionReader}
    (h : (outside done none).stepSettled l = .ok next) :
    l.token = .punct .leftBracket ∧ next = ⟨done, none, .tag l.span, none⟩ := by
  obtain ⟨token, a⟩ := l
  cases token with
  | punct p =>
    cases p with
    | leftBracket =>
      obtain rfl : _ = next := Except.ok.inj h
      exact ⟨rfl, by simp [outside]⟩
    | _ => cases h
  | _ => cases h

/-- Where a section is due, what no bracket starts is trivia. -/
theorem apart_of_reads {done : List Section} (hopens : ¬ OpensCall ts)
    (h : Reads (outside done none) ts (.ok ss)) : Apart ts := by
  intro l hl
  rcases reads_next rfl rfl h with ⟨htrivia, -⟩ | ⟨before, m, rest, next, rfl, hbefore, -, hm, -⟩
  · exact htrivia l (List.mem_of_mem_head? hl)
  · cases before with
    | nil =>
      exact absurd (opensCall_cons.mpr (.inr (stepSettled_outside_none hm).1)) hopens
    | cons b before =>
      obtain rfl : b = l := by simpa using hl
      exact (isTrivia_cons.mp hbefore).1

/-- A reader between sections that comes to the end has gone through a scene source. The induction
is on the tokens, section by section. -/
theorem sceneForm_of_reads {done : List Section} {n : Nat} (hts : ts.length ≤ n)
    (h : Reads (outside done none) ts (.ok ss)) : ∃ ss', SceneForm ts ss' ∧ ss = done ++ ss' := by
  induction n generalizing ts done with
  | zero =>
    obtain rfl : ts = [] := List.length_eq_zero_iff.mp (by omega)
    exact ⟨[], .none isTrivia_nil, (Except.ok.inj (reads_nil.mp h)).symm⟩
  | succ n ih =>
    rcases reads_next rfl rfl h with
      ⟨htrivia, hfinish⟩ | ⟨before, ⟨token, a⟩, rest, next, rfl, hbefore, -, hstep, hnext⟩
    · exact ⟨[], .none htrivia, (Except.ok.inj hfinish).symm⟩
    · simp only [List.length_append, List.length_cons] at hts
      obtain ⟨rfl, rfl⟩ := stepSettled_outside_none hstep
      obtain ⟨us, s, rest, rfl, hs, hends, hreads⟩ := sectionForm_of_reads hnext
      simp only [List.length_append] at hts
      obtain ⟨ss', hrest, rfl⟩ := ih (by omega) hreads
      have hapart : EndsInWord s → Apart rest := fun ⟨p, hp, hword⟩ =>
        apart_of_reads (hends p hp hword) hreads
      have hscene : SceneForm (before ++ ⟨.punct .leftBracket, a⟩ :: us ++ rest) (s :: ss') :=
        .more hbefore hs hapart hrest
      exact ⟨s :: ss', by simpa using hscene, by simp⟩

end SceneDiagram.SectionReader
