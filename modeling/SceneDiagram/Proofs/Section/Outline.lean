import SceneDiagram.Proofs.Section.Grammar
import SceneDiagram.Proofs.Text.Span

/-!
# Where the parts of a syntax tree stand

Every value in a source is made of consecutive tokens of it (`argument_of_occurs`), and its span
reaches from the first of these to the last (`Argument.span_eq`). So the parts of a value lie inside
it, one after another and apart, and so do the parts of a header and the sections of a file.
-/

namespace SceneDiagram

open Text Grammar

/-! ## The parts of values and sections -/

/-- The values that a value is directly made of, in the order in which they are written. -/
def Value.children : Value → List Value
  | .call _ _ typeParam args => typeParam.toList ++ args
  | .array _ items => items
  | .pair _ key entry => [key, entry]
  | .dict _ entries => entries.flatMap fun (key, entry) => [key, entry]
  | _ => []

/-- A value is another one or occurs in a part of it. -/
inductive Value.Occurs (v : Value) : Value → Prop
  | self : Occurs v v
  | child {c w : Value} : c ∈ w.children → Occurs v c → Occurs v w

/-- The values of a section, in its header and in its body. -/
def Section.values (s : Section) : List Value :=
  (s.attributes ++ s.properties).map (·.value)

/-- Where the key of a property stands, and where its value. -/
def Property.outline (p : Property) : List Span := [p.key.span, p.value.span]

/-- Where the parts of a header stand. -/
def Section.headerOutline (s : Section) : List Span :=
  s.tag.span :: s.attributes.flatMap (·.outline)

/-- Where the header of a section stands, and where the parts of its body. -/
def Section.outline (s : Section) : List Span :=
  s.headerSpan :: s.properties.flatMap (·.outline)

variable {ts us : List Lexeme} {v c w : Value} {p : Property} {s : Section} {ps : List Property}
  {ss : List Section} {n m : Nat}

/-! ## Parts are made of consecutive tokens -/

namespace Grammar

theorem Listed.exists_infix {α : Type} {form : List Lexeme → α → Prop} {xs : List α} {x : α}
    (h : Listed form ts xs) (hx : x ∈ xs) : ∃ us, us <:+: ts ∧ form us x := by
  induction h with
  | none _ => cases hx
  | @one before us after y hbefore hy hafter =>
    obtain rfl := List.mem_singleton.mp hx
    exact ⟨us, ⟨before, after, rfl⟩, hy⟩
  | @more before us after rest comma y ys hbefore hy hafter _ ih =>
    rcases List.mem_cons.mp hx with rfl | hx
    · exact ⟨us, ⟨before, after ++ ⟨.punct .comma, comma⟩ :: rest, by simp⟩, hy⟩
    · obtain ⟨us', hinfix, hform⟩ := ih hx
      refine ⟨us', hinfix.trans ⟨before ++ us ++ after ++ [⟨.punct .comma, comma⟩], [], ?_⟩, hform⟩
      simp

theorem Entry.exists_infix {form : List Lexeme → Value → Prop} {e : Value × Value}
    (h : Entry form ts e) (hc : c = e.1 ∨ c = e.2) : ∃ us, us <:+: ts ∧ form us c := by
  cases h with
  | @mk ks before after vs colon key value hkey _ _ hvalue =>
    rcases hc with rfl | rfl
    · exact ⟨ks, ⟨[], before ++ ⟨.punct .colon, colon⟩ :: (after ++ vs), by simp⟩, hkey⟩
    · exact ⟨vs, ⟨ks ++ before ++ ⟨.punct .colon, colon⟩ :: after, [], by simp⟩, hvalue⟩

theorem infix_enclosed (a b : Lexeme) : ts <:+: a :: (ts ++ [b]) :=
  List.infix_cons (List.prefix_append ts [b]).isInfix

/-- The tokens of a part of a value are some consecutive ones of the value. -/
theorem ValueForm.exists_infix_of_child (h : ValueForm ts v) (hc : c ∈ v.children) :
    ∃ us, us <:+: ts ∧ Argument ValueForm us c := by
  cases h with
  | string | stringName | nodePath | number | word => cases hc
  | array h =>
    obtain ⟨us, hinfix, hform⟩ := h.exists_infix hc
    exact ⟨us, hinfix.trans (infix_enclosed _ _), .value hform⟩
  | dict h =>
    obtain ⟨e, he, hce⟩ := List.mem_flatMap.mp hc
    obtain ⟨us, hinfix, hentry⟩ := h.exists_infix he
    obtain ⟨us', hinfix', hform⟩ := hentry.exists_infix (by simpa using hce)
    exact ⟨us', (hinfix'.trans hinfix).trans (infix_enclosed _ _), .value hform⟩
  | call h =>
    obtain ⟨us, hinfix, hform⟩ := h.exists_infix hc
    exact ⟨us, hinfix.trans (List.infix_cons (infix_enclosed _ _)), hform⟩
  | @typedCall a b o cl pa name before us after args' param args _ hparam _ h =>
    rcases List.mem_append.mp hc with hc | hc
    · obtain rfl : c = param := by simpa using hc
      have hinfix : us <:+: before ++ us ++ after ++ ⟨.punct .rightBracket, cl⟩ ::
          ⟨.punct .leftParen, pa⟩ :: (args' ++ [⟨.punct .rightParen, b⟩]) :=
        ((List.infix_append before us after).trans (List.prefix_append _ _).isInfix)
      exact ⟨us, List.infix_cons (List.infix_cons hinfix), .value hparam⟩
    · obtain ⟨us', hinfix, hform⟩ := h.exists_infix hc
      have hargs := hinfix.trans (infix_enclosed ⟨.punct .leftParen, pa⟩ ⟨.punct .rightParen, b⟩)
      have htail : us' <:+: before ++ us ++ after ++ ⟨.punct .rightBracket, cl⟩ ::
          ⟨.punct .leftParen, pa⟩ :: (args' ++ [⟨.punct .rightParen, b⟩]) :=
        (List.infix_cons hargs).trans (List.suffix_append (before ++ us ++ after) _).isInfix
      exact ⟨us', List.infix_cons (List.infix_cons htail), hform⟩

theorem Argument.exists_infix_of_child (h : Argument ValueForm ts v) (hc : c ∈ v.children) :
    ∃ us, us <:+: ts ∧ Argument ValueForm us c := by
  cases h with
  | value hv => exact hv.exists_infix_of_child hc
  | @pair ks before after vs colon key value hkey hbefore hafter hvalue =>
    have hentry : Entry ValueForm (ks ++ before ++ ⟨.punct .colon, colon⟩ :: (after ++ vs))
        (key, value) := .mk hkey hbefore hafter hvalue
    obtain ⟨us, hinfix, hform⟩ := hentry.exists_infix (by simpa [Value.children] using hc)
    exact ⟨us, hinfix, .value hform⟩

/-- The tokens of a value that occurs in another one are some consecutive ones of it. -/
theorem argument_of_occurs (h : v.Occurs w) (hw : Argument ValueForm ts w) :
    ∃ us, us <:+: ts ∧ Argument ValueForm us v := by
  induction h generalizing ts with
  | self => exact ⟨ts, List.infix_rfl, hw⟩
  | child hc _ ih =>
    obtain ⟨us, hinfix, hform⟩ := hw.exists_infix_of_child hc
    obtain ⟨us', hinfix', hform'⟩ := ih hform
    exact ⟨us', hinfix'.trans hinfix, hform'⟩

theorem Properties.exists_infix (h : Properties ts ps) (hp : p ∈ ps) :
    ∃ us, us <:+: ts ∧ ValueForm us p.value := by
  induction h with
  | nil => cases hp
  | @cons before ts rest q ps _ hq _ ih =>
    rcases List.mem_cons.mp hp with rfl | hp
    · cases hq with
      | @mk a e key before' after us v _ _ hv =>
        exact ⟨us, ⟨before ++ ⟨.word key, a⟩ :: (before' ++ ⟨.punct .equals, e⟩ :: after), rest,
          by simp⟩, hv⟩
    · obtain ⟨us, hinfix, hform⟩ := ih hp
      exact ⟨us, hinfix.trans (List.suffix_append _ _).isInfix, hform⟩

theorem SectionForm.exists_infix (h : SectionForm ts s) (hv : v ∈ s.values) :
    ∃ us, us <:+: ts ∧ ValueForm us v := by
  cases h with
  | @mk a b c tag before as after ps attributes properties _ has _ hps =>
    obtain ⟨p, hp, rfl⟩ := List.mem_map.mp hv
    rcases List.mem_append.mp hp with hp | hp
    · obtain ⟨us, hinfix, hform⟩ := has.exists_infix hp
      refine ⟨us, hinfix.trans ⟨⟨.punct .leftBracket, a⟩ :: (before ++ [⟨.word tag, b⟩]),
        after ++ ⟨.punct .rightBracket, c⟩ :: ps, by simp⟩, hform⟩
    · obtain ⟨us, hinfix, hform⟩ := hps.exists_infix hp
      refine ⟨us, hinfix.trans ⟨⟨.punct .leftBracket, a⟩ :: (before ++ ⟨.word tag, b⟩ ::
        (as ++ after ++ [⟨.punct .rightBracket, c⟩])), [], by simp⟩, hform⟩

theorem FileForm.exists_infix {followed : Section → List Lexeme → Prop}
    (h : FileForm followed ts ss) (hs : s ∈ ss) : ∃ us, us <:+: ts ∧ SectionForm us s := by
  induction h with
  | none _ => cases hs
  | @more before us rest s' ss _ hs' _ _ ih =>
    rcases List.mem_cons.mp hs with rfl | hs
    · exact ⟨us, ⟨before, rest, rfl⟩, hs'⟩
    · obtain ⟨us', hinfix, hform⟩ := ih hs
      exact ⟨us', hinfix.trans (List.suffix_append _ _).isInfix, hform⟩

/-! ## Parts stand one after another -/

/-- Where the tokens of a form stand, the given parts of what it stands for stand in order. -/
def Orders {α : Type} (form : List Lexeme → α → Prop) (parts : α → List Span) : Prop :=
  ∀ {us x n m}, form us x → Abut n (us.map (·.span)) m → Ascending n (parts x) m

/-- A form between other tokens has its parts between the ends of all. -/
theorem Orders.between {α : Type} {form : List Lexeme → α → Prop} {parts : α → List Span}
    (hform : Orders form parts) (before after : List Lexeme) {x : α} (hx : form us x)
    (habut : Abut n ((before ++ us ++ after).map (·.span)) m) : Ascending n (parts x) m := by
  simp only [List.map_append, Abut.append_iff] at habut
  obtain ⟨l, ⟨k, hbefore, hus⟩, hafter⟩ := habut
  exact ((hform hx hus).mono_left hbefore.le).mono_right hafter.le

theorem Orders.listed {α : Type} {form : List Lexeme → α → Prop} {parts : α → List Span}
    (hform : Orders form parts) : Orders (Listed form) fun xs => xs.flatMap parts := by
  intro ts xs n m h habut
  induction h generalizing n with
  | none _ => exact .nil habut.le
  | one _ hx _ => simpa using hform.between _ _ hx habut
  | more _ hx _ _ ih =>
    rw [List.map_append, Abut.append_iff] at habut
    obtain ⟨k, hfirst, hrest⟩ := habut
    rw [List.map_cons] at hrest
    cases hrest with
    | cons hlt hrest =>
      have hitem := (hform.between _ _ hx hfirst).mono_right (Nat.le_of_lt hlt)
      exact hitem.append (ih hrest)

/-- A value stands where its tokens do. -/
theorem ValueForm.span_eq (h : ValueForm ts v) (habut : Abut n (ts.map (·.span)) m) :
    v.span = ⟨n, m⟩ := by
  cases h with
  | string | number | word =>
    cases habut with
    | cons _ hnil =>
      cases hnil
      rfl
  | @stringName a b _ | @nodePath a b _ =>
    have henclosed : Abut n (a :: ([] ++ [b])) m := habut
    exact henclosed.join_eq
  | array _ | dict _ =>
    rw [List.map_cons, List.map_append] at habut
    exact habut.join_eq
  | @call a b p w ts args _ =>
    have henclosed : Abut n (a :: (p :: ts.map (·.span) ++ [b])) m := by simpa using habut
    exact henclosed.join_eq
  | @typedCall a b o c p w before us after ts param args _ _ _ _ =>
    have henclosed : Abut n (a.join o :: ((before ++ us ++ after).map (·.span) ++ c :: p ::
        ts.map (·.span) ++ [b])) m := Abut.join_head (by simpa using habut)
    exact henclosed.join_eq

theorem ValueForm.orders : Orders ValueForm fun v => [v.span] := by
  intro ts v n m hv habut
  have hlt := habut.lt (by simpa using List.ne_nil_of_length_pos hv.length_pos)
  simp only [hv.span_eq habut]
  exact .cons (Nat.le_refl _) hlt (.nil (Nat.le_refl _))

/-- A key and a value with a colon between them stand in order, and together they stand where the
tokens do. -/
theorem Entry.orders {e : Value × Value} (h : Entry ValueForm ts e)
    (habut : Abut n (ts.map (·.span)) m) :
    Ascending n [e.1.span, e.2.span] m ∧ e.1.span.join e.2.span = ⟨n, m⟩ := by
  cases h with
  | @mk ks before after vs colon key value hkey _ _ hvalue =>
    rw [List.append_assoc, List.map_append, Abut.append_iff] at habut
    obtain ⟨k, hks, hrest⟩ := habut
    have hgap : Abut k ((before ++ ⟨.punct .colon, colon⟩ :: after ++ vs).map (·.span)) m := by
      simpa using hrest
    rw [List.map_append, Abut.append_iff] at hgap
    obtain ⟨l, hbetween, hvs⟩ := hgap
    have hle := hbetween.le
    have hkeys := (ValueForm.orders hkey hks).mono_right hle
    refine ⟨hkeys.append (ValueForm.orders hvalue hvs), ?_⟩
    have hn := hks.le
    have hm := hvs.le
    rw [hkey.span_eq hks, hvalue.span_eq hvs]
    simp only [Span.join, Span.mk.injEq]
    omega

theorem Argument.span_eq (h : Argument ValueForm ts v) (habut : Abut n (ts.map (·.span)) m) :
    v.span = ⟨n, m⟩ := by
  cases h with
  | value hv => exact hv.span_eq habut
  | @pair ks before after vs colon key value hkey hbefore hafter hvalue =>
    exact (Entry.mk hkey hbefore hafter hvalue).orders habut |>.2

theorem Argument.orders : Orders (Argument ValueForm) fun v => [v.span] := by
  intro ts v n m hv habut
  have hne : ts ≠ [] := by
    cases hv with
    | value hv => exact List.ne_nil_of_length_pos hv.length_pos
    | pair => simp
  have hlt := habut.lt (by simpa using hne)
  simp only [hv.span_eq habut]
  exact .cons (Nat.le_refl _) hlt (.nil (Nat.le_refl _))

/-- The parts of a value stand inside it, one after another and apart. -/
theorem ValueForm.children_ascending (h : ValueForm ts v) (habut : Abut n (ts.map (·.span)) m) :
    Ascending n (v.children.map (·.span)) m := by
  have hvalues : Orders (Listed ValueForm) fun vs => vs.map (·.span) := by
    intro us vs n m h habut
    simpa [List.map_eq_flatMap] using ValueForm.orders.listed h habut
  have hargs : Orders (Listed (Argument ValueForm)) fun vs => vs.map (·.span) := by
    intro us vs n m h habut
    simpa [List.map_eq_flatMap] using Argument.orders.listed h habut
  have hentries : Orders (Listed (Entry ValueForm))
      fun es => es.flatMap fun e => [e.1.span, e.2.span] :=
    Orders.listed fun h habut => (h.orders habut).1
  cases h with
  | string | stringName | nodePath | number | word => exact .nil habut.le
  | array h => exact hvalues.between [_] [_] h habut
  | dict h =>
    have hparts := hentries.between [_] [_] h habut
    simpa [Value.children, List.map_flatMap] using hparts
  | call h => exact hargs.between [_, _] [_] h habut
  | @typedCall a b o c p w before us after ts param args _ hparam _ h =>
    have hsplit : Abut n (List.map Lexeme.span
        ((⟨.word w, a⟩ :: ⟨.punct .leftBracket, o⟩ :: before) ++ us ++ after ++
          ([⟨.punct .rightBracket, c⟩, ⟨.punct .leftParen, p⟩] ++ ts ++
            [⟨.punct .rightParen, b⟩]))) m := by simpa using habut
    rw [List.map_append, Abut.append_iff] at hsplit
    obtain ⟨k, hfirst, hsecond⟩ := hsplit
    exact (ValueForm.orders.between _ _ hparam hfirst).append (hargs.between _ _ h hsecond)

theorem Argument.children_ascending (h : Argument ValueForm ts v)
    (habut : Abut n (ts.map (·.span)) m) : Ascending n (v.children.map (·.span)) m := by
  cases h with
  | value hv => exact hv.children_ascending habut
  | pair hkey hbefore hafter hvalue => exact ((Entry.mk hkey hbefore hafter hvalue).orders habut).1

/-! ## Headers, bodies and files -/

theorem PropertyForm.orders : Orders PropertyForm Property.outline := by
  intro ts p n m hp habut
  cases hp with
  | @mk a e key before after us v _ _ hv =>
    rw [List.map_cons] at habut
    cases habut with
    | @cons _ k _ _ hlt habut =>
      have hgap : Abut k
          (List.map Lexeme.span (before ++ ⟨.punct .equals, e⟩ :: after ++ us ++ [])) m := by
        simpa using habut
      exact .cons (Nat.le_refl _) hlt (ValueForm.orders.between _ _ hv hgap)

theorem Properties.orders : Orders Properties fun ps => ps.flatMap (·.outline) := by
  intro ts ps n m h habut
  induction h generalizing n with
  | nil => exact .nil habut.le
  | @cons before us rest p ps _ hp _ ih =>
    rw [List.map_append, Abut.append_iff] at habut
    obtain ⟨k, hfirst, hrest⟩ := habut
    rw [← List.append_nil (before ++ us)] at hfirst
    exact (PropertyForm.orders.between _ _ hp hfirst).append (ih hrest)

/-- A section is its header and the properties after it. The header stands where its tokens do, and
its parts stand inside it. -/
theorem SectionForm.exists_header (h : SectionForm ts s) :
    ∃ hs ps, ts = hs ++ ps ∧ SectionForm hs { s with properties := [] } ∧
      Properties ps s.properties ∧ ∀ {n m}, Abut n (hs.map (·.span)) m →
        s.headerSpan = ⟨n, m⟩ ∧ n < m ∧ Ascending n s.headerOutline m := by
  cases h with
  | @mk a b c tag before as after ps attributes properties hbefore has hafter hps =>
    refine ⟨_, ps, by simp, .mk (c := c) hbefore has hafter .nil, hps, fun {n m} habut => ?_⟩
    have henclosed : Abut n (a :: (List.map Lexeme.span (before ++ ⟨.word tag, b⟩ :: (as ++ after)) ++
        [c])) m := by simpa using habut
    have hparts : Abut n (List.map Lexeme.span (⟨.punct .leftBracket, a⟩ :: before) ++
        b :: List.map Lexeme.span ([] ++ as ++ (after ++ [⟨.punct .rightBracket, c⟩]))) m := by
      simpa using habut
    refine ⟨henclosed.join_eq, henclosed.lt (by simp), ?_⟩
    obtain ⟨k, hopen, hrest⟩ := Abut.append_iff.mp hparts
    cases hrest with
    | cons hlt hrest =>
      exact .cons hopen.le hlt (Properties.orders.between _ _ has hrest)

theorem SectionForm.orders : Orders SectionForm Section.outline := by
  intro ts s n m h habut
  obtain ⟨hs, ps, rfl, -, hps, hheader⟩ := h.exists_header
  rw [List.map_append, Abut.append_iff] at habut
  obtain ⟨k, hhs, hrest⟩ := habut
  obtain ⟨hspan, hlt, -⟩ := hheader hhs
  rw [Section.outline, hspan]
  exact .cons (Nat.le_refl _) hlt (Properties.orders hps hrest)

theorem FileForm.orders {followed : Section → List Lexeme → Prop} :
    Orders (FileForm followed) fun ss => ss.flatMap (·.outline) := by
  intro ts ss n m h habut
  induction h generalizing n with
  | none _ => exact .nil habut.le
  | @more before us rest s ss _ hs _ _ ih =>
    rw [List.map_append, Abut.append_iff] at habut
    obtain ⟨k, hfirst, hrest⟩ := habut
    rw [← List.append_nil (before ++ us)] at hfirst
    exact (SectionForm.orders.between _ _ hs hfirst).append (ih hrest)

end Grammar

end SceneDiagram
