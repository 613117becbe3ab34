import SceneDiagram.Text.Span

/-!
# Spans that cut a text into parts

The stretch of text between two offsets, spans that lie one right after another, and what becomes
of spans when a text is read somewhere else.
-/

namespace SceneDiagram.Text

variable {before inside after cs : List Char} {k m n : Nat} {a b : Span} {ss ts : List Span}

/-- The length of a text in bytes is that of its encoding. -/
theorem byteLength_toList (s : String) : byteLength s.toList = s.utf8ByteSize := by
  have hlist : ∀ cs : List Char, byteLength cs = (String.ofList cs).utf8ByteSize := by
    intro cs
    induction cs with
    | nil => rfl
    | cons c cs ih =>
      have hcons : String.ofList (c :: cs) = String.singleton c ++ String.ofList cs := by
        rw [String.singleton_eq_ofList, ← String.ofList_append]
        rfl
      rw [hcons, String.utf8ByteSize_append, byteLength_cons, ih, String.utf8ByteSize_singleton]
  rw [hlist, String.ofList_toList]

/-- The end of a first part of a text is a boundary of its encoding. -/
theorem isValid_byteLength {s : String} (h : s.toList = before ++ after) :
    String.Pos.Raw.IsValid s ⟨byteLength before⟩ := by
  refine String.Pos.Raw.isValid_iff_exists_append.mpr
    ⟨String.ofList before, String.ofList after, ?_, ?_⟩
  · rw [← String.ofList_append, ← h, String.ofList_toList]
  · rw [String.Pos.Raw.ext_iff, String.byteIdx_rawEndPos, ← byteLength_toList,
      String.toList_ofList]

/-- Both ends of a span are boundaries of a source, so that the span cuts no character in two. -/
def Span.Cuts (a : Span) (s : String) : Prop :=
  String.Pos.Raw.IsValid s ⟨a.start⟩ ∧ String.Pos.Raw.IsValid s ⟨a.stop⟩

/-- The offset at the end of a first part of a text is located just after that part. -/
theorem Location.ofOffset_byteLength (before after : List Char) :
    Location.ofOffset (before ++ after) (byteLength before) = .after before := by
  have hmin : min (byteLength before) (byteLength (before ++ after)) = byteLength before := by
    rw [byteLength_append]
    omega
  rw [ofOffset, hmin, splitAtByte?_byteLength]

theorem byteLength_pos (h : cs ≠ []) : 0 < byteLength cs := by
  obtain ⟨c, cs, rfl⟩ := List.exists_cons_of_ne_nil h
  have hpos := c.utf8Size_pos
  simp only [byteLength_cons]
  omega

namespace Span

/-- A span whose ends are the ends of a part of a text holds that part. -/
theorem chars_of_append (hstart : a.start = byteLength before)
    (hstop : a.stop = byteLength before + byteLength inside) :
    a.chars (before ++ inside ++ after) = inside := by
  have hlen : byteLength (before ++ inside ++ after) =
      byteLength before + byteLength inside + byteLength after := by
    simp only [byteLength_append]
  have hstop' : min a.stop (byteLength (before ++ inside ++ after)) =
      byteLength before + byteLength inside := by omega
  have hstart' : min a.start (byteLength before + byteLength inside) = byteLength before := by omega
  have hcut : splitAtByte? (before ++ inside ++ after) (byteLength before) =
      some (before, inside ++ after) := by
    rw [List.append_assoc]
    exact splitAtByte?_byteLength before (inside ++ after)
  have hwidth : byteLength before + byteLength inside - byteLength before = byteLength inside := by
    omega
  simp only [chars, hstop', hstart', hcut, hwidth, splitAtByte?_byteLength]

/-- The same stretch of text before `n` bytes of it. -/
def back (n : Nat) (s : Span) : Span := ⟨s.start - n, s.stop - n⟩

theorem back_join (n : Nat) (s t : Span) : (s.join t).back n = (s.back n).join (t.back n) := by
  simp only [back, join, mk.injEq]
  omega

theorem shift_join (n : Nat) (s t : Span) : (s.join t).shift n = (s.shift n).join (t.shift n) := by
  simp only [shift, join, mk.injEq]
  omega

end Span

/-- Spans that are not empty and lie between two offsets, each of which ends where the next one
begins. -/
inductive Abut : Nat → List Span → Nat → Prop
  | nil {n : Nat} : Abut n [] n
  | cons {n m k : Nat} {ss : List Span} : n < m → Abut m ss k → Abut n (⟨n, m⟩ :: ss) k

namespace Abut

theorem append_iff : Abut n (ss ++ ts) m ↔ ∃ k, Abut n ss k ∧ Abut k ts m := by
  induction ss generalizing n with
  | nil =>
    constructor
    · exact fun h => ⟨n, .nil, h⟩
    · rintro ⟨k, hss, hts⟩
      cases hss
      exact hts
  | cons a ss ih =>
    constructor
    · intro h
      cases h with
      | cons hlt h =>
        obtain ⟨k, hss, hts⟩ := ih.mp h
        exact ⟨k, .cons hlt hss, hts⟩
    · rintro ⟨k, hss, hts⟩
      cases hss with
      | cons hlt hss => exact .cons hlt (ih.mpr ⟨k, hss, hts⟩)

theorem le (h : Abut n ss m) : n ≤ m := by
  induction h with
  | nil => exact Nat.le_refl _
  | cons hlt _ ih => omega

theorem lt (h : Abut n ss m) (hne : ss ≠ []) : n < m := by
  cases h with
  | nil => exact absurd rfl hne
  | cons hlt h =>
    have hle := h.le
    omega

theorem start_eq (h : Abut n (a :: ss) m) : a.start = n := by
  cases h
  rfl

theorem singleton_eq (h : Abut n [a] m) : a = ⟨n, m⟩ := by
  cases h with
  | cons _ hnil =>
    cases hnil
    rfl

/-- The first two spans can be taken for one. -/
theorem join_head (h : Abut n (a :: b :: ss) m) : Abut n (a.join b :: ss) m := by
  cases h with
  | @cons _ k _ _ hfirst h =>
    cases h with
    | @cons _ l _ _ hsecond h =>
      have hjoin : (Span.mk n k).join ⟨k, l⟩ = ⟨n, l⟩ := by
        simp only [Span.join, Span.mk.injEq]
        omega
      rw [hjoin]
      exact .cons (by omega) h

/-- All spans together reach from the first to the last. -/
theorem join_eq (h : Abut n (a :: (ss ++ [b])) m) : a.join b = ⟨n, m⟩ := by
  cases h with
  | cons hfirst h =>
    obtain ⟨l, hss, hlast⟩ := append_iff.mp h
    cases hlast with
    | cons hlt hnil =>
      cases hnil
      have hle := hss.le
      simp only [Span.join, Span.mk.injEq]
      omega

/-- A span and the last one together reach from the first of the two to the end. -/
theorem join_getLast (h : Abut n ss m) (ha : a ∈ ss) (hb : b ∈ ss.getLast?) :
    a.join b = ⟨a.start, m⟩ := by
  obtain ⟨before, after, rfl⟩ := List.append_of_mem ha
  obtain ⟨k, -, htail⟩ := append_iff.mp h
  rcases List.eq_nil_or_concat after with rfl | ⟨between, c, rfl⟩
  · obtain rfl : a = b := by simpa using hb
    cases htail with
    | cons _ hnil =>
      cases hnil
      simp [Span.join]
  · obtain rfl : c = b := by simpa [List.getLast?_cons] using hb
    rw [List.concat_eq_append] at htail
    rw [htail.join_eq]
    cases htail
    rfl

end Abut

/-- Spans that are not empty and lie between two offsets, none of which starts before the last one
ends. -/
inductive Ascending : Nat → List Span → Nat → Prop
  | nil {n m : Nat} : n ≤ m → Ascending n [] m
  | cons {n m : Nat} {a : Span} {ss : List Span} :
      n ≤ a.start → a.start < a.stop → Ascending a.stop ss m → Ascending n (a :: ss) m

namespace Ascending

theorem mono_left (h : Ascending k ss m) (hn : n ≤ k) : Ascending n ss m := by
  cases h with
  | nil hm => exact .nil (Nat.le_trans hn hm)
  | cons hstart hlt h => exact .cons (Nat.le_trans hn hstart) hlt h

theorem append (hss : Ascending n ss k) (hts : Ascending k ts m) : Ascending n (ss ++ ts) m := by
  induction hss with
  | nil hn => exact hts.mono_left hn
  | cons hstart hlt _ ih => exact .cons hstart hlt (ih hts)

theorem mono_right (h : Ascending n ss k) (hm : k ≤ m) : Ascending n ss m := by
  have hspans := h.append (.nil hm)
  rwa [List.append_nil] at hspans

end Ascending

end SceneDiagram.Text
