import SceneDiagram.Proofs.Diagram.Reference

/-!
# Drawing as a traversal

`Traversal` gives the rules of drawing: entities are drawn one after another, those that are drawn
already are passed over, and an entity is marked before its children are drawn inside it. The rules
carry no bound and say nothing of the entities of the index. They leave no choice
(`Traversal.unique`), and drawing always comes to an end with what they say (`traversal_iff`), be
the references cyclic or not: that each entity is drawn once is what bounds it.
-/

namespace SceneDiagram.Drawing

variable (ctx : DiagramContext) (facets : List Facet)

/-- The block of an entity around the blocks nested in it. An entity without children is a class
alone. -/
def enclose (e : Entity) (enclosing : List String) (nested : List Block) : Block :=
  match children ctx facets e enclosing with
  | [] => .single (classBlock ctx facets e)
  | cs =>
    .package (if e.isScene then "Scene" else "Type") (ctx.linker.link e.file)
      (classBlock ctx facets e) nested (cs.map (arrow ctx facets e enclosing))

/-- The rules of drawing entities inside others: which blocks come of it, and which names are drawn
afterwards if some are drawn before. -/
inductive Traversal :
    List Entity → List String → List String → List Block → List String → Prop
  /-- Nothing is left to draw. -/
  | done {enclosing drawn : List String} : Traversal [] enclosing drawn [] drawn
  /-- An entity that is drawn already is passed over. -/
  | skip {e : Entity} {es : List Entity} {enclosing drawn last : List String}
      {blocks : List Block} : e.name ∈ drawn → Traversal es enclosing drawn blocks last →
      Traversal (e :: es) enclosing drawn blocks last
  /-- Any other entity is marked, its children are drawn inside it, and then what is left. -/
  | draw {e : Entity} {es : List Entity} {enclosing drawn mid last : List String}
      {nested blocks : List Block} : e.name ∉ drawn →
      Traversal (children ctx facets e enclosing) (e.name :: enclosing) (e.name :: drawn) nested
        mid → Traversal es enclosing mid blocks last →
      Traversal (e :: es) enclosing drawn (enclose ctx facets e enclosing nested :: blocks) last

variable {ctx facets} {e : Entity} {es : List Entity} {enclosing drawn last undrawn : List String}
  {blocks nested : List Block}

/-- The rules leave no choice. -/
theorem Traversal.unique {blocks' : List Block} {last' : List String}
    (h : Traversal ctx facets es enclosing drawn blocks last)
    (h' : Traversal ctx facets es enclosing drawn blocks' last') :
    blocks = blocks' ∧ last = last' := by
  induction h generalizing blocks' last' with
  | done =>
    cases h'
    exact ⟨rfl, rfl⟩
  | skip hdrawn _ ih =>
    cases h' with
    | skip _ hrest => exact ih hrest
    | draw hnot => exact absurd hdrawn hnot
  | draw hnot _ _ ihnested ihrest =>
    cases h' with
    | skip hdrawn => exact absurd hdrawn hnot
    | draw _ hnested hrest =>
      obtain ⟨rfl, rfl⟩ := ihnested hnested
      obtain ⟨rfl, rfl⟩ := ihrest hrest
      exact ⟨rfl, rfl⟩

theorem Traversal.nested_eq_nil (h : Traversal ctx facets [] enclosing drawn blocks last) :
    blocks = [] := by
  cases h
  rfl

theorem own_enclose : (enclose ctx facets e enclosing nested).own = classBlock ctx facets e := by
  unfold enclose
  split <;> rfl

/-! ## What is left to draw -/

/-- The names that are left are those of the index that are not drawn yet, each once. -/
def Complement (ctx : DiagramContext) (undrawn drawn : List String) : Prop :=
  undrawn.Nodup ∧ ∀ name ∈ ctx.index.names, name ∈ undrawn ↔ name ∉ drawn

/-- Marking a name takes it from those that are left. -/
theorem Complement.erase {name : String} (h : Complement ctx undrawn drawn) :
    Complement ctx (undrawn.erase name) (name :: drawn) := by
  refine ⟨h.1.erase name, fun other hother => ?_⟩
  rw [h.1.mem_erase_iff, h.2 other hother, List.mem_cons, not_or]

/-- Drawing an entity is drawing its children inside it. -/
theorem draw_eq (ctx : DiagramContext) (facets : List Facet) (e : Entity)
    (enclosing undrawn : List String) :
    (draw ctx facets e enclosing undrawn).1 = enclose ctx facets e enclosing
        (drawAll ctx facets (children ctx facets e enclosing) (e.name :: enclosing) undrawn).1 ∧
      (draw ctx facets e enclosing undrawn).2.1 =
        (drawAll ctx facets (children ctx facets e enclosing) (e.name :: enclosing)
          undrawn).2.1 := by
  rw [draw, enclose]
  cases children ctx facets e enclosing with
  | nil =>
    rw [drawAll]
    exact ⟨rfl, rfl⟩
  | cons c cs => exact ⟨rfl, rfl⟩

/-- Drawing follows the rules. The recursion is that of drawing: an entity that is drawn leaves one
name less for what is nested in it and for what follows it. -/
theorem drawAll_traverses (facets : List Facet) (es : List Entity)
    (enclosing undrawn drawn : List String) (hleft : Complement ctx undrawn drawn)
    (hes : ∀ e ∈ es, e ∈ ctx.index.entities) :
    ∃ last,
      Traversal ctx facets es enclosing drawn (drawAll ctx facets es enclosing undrawn).1 last ∧
        Complement ctx (drawAll ctx facets es enclosing undrawn).2.1 last := by
  match es with
  | [] =>
    rw [drawAll]
    exact ⟨drawn, .done, hleft⟩
  | e :: es =>
    have hname := hleft.2 e.name (List.mem_map_of_mem (hes e List.mem_cons_self))
    have hrest : ∀ x ∈ es, x ∈ ctx.index.entities := fun x hx => hes x (List.mem_cons_of_mem e hx)
    by_cases h : e.name ∈ undrawn
    · have hlt : (undrawn.erase e.name).length < undrawn.length := by
        have := List.length_pos_of_mem h
        rw [List.length_erase_of_mem h]
        omega
      obtain ⟨hblock, hmid⟩ := draw_eq ctx facets e enclosing (undrawn.erase e.name)
      have hle := (draw ctx facets e enclosing (undrawn.erase e.name)).2.2
      obtain ⟨mid, hnested, hcomp⟩ := drawAll_traverses facets (children ctx facets e enclosing)
        (e.name :: enclosing) (undrawn.erase e.name) (e.name :: drawn) hleft.erase
        fun c hc => mem_of_mem_children hc
      rw [← hmid] at hcomp
      obtain ⟨last, hothers, hlast⟩ := drawAll_traverses facets es enclosing
        (draw ctx facets e enclosing (undrawn.erase e.name)).2.1 mid hcomp hrest
      rw [drawAll, dif_pos h]
      refine ⟨last, ?_, hlast⟩
      dsimp only
      rw [hblock]
      exact .draw (hname.mp h) hnested hothers
    · obtain ⟨last, htrav, hlast⟩ := drawAll_traverses facets es enclosing undrawn drawn hleft hrest
      rw [drawAll, dif_neg h]
      exact ⟨last, .skip (not_not.mp fun hnot => h (hname.mpr hnot)) htrav, hlast⟩
termination_by (undrawn.length, es.length)
decreasing_by
  · exact Prod.Lex.left _ _ hlt
  · exact Prod.Lex.left _ _ (Nat.lt_of_le_of_lt hle hlt)
  · exact Prod.Lex.right _ (Nat.lt_succ_self _)

/-- The diagram of an entity is what the rules make of it, and nothing else is. -/
theorem traversal_iff {b : Block} :
    (∃ last, Traversal ctx facets [e] [] [] [b] last) ↔ b = e.diagram ctx facets := by
  have unique : ctx.index.names.Nodup := ctx.index.names_nodup
  have hleft : Complement ctx (ctx.index.names.erase e.name) [e.name] := by
    refine ⟨unique.erase _, fun name hname => ?_⟩
    rw [unique.mem_erase_iff, List.mem_singleton]
    exact and_iff_left hname
  obtain ⟨last, hnested, _⟩ := drawAll_traverses facets
    (children ctx facets e []) [e.name] _ _ hleft fun c hc => mem_of_mem_children hc
  have htrav : Traversal ctx facets [e] [] [] [e.diagram ctx facets] last := by
    rw [Entity.diagram, (draw_eq ctx facets e [] _).1]
    exact .draw List.not_mem_nil hnested .done
  constructor
  · rintro ⟨last', h⟩
    exact (List.cons.inj (h.unique htrav).1).1
  · rintro rfl
    exact ⟨last, htrav⟩

end SceneDiagram.Drawing
