/-!
# Relations

Entities are related in three ways. A graph holds at most one edge for each source, target and
relation, in the order in which the edges were added; an edge that is already there is refused, and
the first one stays.

Beside its edges a graph keeps two tables: where the edges that leave an entity are, and where those
that reach it are. Every question about one entity is answered from its row.
-/

namespace SceneDiagram

/-- How one entity is related to another. -/
inductive Relation where
  /-- The source contains the target. -/
  | child
  /-- The target is injected into the source. -/
  | dependency
  /-- The source provides a value of the target's type. -/
  | provision
deriving Repr, DecidableEq

/-- The word for a relation. -/
def Relation.render : Relation → String
  | child => "child"
  | dependency => "dependency"
  | provision => "provision"

/-- An edge, with the member that it comes from. -/
structure Edge (α : Type) where
  source : α
  target : α
  relation : Relation
  member : Option String
deriving Repr, DecidableEq

/-- Places of edges, in rows that belong to one end of the edges. -/
abbrev Adjacency (α : Type) : Type :=
  List (α × List Nat)

namespace Adjacency

variable {α : Type} [DecidableEq α]

/-- The row of an end. -/
def places : Adjacency α → α → List Nat
  | [], _ => []
  | (key, row) :: rows, a => if key = a then row else places rows a

/-- Puts a place at the end of a row. -/
def file : Adjacency α → α → Nat → Adjacency α
  | [], a, place => [(a, [place])]
  | (key, row) :: rows, a, place =>
    if key = a then (key, row ++ [place]) :: rows else (key, row) :: file rows a place

end Adjacency

/-- A graph of relations. -/
structure RelationGraph (α : Type) where
  edges : List (Edge α)
  /-- The places of the edges that leave an entity. -/
  leaving : Adjacency α
  /-- The places of the edges that reach an entity. -/
  arriving : Adjacency α
deriving Repr

/-- An edge that is refused because the graph has one like it, and the place of that one among the
edges. -/
structure DuplicateEdge (α : Type) where
  source : α
  target : α
  relation : Relation
  existing : Nat
deriving Repr, DecidableEq

/-- What is said about a refused edge, given what its ends are called. -/
def DuplicateEdge.render (call : α → String) (d : DuplicateEdge α) : String :=
  "duplicate " ++ d.relation.render ++ " edge " ++ call d.source ++ " -> " ++ call d.target

namespace RelationGraph

variable {α : Type} [DecidableEq α]

/-- The graph without edges. -/
def empty : RelationGraph α := ⟨[], [], []⟩

/-- The number of edges. -/
def size (g : RelationGraph α) : Nat := g.edges.length

/-- The edges at some places. -/
def stored (g : RelationGraph α) (places : List Nat) : List (Edge α) :=
  places.filterMap (g.edges[·]?)

/-- The edges that leave a source, in the order in which they were added. -/
def outgoing (g : RelationGraph α) (source : α) (relation : Relation) : List (Edge α) :=
  (g.stored (g.leaving.places source)).filter fun e => e.relation = relation

/-- The edges that reach a target, in the order in which they were added. -/
def incoming (g : RelationGraph α) (target : α) (relation : Relation) : List (Edge α) :=
  (g.stored (g.arriving.places target)).filter fun e => e.relation = relation

/-- What a source is related to. -/
def targets (g : RelationGraph α) (source : α) (relation : Relation) : List α :=
  (g.outgoing source relation).map (·.target)

/-- What is related to a target. -/
def sources (g : RelationGraph α) (target : α) (relation : Relation) : List α :=
  (g.incoming target relation).map (·.source)

/-- The place of the edge between two ends. Only the edges that leave the source are looked at. -/
def place? (g : RelationGraph α) (source target : α) (relation : Relation) : Option Nat :=
  (g.leaving.places source).find? fun i =>
    g.edges[i]?.any fun e => e.target = target && e.relation = relation

/-- The edge between two ends. -/
def find? (g : RelationGraph α) (source target : α) (relation : Relation) : Option (Edge α) :=
  (g.place? source target relation).bind (g.edges[·]?)

/-- Whether two ends are related in a given way. -/
def contains (g : RelationGraph α) (source target : α) (relation : Relation) : Bool :=
  (g.find? source target relation).isSome

/-- The member that an edge comes from. -/
def member? (g : RelationGraph α) (source target : α) (relation : Relation) : Option String :=
  (g.find? source target relation).bind (·.member)

/-- Adds an edge, whose place among the edges is the size of the graph so far. -/
def add (g : RelationGraph α) (e : Edge α) : Except (DuplicateEdge α) (RelationGraph α) :=
  match g.place? e.source e.target e.relation with
  | some existing => .error ⟨e.source, e.target, e.relation, existing⟩
  | none =>
    .ok ⟨g.edges ++ [e], g.leaving.file e.source g.size, g.arriving.file e.target g.size⟩

end RelationGraph

end SceneDiagram
