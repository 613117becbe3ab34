import SceneDiagram.Text.Utf8

/-!
# Spans and locations

A span is a range of byte offsets in a source text; a location is a line and a column counted from
one, the column in characters. Offsets beyond the end of a source stand for its end.
-/

namespace SceneDiagram.Text

/-- The range of bytes from `start` up to and without `stop`. -/
structure Span where
  start : Nat
  stop : Nat
deriving Repr, DecidableEq, Inhabited

/-- A line and a column, both counted from one. -/
structure Location where
  line : Nat
  column : Nat
deriving Repr, DecidableEq

/-- A location as it is shown to a reader. -/
def Location.render (l : Location) : String :=
  toString l.line ++ ":" ++ toString l.column

namespace Span

/-- The span of nothing at the start of a source. -/
def zero : Span := ⟨0, 0⟩

/-- The number of bytes in a span. -/
def length (s : Span) : Nat := s.stop - s.start

/-- Whether a span holds no byte. -/
def isEmpty (s : Span) : Bool := s.start == s.stop

/-- The least span that holds two spans. -/
def join (s t : Span) : Span := ⟨min s.start t.start, max s.stop t.stop⟩

/-- The same stretch of text after `n` more bytes. -/
def shift (n : Nat) (s : Span) : Span := ⟨n + s.start, n + s.stop⟩

/-- The characters of a source in a span; none if an end of the span cuts a character in two. -/
def chars (s : Span) (source : List Char) : List Char :=
  let stop := min s.stop (byteLength source)
  let start := min s.start stop
  match splitAtByte? source start with
  | none => []
  | some (_, rest) =>
    match splitAtByte? rest (stop - start) with
    | none => []
    | some (inside, _) => inside

/-- The text of a source in a span. -/
def text (s : Span) (source : String) : String :=
  String.ofList (s.chars source.toList)

end Span

/-- The location just after the given characters. -/
def Location.after (before : List Char) : Location where
  line := before.count '\n' + 1
  column := (before.reverse.takeWhile (· != '\n')).length + 1

/-- The location of an offset in a source. An offset inside a character has no place of its own and
gets the location of the end. -/
def Location.ofOffset (source : List Char) (offset : Nat) : Location :=
  match splitAtByte? source (min offset (byteLength source)) with
  | some (before, _) => .after before
  | none => .after source

/-- The location where a span starts. -/
def Span.location (s : Span) (source : String) : Location :=
  .ofOffset source.toList s.start

end SceneDiagram.Text
