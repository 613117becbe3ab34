import SceneDiagram.Text.Span

/-!
# Diagnostics

A diagnostic is one finding about a source text: how grave it is, an optional code, a message,
labels on stretches of the source and an optional hint. A reading that fails gives a `ParseError`,
the findings of the phase that failed in the order in which they were made.
-/

namespace SceneDiagram

open Text

/-- How grave a finding is: an error prevents the result, a warning does not. -/
inductive Severity where
  | error
  | warning
deriving Repr, DecidableEq

/-- The word for a severity. -/
def Severity.render : Severity → String
  | .error => "error"
  | .warning => "warning"

/-- The kinds of error that a scene source can have. -/
inductive Code where
  | unterminatedString
  | unexpectedCharacter
  | invalidEscape
  | unexpectedToken
  | incompleteInput
  | missingRoot
  | duplicateRoot
  | unknownResource
deriving Repr, DecidableEq

namespace Code

/-- The phase of reading that finds a kind of error. -/
inductive Phase where
  | lexical
  | syntactic
  | structural
deriving Repr, DecidableEq

/-- The phase in which a kind of error arises. -/
def phase : Code → Phase
  | unterminatedString | unexpectedCharacter | invalidEscape => .lexical
  | unexpectedToken | incompleteInput => .syntactic
  | missingRoot | duplicateRoot | unknownResource => .structural

/-- The number of a code as it is shown: the first digit is the phase. -/
def number : Code → String
  | unterminatedString => "E001"
  | unexpectedCharacter => "E002"
  | invalidEscape => "E003"
  | unexpectedToken => "E100"
  | incompleteInput => "E101"
  | missingRoot => "E200"
  | duplicateRoot => "E201"
  | unknownResource => "E202"

/-- What a code means, in short. -/
def description : Code → String
  | unterminatedString => "unterminated string literal"
  | unexpectedCharacter => "unexpected character"
  | invalidEscape => "invalid escape sequence"
  | unexpectedToken => "unexpected token"
  | incompleteInput => "incomplete input"
  | missingRoot => "missing root node"
  | duplicateRoot => "duplicate root node"
  | unknownResource => "unknown external resource"

/-- All codes, in the order of their numbers. -/
def all : List Code :=
  [unterminatedString, unexpectedCharacter, invalidEscape, unexpectedToken, incompleteInput,
    missingRoot, duplicateRoot, unknownResource]

/-- The code with a given number. -/
def ofNumber? (number : String) : Option Code :=
  all.find? (·.number == number)

end Code

/-- A message about a stretch of the source. The primary label marks where the problem is, a
secondary one a place that belongs to it. -/
structure Label where
  primary : Bool
  span : Span
  message : String
deriving Repr, DecidableEq

/-- One finding about a source text. -/
structure Diagnostic where
  severity : Severity
  code : Option Code
  message : String
  labels : List Label
  help : Option String
deriving Repr, DecidableEq

namespace Diagnostic

/-- The line that names a finding: severity, code and message. -/
def render (d : Diagnostic) : String :=
  d.severity.render ++ (d.code.elim "" fun c => "[" ++ c.number ++ "]") ++ ": " ++ d.message

/-- The span of the first primary label. -/
def primarySpan? (d : Diagnostic) : Option Span :=
  (d.labels.find? (·.primary)).map (·.span)

end Diagnostic

/-- The findings of a reading that failed. -/
structure ParseError where
  diagnostics : List Diagnostic
deriving Repr, DecidableEq

namespace ParseError

/-- The first finding and the number of the others. -/
def render (e : ParseError) : String :=
  match e.diagnostics with
  | [] => ""
  | [first] => first.render
  | first :: others => first.render ++ " (+" ++ toString others.length ++ " more)"

/-- The first primary span of all findings. -/
def primarySpan? (e : ParseError) : Option Span :=
  e.diagnostics.findSome? (·.primarySpan?)

end ParseError

end SceneDiagram
