import SceneDiagram.Project

/-!
# Reports

What a user is shown about a problem. A scene that cannot be read gives one report for each finding
in it, with labels on the source; any other problem gives one report without a source.
-/

namespace SceneDiagram

/-- What keeps a run or a scene from being completed. -/
inductive Problem where
  /-- A file could not be read or written. -/
  | io (cause : String)
  | scene (failure : SceneFailure)
  /-- A diagram could not be put together. -/
  | drawing (cause : String)
  | config (cause : String)
deriving Repr, DecidableEq

namespace Problem

/-- The problem of a text that could not be formatted. -/
def unformatted : Problem := drawing "an error occurred when formatting an argument"

/-- A problem in one line. -/
def render : Problem → String
  | io cause => "I/O error: " ++ cause
  | scene f => f.file.path ++ ": " ++ f.error.render
  | drawing cause => "Export error: " ++ cause
  | config cause => "Configuration error: " ++ cause

end Problem

/-- A label of a report: a stretch of the source by offset and length. -/
structure ReportLabel where
  message : String
  offset : Nat
  length : Nat
  primary : Bool
deriving Repr, DecidableEq

/-- What a user is shown about a problem. -/
structure Report where
  message : String
  code : Option String
  severity : Option Severity
  help : Option String
  /-- The source that the labels lie in. -/
  source : Option SceneFile
  /-- What a problem comes from, where that is known apart from the problem. -/
  cause : Option String
  labels : List ReportLabel
deriving Repr, DecidableEq

namespace Report

/-- The report of a label. -/
def ofLabel (l : Label) : ReportLabel := ⟨l.message, l.span.start, l.span.length, l.primary⟩

/-- The report of a finding in a scene. -/
def ofDiagnostic (file : SceneFile) (d : Diagnostic) : Report where
  message := d.message
  code := d.code.map (·.number)
  severity := some d.severity
  help := d.help
  source := some file
  cause := none
  labels := d.labels.map ofLabel

/-- The report of a problem without a source. -/
def plain (p : Problem) (code : String) (cause : Option String) : Report where
  message := p.render
  code := some code
  severity := none
  help := none
  source := none
  cause := cause
  labels := []

/-- A report as plain text: the problem with its code, then each label with the place where it
starts, the cause and the help, a line each. -/
def render (r : Report) : String :=
  let place (l : ReportLabel) : String :=
    r.source.elim "" fun f =>
      f.path ++ ":" ++ (Text.Location.ofOffset f.text.toList l.offset).render ++ ": "
  "\n".intercalate <|
    (r.code.elim "" (· ++ ": ") ++ r.message) ::
      r.labels.map (fun l => "  " ++ place l ++ l.message) ++
      (r.cause.map ("  cause: " ++ ·)).toList ++
      (r.help.map ("  help: " ++ ·)).toList

end Report

/-- The reports of a problem. -/
def Problem.reports (p : Problem) : List Report :=
  match p with
  | io cause => [.plain p "canopy::io" (some cause)]
  | scene f => f.error.diagnostics.map (.ofDiagnostic f.file)
  | drawing _ => [.plain p "canopy::export" none]
  | config _ => [.plain p "canopy::config" none]

end SceneDiagram
