/-!
# Command-line arguments

A command names one project directory and may set options, in any order. An option takes its value
from the same word, after an equals sign or directly after its letter, or from the next word.
Reading stops at the first word that is wrong. An option whose value is a word of its own is only
looked at when the next option or the end is reached, so a wrong word between them comes first.
-/

namespace SceneDiagram

/-- The arguments of a run. -/
structure Arguments where
  projectDir : String
  declarations : Option String
  config : Option String
  dryRun : Bool
  logLevel : String
deriving Repr, DecidableEq

/-- Why a command line does not lead to a run. -/
inductive UsageError where
  | helpRequested
  | versionRequested
  | unknownArgument (word : String)
  /-- An option that has to have a value and has none. -/
  | missingValue (option : String)
  /-- An option that is given twice. -/
  | repeated (option : String)
  /-- A value for an option that takes none. -/
  | unexpectedValue (option value : String)
  | missingProject
deriving Repr, DecidableEq

namespace Arguments

/-- The options that take a value. -/
inductive ValueOption where
  | declarations
  | config
  | logLevel
deriving Repr, DecidableEq

/-- The options that take no value. -/
inductive Flag where
  | dryRun
  | help
  | version
deriving Repr, DecidableEq

/-- An option that a name or a letter stands for. -/
inductive Meaning where
  | value (o : ValueOption)
  | flag (f : Flag)
deriving Repr, DecidableEq

/-- The long name of an option with a value. -/
def ValueOption.name : ValueOption → String
  | declarations => "--declarations"
  | config => "--config"
  | logLevel => "--log-level"

/-- The option that a long name stands for. -/
def longName? (name : String) : Option Meaning :=
  match name with
  | "declarations" => some (.value .declarations)
  | "config" => some (.value .config)
  | "log-level" => some (.value .logLevel)
  | "dry-run" => some (.flag .dryRun)
  | "help" => some (.flag .help)
  | "version" => some (.flag .version)
  | _ => none

/-- The option that a letter stands for. -/
def letter? (c : Char) : Option Meaning :=
  if c = 'd' then some (.value .declarations)
  else if c = 'c' then some (.value .config)
  else if c = 'h' then some (.flag .help)
  else if c = 'V' then some (.flag .version)
  else none

/-- What has been read of a command line. -/
structure Draft where
  project : Option String
  declarations : Option String
  config : Option String
  logLevel : Option String
  dryRun : Bool
  /-- The option that was read last, with its value if that has been read, too. -/
  pending : Option (ValueOption × Option String)
  /-- Whether every further word is meant as it stands. -/
  verbatim : Bool
deriving Repr, DecidableEq

namespace Draft

/-- The draft before the first word. -/
def empty : Draft := ⟨none, none, none, none, false, none, false⟩

/-- The value that an option has been given. -/
def get (d : Draft) : ValueOption → Option String
  | .declarations => d.declarations
  | .config => d.config
  | .logLevel => d.logLevel

/-- Gives an option its value. -/
def set (d : Draft) (o : ValueOption) (value : String) : Draft :=
  match o with
  | .declarations => { d with declarations := some value }
  | .config => { d with config := some value }
  | .logLevel => { d with logLevel := some value }

/-- Gives an option its value, once. -/
def assign (d : Draft) (o : ValueOption) (value : String) : Except UsageError Draft :=
  if (d.get o).isSome then .error (.repeated o.name) else .ok (d.set o value)

/-- Settles the option that was read last. -/
def settle (d : Draft) : Except UsageError Draft :=
  match d.pending with
  | none => .ok d
  | some (o, none) => .error (.missingValue o.name)
  | some (o, some value) => { d with pending := none }.assign o value

/-- Reads an option with a value, which may stand in the same word. -/
def takeOption (d : Draft) (o : ValueOption) (attached : Option String) :
    Except UsageError Draft := do
  let d ← d.settle
  match attached with
  | some value => d.assign o value
  | none => .ok { d with pending := some (o, none) }

/-- Reads an option without a value. -/
def takeFlag (d : Draft) (f : Flag) : Except UsageError Draft := do
  let d ← d.settle
  match f with
  | .help => .error .helpRequested
  | .version => .error .versionRequested
  | .dryRun => if d.dryRun then .error (.repeated "--dry-run") else .ok { d with dryRun := true }

/-- Reads a word after two hyphens, with what follows its equals sign. -/
def takeLong (d : Draft) (word : String) (cs : List Char) : Except UsageError Draft :=
  let name := String.ofList (cs.takeWhile (· != '='))
  let attached :=
    match cs.dropWhile (· != '=') with
    | [] => none
    | _ :: value => some (String.ofList value)
  match longName? name, attached with
  | none, _ => .error (.unknownArgument word)
  | some (.value o), attached => d.takeOption o attached
  | some (.flag _), some value => .error (.unexpectedValue ("--" ++ name) value)
  | some (.flag f), none => d.takeFlag f

/-- Reads the letters after one hyphen. The letters after an option with a value are its value. -/
def takeLetters (d : Draft) (word : String) : List Char → Except UsageError Draft
  | [] => .ok d
  | c :: cs =>
    match letter? c with
    | none => .error (.unknownArgument word)
    | some (.value o) =>
      d.takeOption o <|
        match cs with
        | [] => none
        | '=' :: value => some (String.ofList value)
        | value => some (String.ofList value)
    | some (.flag f) => do (← d.takeFlag f).takeLetters word cs

/-- Reads a word that is no option. -/
def takePlain (d : Draft) (word : String) : Except UsageError Draft :=
  if d.project.isSome then .error (.unknownArgument word)
  else do
    let d ← d.settle
    .ok { d with project := some word }

/-- Reads one word. -/
def take (d : Draft) (word : String) : Except UsageError Draft :=
  if d.verbatim then d.takePlain word
  else
    match word.toList with
    | ['-', '-'] => .ok { d with verbatim := true }
    | '-' :: '-' :: cs => d.takeLong word cs
    | '-' :: c :: cs => d.takeLetters word (c :: cs)
    | _ =>
      match d.pending with
      | some (o, none) => .ok { d with pending := some (o, some word) }
      | _ => d.takePlain word

/-- The arguments of a command line that has been read to its end. -/
def finish (d : Draft) : Except UsageError Arguments := do
  let d ← d.settle
  match d.project with
  | none => .error .missingProject
  | some projectDir =>
    .ok
      { projectDir
        declarations := d.declarations
        config := d.config
        dryRun := d.dryRun
        logLevel := d.logLevel.getD "info" }

end Draft

/-- Reads the words of a command line, without the name of the program. -/
def parse (words : List String) : Except UsageError Arguments := do
  (← words.foldlM Draft.take .empty).finish

end Arguments

end SceneDiagram
