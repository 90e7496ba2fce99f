import Scoring.Check
import Scoring.Format.Model
import Scoring.Input
import Scoring.Json.Reader
import Scoring.Json.Text
import Scoring.Threads

/-!
# The command line

Two commands work on files. `score` scores the rows of a file and writes the outputs
of each as a line of JSON; `check` compares one output with a file of expected values
and writes the rows that do not match.

A command is a function of the contents of the files (`Command.run`). Its `Report`
holds the lines to write and the exit code: 0 if all is well, 1 if rows failed or did
not match, 2 if the command could not be carried out.
-/

namespace Scoring

/-- What the command line asks for. -/
inductive Command
  | score (model rows : String) (config : Option String)
  | check (model rows expected output : String) (config : Option String)
  deriving DecidableEq, Repr

/-- Why a command could not be carried out. -/
inductive CommandError
  | load (error : LoadError)
  /-- A file of rows or expected values is not there. -/
  | missingFile
  | input (error : InputError)
  | length (error : Check.LengthMismatch)

/-- The wording of a command error. -/
def CommandError.message : CommandError → String
  | load error => error.message
  | missingFile => "IO error: No such file or directory (os error 2)"
  | input error => error.message
  | length error => error.message

/-- A line of output. -/
inductive OutputLine
  /-- The outputs of a row, which may be none. -/
  | outputs (outputs : Option Outputs)
  | text (text : String)

/-- The JSON value of the outputs of a row. -/
def OutputLine.jsonOfOutputs (outputs : Option Outputs) : Json := Json.ofOption Row.toJson outputs

/-- A line of output as it is written. -/
def OutputLine.render : OutputLine → String
  | outputs o => (jsonOfOutputs o).text
  | text s => s

/-- What a command has to say. -/
structure Report where
  code : Nat
  output : List OutputLine
  errors : List String

namespace Command

/-! ### Arguments -/

/-- The arguments of a command, sorted into options and others. -/
structure Arguments where
  positional : List String := []
  output : Option String := none
  config : Option String := none

/-- The option that an argument names, by its letter. -/
def optionName? : String → Option Char
  | "-o" | "--output" => some 'o'
  | "-c" | "--config" => some 'c'
  | _ => none

/-- Arguments with an option set; no option may be set twice. -/
def Arguments.set? (arguments : Arguments) (option : Char) (value : String) : Option Arguments :=
  match option, arguments with
  | 'o', { output := none, .. } => some { arguments with output := some value }
  | 'c', { config := none, .. } => some { arguments with config := some value }
  | _, _ => none

/-- An argument that holds an option together with its value, as `--output=name` and
    `-oname` do. -/
def joinedOption? (argument : String) : Option (Char × String) :=
  let valueAfter (start : String) : Option String :=
    if start.toList.isPrefixOf argument.toList then
      some (String.ofList (argument.toList.drop start.length))
    else none
  ((valueAfter "--output=").map ('o', ·)).or <|
  ((valueAfter "--config=").map ('c', ·)).or <|
  ((valueAfter "-o=").map ('o', ·)).or <|
  ((valueAfter "-c=").map ('c', ·)).or <|
  ((valueAfter "-o").map ('o', ·)).or <|
  (valueAfter "-c").map ('c', ·)

/-- Arguments sorted into options, with their values, and others. Whatever comes after
    `--` is no option. -/
def Arguments.ofList? (arguments : Arguments) : List String → Option Arguments
  | [] => some arguments
  | "--" :: rest => some { arguments with positional := arguments.positional ++ rest }
  | argument :: rest =>
    match optionName? argument, rest with
    | some option, value :: rest => (arguments.set? option value).bind (ofList? · rest)
    | some _, [] => none
    | none, rest =>
      match joinedOption? argument with
      | some (option, value) => (arguments.set? option value).bind (ofList? · rest)
      | none =>
        if argument.startsWith "-" && argument ≠ "-" then none
        else ofList? { arguments with positional := arguments.positional ++ [argument] } rest

/-- The command that a list of arguments asks for. -/
def ofArgs? : List String → Option Command
  | "score" :: rest => do
    match ← Arguments.ofList? {} rest with
    | { positional := [model, rows], output := none, config } => some (score model rows config)
    | _ => none
  | "check" :: rest => do
    match ← Arguments.ofList? {} rest with
    | { positional := [model, rows, expected], output := some output, config } =>
      some (check model rows expected output config)
    | _ => none
  | _ => none

/-- The files that a command reads. -/
def paths : Command → List String
  | score model rows config => config.toList ++ [model, rows]
  | check model rows expected _ config => config.toList ++ [model, rows, expected]

/-! ### Running -/

/-- What a command reads first: its settings and its model. -/
def loadModel (files : String → Option String) (config : Option String) (model : String) :
    Except CommandError (BatchSettings × Model) := do
  let settings ← match config with
    | none => .ok .default
    | some path => (loadFile BatchSettings.ofJson? files path).mapError .load
  let document ← (loadFile Document.ofJson? files model).mapError .load
  .ok (settings, document.model)

/-- The content of a file of rows or expected values, as a reader has it. -/
def readFile {α : Type} (files : String → Option String) (read : String → Except InputError α)
    (path : String) : Except CommandError α :=
  match files path with
  | none => .error .missingFile
  | some text => (read text).mapError .input

/-- The line that is written for the result of a row. -/
def resultLine : Outcome (Option Outputs) → OutputLine
  | .ok outputs => .outputs outputs
  | .error _ => .outputs none

/-- The message for a row that failed. -/
def failureLine? : Outcome (Option Outputs) × Nat → Option String
  | (.ok _, _) => none
  | (.error failure, row) => some <|
    "row " ++ toString row ++ ": " ++ failure.kind.name ++ " error: " ++ failure.message

/-- The report on the results of rows. -/
def scoreReport (results : List (Outcome (Option Outputs))) : Report :=
  let errors := results.zipIdx.filterMap failureLine?
  ⟨if errors.isEmpty then 0 else 1, results.map resultLine, errors⟩

/-- The line that is written for a row that does not match. -/
def mismatchLine (output : String) (row : Nat) (mismatch : Mismatch) : String :=
  let start (expected : Float) : String :=
    "failed on " ++ toString row ++ ", expected " ++ Number.text expected ++ ", "
  match mismatch with
  | .differs expected actual => start expected ++ "got " ++ Number.text actual
  | .notNumeric expected => start expected ++ "output " ++ output ++ " is not numeric"
  | .noResult expected => start expected ++ "got no result"
  | .failed expected report =>
    start expected ++ report.kind.name ++ " error: " ++ report.message

/-- The report on the mismatches among so many rows. -/
def checkReport (output : String) (rows : Nat) (mismatches : List (Nat × Mismatch)) : Report :=
  let total := toString (rows - mismatches.length) ++ " of " ++ toString rows ++ " rows match"
  ⟨if mismatches.isEmpty then 0 else 1,
    (mismatches.map fun (row, mismatch) => .text (mismatchLine output row mismatch)) ++
      [.text total], []⟩

/-- The report of a command that can be carried out. -/
def run? (files : String → Option String) : Command → Except CommandError Report
  | score model rows config => do
    let (settings, model) ← loadModel files config model
    let rows ← readFile files Input.rows rows
    .ok (scoreReport (Batch.score settings model rows))
  | check model rows expected output config => do
    let (settings, model) ← loadModel files config model
    let rows ← readFile files Input.rows rows
    let expected ← readFile files Input.expected expected
    let mismatches ← (Scoring.check settings model rows expected output).mapError .length
    .ok (checkReport output rows.length mismatches)

/-- The report of a command, given the contents of the files that are there. -/
def run (files : String → Option String) (command : Command) : Report :=
  match run? files command with
  | .ok report => report
  | .error error => ⟨2, [], ["Error: " ++ error.message]⟩

end Command

end Scoring
