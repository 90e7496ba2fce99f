import Scoring.Json.Decode

/-!
# Loading

Whatever is loaded comes as a JSON text: the text is read with the `JsonReader` that there
is, everything in it that is nested too deep becomes unreadable, and what is left is
decoded. A text is refused as a whole, without a word on the place of the fault.
-/

namespace Scoring

/-- Why something could not be loaded. -/
inductive LoadError
  /-- A text is not what it should be. -/
  | text
  /-- A file is not there. -/
  | missingFile (path : String)
  /-- A file does not hold what it should. -/
  | malformedFile (path : String)
  deriving DecidableEq, Repr

/-- The wording of a load error. -/
def LoadError.message : LoadError → String
  | text => "Load error: <string>: Failed to parse"
  | missingFile path => "Load error: " ++ path ++ ": Failed to open file"
  | malformedFile path => "Load error: " ++ path ++ ": Failed to parse file"

/-- What a JSON value says, if it is not nested too deep where it matters. -/
def load? {α : Type} (decode : Json → Option α) (v : Json) : Option α :=
  decode (v.clip Json.maxLevels)

section

variable [JsonReader] {α : Type}

/-- What a JSON text says. -/
def loadText? (decode : Json → Option α) (text : String) : Option α :=
  (JsonReader.read? text).bind (load? decode)

/-- What a file says, given the contents of the files that are there. -/
def loadFile (decode : Json → Option α) (files : String → Option String)
    (path : String) : Except LoadError α :=
  match files path with
  | none => .error (.missingFile path)
  | some text => match loadText? decode text with
    | some a => .ok a
    | none => .error (.malformedFile path)

end

end Scoring
