import Scoring.Value

/-!
# Mining schemas

The mining schema of a model lists the fields that the model knows. One of them may
be its target: the name of the output that carries the prediction. Any of them may
declare a literal that takes the place of a missing value
(`MiningSchema.replaceMissing`), before the model sees the row.
-/

namespace Scoring

/-- What a model declares about one field. -/
structure MiningField where
  name : String
  usage : UsageType
  opType : Option OpType
  /-- The literal that takes the place of a missing value. -/
  missingValueReplacement : Option String
  deriving DecidableEq, Repr

/-- What a model declares about its fields. -/
structure MiningSchema where
  fields : List MiningField
  deriving DecidableEq, Repr

/-- The name of the output that carries a prediction when no target is declared. -/
def defaultTarget : String := "predicted"

/-- Whether a field is what the model predicts. -/
def MiningField.isTarget (field : MiningField) : Bool :=
  field.usage = .target || field.usage = .predicted

/-- The row with the field's replacement, if the field is missing and declares one. -/
def MiningField.replaceMissing (field : MiningField) (row : Row) : Row :=
  match field.missingValueReplacement with
  | some literal =>
    if (row.value field.name).isMissing then row.insert field.name (.ofLiteral literal) else row
  | none => row

namespace MiningSchema

/-- The name of the first field that the model predicts. -/
def target? (schema : MiningSchema) : Option String :=
  (schema.fields.find? (·.isTarget)).map (·.name)

/-- The row with the replacements of its missing fields, field by field. -/
def replaceMissing (schema : MiningSchema) (row : Row) : Row :=
  schema.fields.foldl (fun row field => field.replaceMissing row) row

end MiningSchema

end Scoring
