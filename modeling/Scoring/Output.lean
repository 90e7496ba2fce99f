import Scoring.Value

/-!
# Output fields

A model may declare output fields: further names under which its prediction is
reported. A field of the feature `predictedValue` or `predictedDisplayValue`
repeats the prediction or another output (`Output.fillPredicted`). A field with a
`value` stands for one class, and takes over what the results hold under that
class.

The results of an ensemble go through all of its output fields at the end
(`Output.finish`): classes move to the fields that stand for them, probabilities
are divided by their total, and the prediction is repeated.
-/

namespace Scoring

/-- A name under which something of a prediction is reported. -/
structure OutputField where
  name : String
  opType : Option OpType
  dataType : Option DataType
  feature : ResultFeature
  /-- The class that the field stands for. -/
  value : Option String
  /-- The output that a predicted value repeats. -/
  targetField : Option String
  segmentId : Option String
  deriving DecidableEq, Repr

/-- The output fields of a model. -/
structure Output where
  fields : List OutputField
  deriving DecidableEq, Repr

namespace OutputField

/-- Whether the field repeats a prediction. -/
def isPredicted (field : OutputField) : Bool :=
  field.feature = .predictedValue || field.feature = .predictedDisplayValue

/-- Whether the field reports the probability of a class. -/
def isProbability (field : OutputField) : Bool := field.feature = .probability

/-- Whether the values of the field count toward the total of the probabilities. -/
def isContinuous (field : OutputField) : Bool :=
  field.opType = some .continuous || field.dataType = some .double || field.dataType = some .float

/-- The outputs with the field's repetition: of its target field if the outputs have
    that, and of the prediction otherwise. -/
def fill (predicted : Value) (outputs : Outputs) (field : OutputField) : Outputs :=
  outputs.insert field.name ((field.targetField.bind outputs.get?).getD predicted)

/-- The results after the value of the field's class has moved under the field's name,
    beside the total of the numbers that moved to continuous fields. -/
def move (state : Outputs × Float) (field : OutputField) : Outputs × Float :=
  let (results, total) := state
  match field.value.bind fun key => (results.get? key).map (key, ·) with
  | none => state
  | some (key, value) =>
    ((results.erase key).insert field.name value,
      if field.isContinuous then total + value.number?.getD 0 else total)

/-- The results after the number under the field's name has been divided by a total,
    if that is positive. What is not a number counts as zero. -/
def share (total : Float) (results : Outputs) (field : OutputField) : Outputs :=
  let x := ((results.get? field.name).bind Value.number?).getD 0
  results.insert field.name (.number (if 0 < total then x / total else x))

end OutputField

namespace Output

/-- The first field that stands for a class. -/
def fieldForValue? (output : Output) (value : String) : Option OutputField :=
  output.fields.find? (·.value = some value)

/-- The fields that repeat a prediction. -/
def predictedFields (output : Output) : List OutputField := output.fields.filter (·.isPredicted)

/-- The fields that report probabilities. -/
def probabilityFields (output : Output) : List OutputField := output.fields.filter (·.isProbability)

/-- The outputs with a prediction repeated under the fields that ask for it, in their
    order. -/
def fillPredicted (output : Option Output) (predicted : Value) (outputs : Outputs) : Outputs :=
  match output with
  | none => outputs
  | some output => output.predictedFields.foldl (OutputField.fill predicted) outputs

/-- The results of an ensemble as its output fields report them, given the name of the
    output that carries the prediction. -/
def finish (output : Option Output) (primary : String) (results : Outputs) : Outputs :=
  match output with
  | none => results
  | some fields =>
    -- Classes move one field at a time, so a later field may take what an earlier one put there.
    let (results, total) := fields.fields.foldl OutputField.move (results, 0)
    let results := fields.probabilityFields.foldl (OutputField.share total) results
    match results.get? primary with
    | none => results
    | some predicted => fillPredicted output predicted results

end Output

end Scoring
