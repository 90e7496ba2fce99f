import Scoring.Json.Decode
import Scoring.Output
import Scoring.Schema

/-!
# The format of schemas and outputs

A mining schema and an output are objects with one list of fields each. A schema
that is not there has no fields, whereas an output may be lacking.
-/

namespace Scoring

open Json (required withDefault optional ofOption ofMember)

/-- The mining field that a JSON value describes. -/
def MiningField.ofJson? (v : Json) : Option MiningField := do
  let members ← v.fields? ["name", "usageType", "optype", "missingValueReplacement"]
  let name ← required "name" Json.string? members
  let usage ← withDefault "usageType" .active Json.member? members
  let opType ← optional "optype" Json.member? members
  let replacement ← withDefault "missingValueReplacement" none Json.optionalLiteral? members
  some ⟨name, usage, opType, replacement⟩

/-- A mining field as a JSON value. -/
def MiningField.toJson (field : MiningField) : Json := .object [
  ("name", .string field.name), ("usageType", ofMember field.usage),
  ("optype", ofOption ofMember field.opType),
  ("missingValueReplacement", ofOption .string field.missingValueReplacement)]

/-- The schema that a JSON value describes. -/
def MiningSchema.ofJson? (v : Json) : Option MiningSchema := do
  let members ← v.fields? ["miningFields"]
  let fields ← withDefault "miningFields" [] (Json.list? MiningField.ofJson?) members
  some ⟨fields⟩

/-- A schema as a JSON value. -/
def MiningSchema.toJson (schema : MiningSchema) : Json := .object [
  ("miningFields", .array (schema.fields.map (·.toJson)))]

/-- The output field that a JSON value describes. -/
def OutputField.ofJson? (v : Json) : Option OutputField := do
  let members ← v.fields? [
    "name", "optype", "dataType", "feature", "value", "targetField", "segmentId"]
  let name ← required "name" Json.string? members
  let opType ← optional "optype" Json.member? members
  let dataType ← optional "dataType" Json.member? members
  let feature ← withDefault "feature" .predictedValue Json.member? members
  let value ← withDefault "value" none Json.optionalLiteral? members
  let targetField ← optional "targetField" Json.string? members
  let segmentId ← optional "segmentId" Json.string? members
  some ⟨name, opType, dataType, feature, value, targetField, segmentId⟩

/-- An output field as a JSON value. -/
def OutputField.toJson (field : OutputField) : Json := .object [
  ("name", .string field.name), ("optype", ofOption ofMember field.opType),
  ("dataType", ofOption ofMember field.dataType), ("feature", ofMember field.feature),
  ("value", ofOption .string field.value), ("targetField", ofOption .string field.targetField),
  ("segmentId", ofOption .string field.segmentId)]

/-- The output that a JSON value describes. -/
def Output.ofJson? (v : Json) : Option Output := do
  let members ← v.fields? ["outputFields"]
  let fields ← withDefault "outputFields" [] (Json.list? OutputField.ofJson?) members
  some ⟨fields⟩

/-- An output as a JSON value. -/
def Output.toJson (output : Output) : Json := .object [
  ("outputFields", .array (output.fields.map (·.toJson)))]

end Scoring
