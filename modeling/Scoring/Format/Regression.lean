import Scoring.Format.Expression
import Scoring.Format.Schema
import Scoring.Regression

/-!
# The format of regression models

A predictor is an object with one member, whose name says which of the three kinds
it is. An exponent is an integer of 32 bits, written without a point.
-/

namespace Scoring

open Json (required withDefault optional ofOption ofMember)

/-- An integer of 32 bits. -/
def Json.int32? (v : Json) : Option Int32 := do
  let n ← v.integer?
  if Int32.minValue.toInt ≤ n ∧ n ≤ Int32.maxValue.toInt then some (Int32.ofInt n) else none

/-- The predictor that a JSON value describes. -/
def Predictor.ofJson? : Json → Option Predictor
  | .object [("NumericPredictor", content)] => do
    let members ← content.fields? ["name", "exponent", "coefficient"]
    let name ← required "name" Json.string? members
    let exponent ← withDefault "exponent" 1 Json.int32? members
    let coefficient ← required "coefficient" Json.float? members
    some (numeric name exponent coefficient)
  | .object [("CategoricalPredictor", content)] => do
    let members ← content.fields? ["name", "value", "coefficient"]
    let name ← required "name" Json.string? members
    let value ← required "value" Json.literal? members
    let coefficient ← required "coefficient" Json.float? members
    some (categorical name value coefficient)
  | .object [("PredictorTerm", content)] => do
    let members ← content.fields? ["name", "coefficient", "fieldRefs"]
    let name ← optional "name" Json.string? members
    let coefficient ← required "coefficient" Json.float? members
    let factors ← required "fieldRefs" (Json.list? FieldRef.ofJson?) members
    some (term name coefficient factors)
  | _ => none

/-- A predictor as a JSON value. -/
def Predictor.toJson : Predictor → Json
  | numeric name exponent coefficient => .object [("NumericPredictor", .object [
      ("name", .string name), ("exponent", .integer exponent.toInt),
      ("coefficient", .ofFloat coefficient)])]
  | categorical name value coefficient => .object [("CategoricalPredictor", .object [
      ("name", .string name), ("value", .string value), ("coefficient", .ofFloat coefficient)])]
  | term name coefficient factors => .object [("PredictorTerm", .object [
      ("name", ofOption .string name), ("coefficient", .ofFloat coefficient),
      ("fieldRefs", .array (factors.map (·.toJson)))])]

/-- The table that a JSON value describes. -/
def RegressionTable.ofJson? (v : Json) : Option RegressionTable := do
  let members ← v.fields? ["intercept", "targetCategory", "predictors"]
  let intercept ← withDefault "intercept" 0 Json.float? members
  let targetCategory ← withDefault "targetCategory" none Json.optionalLiteral? members
  let predictors ← withDefault "predictors" [] (Json.list? Predictor.ofJson?) members
  some ⟨intercept, targetCategory, predictors⟩

/-- A table as a JSON value. -/
def RegressionTable.toJson (table : RegressionTable) : Json := .object [
  ("intercept", .ofFloat table.intercept),
  ("targetCategory", ofOption .string table.targetCategory),
  ("predictors", .array (table.predictors.map (·.toJson)))]

/-- The regression model that a JSON value describes. -/
def RegressionModel.ofJson? (v : Json) : Option RegressionModel := do
  let members ← v.fields? [
    "modelName", "functionName", "normalizationMethod", "targetFieldName", "miningSchema",
    "output", "regressionTables"]
  let name ← optional "modelName" Json.string? members
  let function ← required "functionName" Json.member? members
  let normalization ← withDefault "normalizationMethod" .identity Json.member? members
  let targetField ← optional "targetFieldName" Json.string? members
  let schema ← withDefault "miningSchema" ⟨[]⟩ MiningSchema.ofJson? members
  let output ← optional "output" Output.ofJson? members
  let tables ← required "regressionTables" (Json.list? RegressionTable.ofJson?) members
  some ⟨name, function, normalization, targetField, schema, output, tables⟩

/-- A regression model as a JSON value. -/
def RegressionModel.toJson (model : RegressionModel) : Json := .object [
  ("modelName", ofOption .string model.name), ("functionName", ofMember model.function),
  ("normalizationMethod", ofMember model.normalization),
  ("targetFieldName", ofOption .string model.targetField),
  ("miningSchema", model.schema.toJson), ("output", ofOption Output.toJson model.output),
  ("regressionTables", .array (model.tables.map (·.toJson)))]

end Scoring
