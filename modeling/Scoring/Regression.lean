import Scoring.Expression
import Scoring.Output
import Scoring.Schema

/-!
# Regression models

A regression table adds up an intercept and what each of its predictors
contributes for a row. A model that predicts a number has one table. A model that
predicts a class has a table for each class; the class of the highest score is
predicted, the first of several, and the scores are then normalised.

Features that a row lacks never make a predictor fail: it contributes nothing. In
particular a term, which multiplies several factors, contributes nothing once it
comes to a factor that is missing.
-/

namespace Scoring

/-- What contributes to the score of a table. -/
inductive Predictor
  /-- A multiple of a power of a field. -/
  | numeric (name : String) (exponent : Int32) (coefficient : Float)
  /-- A constant, if a field has a certain value. -/
  | categorical (name value : String) (coefficient : Float)
  /-- A multiple of a product of fields. -/
  | term (name : Option String) (coefficient : Float) (factors : List FieldRef)
  deriving DecidableEq

/-- An intercept and predictors. -/
structure RegressionTable where
  intercept : Float
  /-- The class that the table scores. -/
  targetCategory : Option String
  predictors : List Predictor
  deriving DecidableEq

/-- Regression tables with what they declare. -/
structure RegressionModel where
  name : Option String
  function : MiningFunction
  normalization : NormalizationMethod
  targetField : Option String
  schema : MiningSchema
  output : Option Output
  tables : List RegressionTable
  deriving DecidableEq

/-! ### Scores -/

/-- The value of a factor, replaced if it is missing; its data type plays no part. -/
def FieldRef.factor (row : Row) (ref : FieldRef) : Value :=
  let value := row.value ref.field
  match ref.mapMissingTo with
  | some literal => if value.isMissing then .ofLiteral literal else value
  | none => value

namespace Predictor

/-- `acc` times the factors in their order, up to the first that is missing, in which
    case there is no product. -/
def product (row : Row) (acc : Float) : List FieldRef → Outcome (Option Float)
  | [] => .ok (some acc)
  | ref :: refs => do
    let value := ref.factor row
    if value.isMissing then .ok none
    else
      let x ← value.toNumber
      product row (acc * x) refs

/-- What a predictor adds to the score of its table. -/
def contribution (row : Row) : Predictor → Outcome Float
  | numeric name exponent coefficient => do
    let value := row.value name
    if value.isMissing then .ok 0
    else
      let x ← value.toNumber
      .ok (coefficient * Number.power x exponent.toInt)
  | categorical name value coefficient =>
    .ok (if (row.value name).matchesLiteral value then coefficient else 0)
  | term _ coefficient factors => do
    match ← product row 1 factors with
    | none => .ok 0
    | some x => .ok (coefficient * x)

end Predictor

/-- `total` and what the predictors add to it, in their order. -/
def RegressionTable.addContributions (row : Row) (total : Float) :
    List Predictor → Outcome Float
  | [] => .ok total
  | predictor :: predictors => do
    let x ← predictor.contribution row
    addContributions row (total + x) predictors

/-- The score of a table for a row. -/
def RegressionTable.score (row : Row) (table : RegressionTable) : Outcome Float :=
  addContributions row table.intercept table.predictors

/-! ### Normalisation -/

namespace NormalizationMethod

/-- The greater of two numbers; what is not a number is passed over. -/
def greater (x y : Float) : Float :=
  if x.isNaN then y else if y.isNaN then x else if x < y then y else x

/-- The scores as shares of the sum of their exponentials. The greatest score is taken
    off first, which keeps the exponentials finite. -/
def softmaxOf (scores : List Float) : List Float :=
  let top := scores.foldl greater (- Decimal.infinity)
  let weights := scores.map fun score => Float.exp (score - top)
  let sum := weights.foldl (· + ·) 0
  weights.map (· / sum)

/-- The scores as a method leaves them. -/
def normalize : NormalizationMethod → List Float → List Float
  | identity, scores => scores
  | softmax, scores => softmaxOf scores
  | logit, scores => scores.map fun score => Float.log (score / (1 - score))

end NormalizationMethod

/-! ### Outputs -/

namespace RegressionModel

/-- The name of the output that carries the prediction. -/
def primary (model : RegressionModel) : String :=
  (model.targetField.or model.schema.target?).getD defaultTarget

/-- The prediction repeated under the output fields that ask for it, and put under the
    primary name, where it replaces whatever is there. -/
def report (model : RegressionModel) (predicted : Value) (outputs : Outputs) : Outputs :=
  (Output.fillPredicted model.output predicted outputs).insert model.primary predicted

/-- The outputs of a model that predicts a number. -/
def scoreNumber (model : RegressionModel) (row : Row) : Outcome Outputs :=
  match model.tables with
  | [table] => do
    let score ← table.score row
    .ok (model.report (.number score) ∅)
  | tables => .fail (.tableCount tables.length)

/-- The class and the score of each table. -/
def classScores (row : Row) : List RegressionTable → Outcome (List (String × Float))
  | [] => .ok []
  | table :: tables => do
    match table.targetCategory with
    | none => .fail .tableWithoutCategory
    | some category =>
      let score ← table.score row
      let rest ← classScores row tables
      .ok ((category, score) :: rest)

/-- The class of the highest score: `best`, unless a later one exceeds it. -/
def winner (best : String × Float) : List (String × Float) → String
  | [] => best.1
  | next :: rest => if best.2 < next.2 then winner next rest else winner best rest

/-- The outputs for classes with their normalised scores: the scores under the names
    of the classes and of the fields that report the probability of a class. A class
    that has several tables has its last score under its own name, and its first under
    the name of a field. -/
def classOutputs (model : RegressionModel) (scores : List (String × Float)) : Outputs :=
  let outputs := Record.ofList (scores.map fun (category, score) => (category, .number score))
  let fields := (model.output.map (·.probabilityFields)).getD []
  fields.foldl (fun outputs field =>
    match field.value.bind fun value => scores.find? (·.1 = value) with
    | some (_, score) => outputs.insert field.name (.number score)
    | none => outputs) outputs

/-- The outputs of a model that predicts a class. -/
def scoreClass (model : RegressionModel) (row : Row) : Outcome Outputs := do
  match ← classScores row model.tables with
  | [] => .fail .noTables
  | first :: rest =>
    let scores := first :: rest
    let normalized := model.normalization.normalize (scores.map (·.2))
    .ok (model.report (.text (winner first rest))
      (model.classOutputs ((scores.map (·.1)).zip normalized)))

/-- The outputs of a regression model for a row. -/
def score (model : RegressionModel) (row : Row) : Outcome Outputs :=
  match model.function with
  | .regression => model.scoreNumber row
  | .classification => model.scoreClass row

end RegressionModel

end Scoring
