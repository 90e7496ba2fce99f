import Scoring.Ensemble
import Scoring.Regression
import Scoring.Tree

/-!
# Models

A model is a tree, a regression model, or an ensemble of *segments*, each of which
is a model again under a guard. `Model.score` scores a row:

* the model's schema replaces missing values first, in the row that this model and
  all below it see;
* an ensemble extends the row by its derived fields, combines its segments
  (`MiningModel.combine`), and lets its output fields report the result;
* a segment whose guard does not hold abstains.

Each level marks the failures that come from it with its name. The name of the
output that carries a prediction, `Model.primary`, is found by a recursion of its
own, as an ensemble without a target takes the name of its first segment.
-/

namespace Scoring

mutual

/-- Anything that scores a row. -/
inductive Model
  | tree (model : TreeModel)
  | regression (model : RegressionModel)
  | mining (model : MiningModel)

/-- An ensemble with what it declares. -/
structure MiningModel where
  name : Option String
  function : MiningFunction
  schema : MiningSchema
  output : Option Output
  derivedFields : List DerivedField
  targets : List Target
  method : MultipleModelMethod
  segments : List Segment

/-- A model under a guard: all of the predicates have to hold. -/
structure Segment where
  id : Option String
  weight : Float
  predicates : List Predicate
  model : Model

end

/-- How messages call a segment. -/
def Segment.label (segment : Segment) : String := segment.id.getD "<unnamed>"

namespace Model

/-- The element that declares the model in a document. -/
def kind : Model → String
  | tree _ => "TreeModel"
  | regression _ => "RegressionModel"
  | mining _ => "MiningModel"

/-- The name of a model, if it has one. -/
def name : Model → Option String
  | tree model => model.name
  | regression model => model.name
  | mining model => model.name

/-- What a model declares about its fields. -/
def schema : Model → MiningSchema
  | tree model => model.schema
  | regression model => model.schema
  | mining model => model.schema

end Model

/-! ### The output that carries the prediction -/

mutual

/-- The name of the output that carries the prediction of a model. -/
def Model.primary : Model → String
  | .tree model => model.primary
  | .regression model => model.primary
  | .mining model => model.primary

/-- The target of an ensemble, or else the primary name of its first segment. -/
def MiningModel.primary : MiningModel → String
  | { schema, segments, .. } => schema.target?.getD (Segment.firstPrimary segments)

/-- The primary name of the first segment. -/
def Segment.firstPrimary : List Segment → String
  | [] => defaultTarget
  | segment :: _ => segment.primary

/-- The primary name of a segment is that of its model. -/
def Segment.primary : Segment → String
  | { model, .. } => model.primary

end

theorem MiningModel.primary_eq (model : MiningModel) :
    model.primary = model.schema.target?.getD (Segment.firstPrimary model.segments) := by
  cases model
  rfl

/-! ### Scoring -/

/-- An outcome of a model, marked with the model's name if it has one. -/
def Outcome.inModel {α : Type} (name : Option String) (outcome : Outcome α) : Outcome α :=
  match name with
  | some name => outcome.within (.model name)
  | none => outcome

mutual

/-- The outputs of a model for a row, unless it makes no prediction. -/
def Model.score : Model → Row → Outcome (Option Outputs)
  | .tree model => fun row =>
    Outcome.inModel model.name (model.score (model.schema.replaceMissing row))
  | .regression model => fun row =>
    Outcome.inModel model.name (some <$> model.score (model.schema.replaceMissing row))
  | .mining model => fun row =>
    Outcome.inModel model.name (model.score (model.schema.replaceMissing row))

/-- The outputs of an ensemble for a row in which missing values are replaced. -/
def MiningModel.score : MiningModel → Row → Outcome (Option Outputs)
  | model@{ segments, .. } => fun row => do
    let row ← DerivedField.apply model.derivedFields row
    let results ← Ensemble.combine model.method model.primary
      (model.targets.head?.getD .plain) (Segment.members segments) row
    .ok (results.map (Output.finish model.output model.primary))

/-- The segments of an ensemble as its members. -/
def Segment.members : List Segment → List Member
  | [] => []
  | segment :: segments =>
    ⟨segment.label, segment.weight, segment.primary, segment.score⟩ :: Segment.members segments

/-- The outputs of a segment for a row, unless its guard does not hold or its model makes
    no prediction. -/
def Segment.score : Segment → Row → Outcome (Option Outputs)
  | segment@{ model, .. } => fun row => Outcome.within (.segment segment.label) do
    match ← Predicate.evalAll row segment.predicates with
    | .yes => model.score row
    | _ => .ok none

end

/-- A segment as a member of its ensemble. -/
def Segment.member (segment : Segment) : Member :=
  ⟨segment.label, segment.weight, segment.primary, segment.score⟩

theorem Segment.members_eq_map (segments : List Segment) :
    Segment.members segments = segments.map (·.member) := by
  induction segments with
  | nil => rfl
  | cons segment segments ih => simp [Segment.members, ih, Segment.member]

/-- The combination of the segments of an ensemble for a row. -/
def MiningModel.combine (model : MiningModel) (row : Row) : Outcome (Option Outputs) :=
  Ensemble.combine model.method model.primary (model.targets.head?.getD .plain)
    (model.segments.map (·.member)) row

theorem MiningModel.score_eq (model : MiningModel) (row : Row) :
    model.score row = (do
      let row ← DerivedField.apply model.derivedFields row
      let results ← model.combine row
      .ok (results.map (Output.finish model.output model.primary))) := by
  cases model
  simp [MiningModel.score, MiningModel.combine, Segment.members_eq_map]

theorem Segment.score_eq (segment : Segment) (row : Row) :
    segment.score row = Outcome.within (.segment segment.label) (do
      match ← Predicate.evalAll row segment.predicates with
      | .yes => segment.model.score row
      | _ => .ok none) := by
  cases segment
  rfl

end Scoring
