import Scoring.Model

/-!
# Sessions

A session keeps a model and a row, and changes both step by step: fields are set and
unset, the strategies and methods of the model are exchanged, derived fields are put
into the row, and outputs are fed back into it.
-/

namespace Scoring

/-- A tree with other strategies; only trees have them. -/
def Model.withPolicy? (change : DescentPolicy → DescentPolicy) : Model → Option Model
  | .tree model => some (.tree { model with policy := change model.policy })
  | _ => none

/-- An ensemble with another method; only ensembles have one. -/
def Model.withMethod? (method : MultipleModelMethod) : Model → Option Model
  | .mining model => some (.mining { model with method })
  | _ => none

/-- A regression model with another normalisation; only regression models have one. -/
def Model.withNormalization? (normalization : NormalizationMethod) : Model → Option Model
  | .regression model => some (.regression { model with normalization })
  | _ => none

/-- A model at work on a row. -/
structure Session where
  model : Model
  row : Row

namespace Session

/-- The session of a model, with an empty row. -/
def start (model : Model) : Session := ⟨model, ∅⟩

/-- The session with some fields set. -/
def set (session : Session) (fields : Row) : Session :=
  { session with row := session.row.merge fields }

/-- The session with a field unset. -/
def unset (session : Session) (field : String) : Session :=
  { session with row := session.row.erase field }

/-- The outputs of the model for the row. -/
def score (session : Session) : Outcome (Option Outputs) := session.model.score session.row

/-- The session with derived fields put into the row, as far as they can be computed,
    and the failure of the first that cannot. -/
def derive (session : Session) (fields : List DerivedField) : Session × Option Failure :=
  let (row, failure) := DerivedField.extend session.row fields
  ({ session with row }, failure)

/-- The session with the outputs of the model fed back into the row, if there are any. -/
def feed (session : Session) : Session :=
  match session.score with
  | .ok (some outputs) => session.set outputs
  | _ => session

/-- The answer of a guard for the row. -/
def guard (session : Session) (predicate : Predicate) : Outcome Truth :=
  predicate.eval session.row

end Session

end Scoring
