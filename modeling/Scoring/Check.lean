import Scoring.Batch

/-!
# Checking against expected values

A model is checked by scoring rows whose results are known: for each row, the number
that one of the outputs is expected to have. The check reports the rows that do not
match, with the reason of each.
-/

namespace Scoring

/-- What is reported of a row that failed. -/
structure FailureReport where
  kind : FailureKind
  message : String
  deriving DecidableEq, Repr

/-- Why a row does not match what is expected of it. -/
inductive Mismatch
  /-- The output is a different number. -/
  | differs (expected actual : Float)
  /-- The output is not there, or is no number. -/
  | notNumeric (expected : Float)
  /-- There is no prediction. -/
  | noResult (expected : Float)
  /-- Scoring failed, with a failure of this kind and wording. -/
  | failed (expected : Float) (report : FailureReport)
  deriving DecidableEq

namespace Check

/-- The greatest difference that is taken for none. -/
def tolerance : Float := 1e-8

/-- Whether a number is what is expected. -/
def matchesExpected (expected actual : Float) : Bool := (actual - expected).abs ≤ tolerance

/-- Why a result does not match, if it does not. -/
def mismatch? (output : String) (expected : Float) (result : Outcome (Option Outputs)) :
    Option Mismatch :=
  match result with
  | .error failure =>
    some (.failed expected { kind := failure.kind, message := failure.message })
  | .ok none => some (.noResult expected)
  | .ok (some outputs) =>
    match (outputs.get? output).bind Value.number? with
    | none => some (.notNumeric expected)
    | some actual =>
      if matchesExpected expected actual then none else some (.differs expected actual)

/-- The mismatches of results, each with the index of its row; `index` is that of the
    first. -/
def mismatches (output : String) (index : Nat) :
    List (Outcome (Option Outputs)) → List Float → List (Nat × Mismatch)
  | result :: results, expected :: rest =>
    match mismatch? output expected result with
    | some mismatch => (index, mismatch) :: mismatches output (index + 1) results rest
    | none => mismatches output (index + 1) results rest
  | _, _ => []

/-- How many rows and how many expected values there are, where there should be as many. -/
structure LengthMismatch where
  rows : Nat
  expected : Nat
  deriving DecidableEq, Repr

/-- The wording of a difference in length. -/
def LengthMismatch.message (e : LengthMismatch) : String :=
  toString e.rows ++ " rows but " ++ toString e.expected ++ " expected values"

end Check

/-- The rows for which an output of the model is not what is expected of it. -/
def check [ThreadPool] (settings : BatchSettings) (model : Model) (rows : List Row)
    (expected : List Float) (output : String) :
    Except Check.LengthMismatch (List (Nat × Mismatch)) :=
  if rows.length ≠ expected.length then .error ⟨rows.length, expected.length⟩
  else .ok (Check.mismatches output 0 (Batch.score settings model rows) expected)

end Scoring
