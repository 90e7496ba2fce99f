import Scoring.Failure
import Scoring.Number.Power

/-!
# Coercion

A value is coerced where a number is needed (`Value.toNumber`) and where a data
type has been declared for it (`Value.coerce`). A coercion that makes no sense
fails; an absent value stays absent under every data type, and no other value
becomes absent.
-/

namespace Scoring.Value

/-- The number of a value that must have one. -/
def toNumber (v : Value) : Outcome Float :=
  match v.number? with
  | some x => .ok x
  | none => .fail (.coercion v .double)

/-- The value as a declared data type has it. -/
def coerce (v : Value) (dataType : DataType) : Outcome Value :=
  if v = absent then .ok absent
  else match dataType with
  | .double | .float => number <$> v.toNumber
  | .integer => (number ∘ Number.truncate) <$> v.toNumber
  | .boolean => match v.boolean? with
    | some b => .ok (boolean b)
    | none => .fail (.coercion v .boolean)
  | .string => .ok (text v.display)

/-- The value as an optional data type has it; without one, it is kept. -/
def coerceTo (v : Value) : Option DataType → Outcome Value
  | some dataType => v.coerce dataType
  | none => .ok v

end Scoring.Value
