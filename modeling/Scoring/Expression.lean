import Scoring.Value.Coercion

/-!
# Expressions

An expression computes a value from the fields of a row. Absence flows through it:
arithmetic on an absent operand is absent, as is a comparison with one and a
division by zero, and only `isMissing` and `isNotMissing` answer for an absent
argument.

A function is applied to the *outcomes* of its arguments (`Function.apply`), in
their order, so that each function says itself which failure it reports: a
membership test does not look past the first candidate that is equal.
-/

namespace Scoring

/-- A field that an expression or a term reads. -/
structure FieldRef where
  field : String
  dataType : Option DataType
  /-- The literal that takes the place of a missing value. -/
  mapMissingTo : Option String
  deriving DecidableEq, Repr

/-- How a value is computed from the fields of a row. -/
inductive Expression
  | fieldRef (ref : FieldRef)
  | constant (value : Value) (dataType : Option DataType)
  | apply (function : Function) (arguments : List Expression)

/-- The value of the field referred to, replaced if it is absent, under the declared
    data type. -/
def FieldRef.eval (row : Row) (ref : FieldRef) : Outcome Value :=
  let value := match row.value ref.field, ref.mapMissingTo with
    | .absent, some literal => Value.ofLiteral literal
    | value, _ => value
  value.coerceTo ref.dataType

/-- Whether two values are equal: as booleans if one of them is a boolean, as numbers
    if both have a number, and by their texts otherwise. -/
def Value.equals (v w : Value) : Bool :=
  if v.kind = .boolean ∨ w.kind = .boolean then
    match v.boolean?, w.boolean? with
    | some b, some c => b = c
    | _, _ => false
  else match v.number?, w.number? with
  | some x, some y => x == y
  | _, _ => v.display = w.display

namespace Function

/-- An arithmetic operation on numbers; there is no quotient by zero. -/
def arithmetic (operation : Float → Float → Option Float) (v w : Value) : Outcome Value :=
  if v = .absent ∨ w = .absent then .ok .absent
  else do
    let x ← v.toNumber
    let y ← w.toNumber
    match operation x y with
    | some z => .ok (.number z)
    | none => .ok .absent

/-- A comparison of two values, absent if one of them is. -/
def comparison (answer : Bool) (v w : Value) : Value :=
  if v = .absent ∨ w = .absent then .absent else .boolean (v.equals w = answer)

/-- Whether some candidate equals the value sought. The outcomes of the candidates are
    looked at in order, up to the first that is equal. -/
def memberOf (v : Value) : List (Outcome Value) → Outcome Bool
  | [] => .ok false
  | candidate :: candidates => do
    if v.equals (← candidate) then .ok true else memberOf v candidates

/-- A function of one argument. -/
def unary (function : Function) (f : Value → Outcome Value) :
    List (Outcome Value) → Outcome Value
  | [v] => do f (← v)
  | arguments => .fail (.invalidArity function 1 arguments.length)

/-- A function of two arguments. -/
def binary (function : Function) (f : Value → Value → Outcome Value) :
    List (Outcome Value) → Outcome Value
  | [v, w] => do
    let v ← v
    f v (← w)
  | arguments => .fail (.invalidArity function 2 arguments.length)

/-- A membership test: its first argument is sought among the others. -/
def membership (function : Function) (answer : Bool) :
    List (Outcome Value) → Outcome Value
  | [] => .fail (.invalidArity function 1 0)
  | v :: candidates => do
    let v ← v
    if v = .absent then .ok .absent
    else
      let found ← memberOf v candidates
      .ok (.boolean (found = answer))

/-- The value of a function for the outcomes of its arguments. -/
def apply (function : Function) : List (Outcome Value) → Outcome Value :=
  match function with
  | add => binary function (arithmetic fun x y => some (x + y))
  | subtract => binary function (arithmetic fun x y => some (x - y))
  | multiply => binary function (arithmetic fun x y => some (x * y))
  | divide => binary function (arithmetic fun x y => if y == 0 then none else some (x / y))
  | isMissing => unary function fun v => .ok (.boolean v.isMissing)
  | isNotMissing => unary function fun v => .ok (.boolean (!v.isMissing))
  | equal => binary function fun v w => .ok (comparison true v w)
  | notEqual => binary function fun v w => .ok (comparison false v w)
  | isIn => membership function true
  | isNotIn => membership function false

end Function

namespace Expression

mutual

/-- The value of an expression for a row. -/
def eval (row : Row) : Expression → Outcome Value
  | fieldRef ref => ref.eval row
  | constant value dataType => value.coerceTo dataType
  | apply function arguments => function.apply (evalEach row arguments)

/-- The values of several expressions, each for itself. -/
def evalEach (row : Row) : List Expression → List (Outcome Value)
  | [] => []
  | argument :: arguments => argument.eval row :: evalEach row arguments

end

theorem evalEach_eq_map (row : Row) (arguments : List Expression) :
    evalEach row arguments = arguments.map (eval row) := by
  induction arguments with
  | nil => rfl
  | cons argument arguments ih => simp [evalEach, ih]

end Expression

/-! ### Derived fields -/

/-- A field that is computed from others before a model is scored. -/
structure DerivedField where
  name : String
  opType : Option OpType
  dataType : Option DataType
  expression : Expression

namespace DerivedField

/-- The value of a derived field for a row, under its declared data type. -/
def eval (row : Row) (field : DerivedField) : Outcome Value :=
  Outcome.within (.derivedField field.name) do
    let value ← field.expression.eval row
    value.coerceTo field.dataType

/-- The row with a derived value under its name; an absent value is not put there. -/
def put (row : Row) (name : String) (value : Value) : Row :=
  if value = .absent then row else row.insert name value

/-- The row extended by derived fields in their order, so that a field may read those
    before it, and the failure of the first field that has no value. The row comes
    as far as the fields before that one take it. -/
def extend (row : Row) : List DerivedField → Row × Option Failure
  | [] => (row, none)
  | field :: fields =>
    match field.eval row with
    | .ok value => extend (put row field.name value) fields
    | .error failure => (row, some failure)

/-- The row extended by all derived fields, if none of them fails. -/
def apply (fields : List DerivedField) (row : Row) : Outcome Row :=
  match extend row fields with
  | (row, none) => .ok row
  | (_, some failure) => .error failure

end DerivedField

end Scoring
