import Scoring.Proofs.Induction
import Scoring.Proofs.Outcome

/-!
# Arguments by position

A function can be applied by looking for its arguments at their positions, after it has counted
them, and by leaving all arithmetic to one operation that goes by the function
(`Function.applyAt`). Two things could go wrong with that, which are no failures of an expression
(`Fault`): there may be no argument at a position, and the function may be no arithmetic one.

Neither ever happens. Whatever the number of arguments is, and however they come out, the result is
that of `Function.apply` (`Function.applyAt_faultless`), and so an expression evaluated in this way
has the outcome that it has anyway (`Expression.evalAt_eq`).
-/

namespace Scoring

/-- What can stop an evaluation by position. -/
inductive Fault
  /-- The expression fails. -/
  | failure (failure : Failure)
  /-- A function has no argument at a position. -/
  | noArgument (function : Function) (position : Nat)
  /-- A function is none of those that calculate. -/
  | notArithmetic (function : Function)

namespace Outcome

variable {α β : Type}

/-- The outcome of an evaluation that nothing but a failure can stop. -/
def faultless : Outcome α → Except Fault α
  | .ok a => .ok a
  | .error e => .error (.failure e)

/-- A value is not changed. -/
theorem faultless_ok (a : α) : faultless (.ok a) = .ok a := rfl

/-- A sequence of evaluations is faultless if both of them are. -/
theorem faultless_bind (x : Outcome α) (f : α → Outcome β) :
    (x >>= f).faultless = x.faultless >>= fun a => (f a).faultless := by
  cases x <;> rfl

/-- Such an evaluation has the values of the outcome. -/
theorem faultless_eq_ok_iff {x : Outcome α} {a : α} : x.faultless = .ok a ↔ x = .ok a := by
  cases x <;> simp [faultless]

/-- What stops such an evaluation is its failure. -/
theorem faultless_eq_error_iff {x : Outcome α} {fault : Fault} :
    x.faultless = .error fault ↔ ∃ e, fault = .failure e ∧ x = .error e := by
  cases x <;> simp [faultless, eq_comm]

end Outcome

open Outcome

/-! ### Functions -/

namespace Function

section Definitions

variable (function : Function) (arguments : List (Except Fault Value))

/-- Fails for any other number of arguments than a function takes. -/
def expectArity (expected : Nat) : Except Fault Unit :=
  if arguments.length = expected then .ok ()
  else (Outcome.fail (.invalidArity function expected arguments.length)).faultless

/-- The value of the argument at a position. -/
def argumentAt (position : Nat) : Except Fault Value :=
  match arguments[position]? with
  | some argument => argument
  | none => .error (.noArgument function position)

/-- The arguments from a position on, of which there may be none. -/
def argumentsFrom (position : Nat) : Except Fault (List (Except Fault Value)) :=
  if position ≤ arguments.length then .ok (arguments.drop position)
  else .error (.noArgument function position)

/-- The number that an arithmetic function has for two others; there is no quotient by zero. -/
def compute (x y : Float) : Except Fault (Option Float) :=
  match function with
  | add => .ok (some (x + y))
  | subtract => .ok (some (x - y))
  | multiply => .ok (some (x * y))
  | divide => .ok (if y == 0 then none else some (x / y))
  | other => .error (.notArithmetic other)

/-- The value that an arithmetic function has for two others, absent if one of them is. -/
def calculate (v w : Value) : Except Fault Value :=
  if v = .absent ∨ w = .absent then .ok .absent
  else do
    let x ← v.toNumber.faultless
    let y ← w.toNumber.faultless
    match ← function.compute x y with
    | some z => .ok (.number z)
    | none => .ok .absent

/-- Whether some candidate equals the value sought, up to the first that does. -/
def search (v : Value) : List (Except Fault Value) → Except Fault Bool
  | [] => .ok false
  | candidate :: candidates => do
    if v.equals (← candidate) then .ok true else search v candidates

/-- A function of one argument, which is at the first position. -/
def unaryAt (f : Value → Except Fault Value) : Except Fault Value := do
  function.expectArity arguments 1
  let v ← function.argumentAt arguments 0
  f v

/-- A function of two arguments, which are at the first two positions. -/
def binaryAt (f : Value → Value → Except Fault Value) : Except Fault Value := do
  function.expectArity arguments 2
  let v ← function.argumentAt arguments 0
  let w ← function.argumentAt arguments 1
  f v w

/-- A membership test of the argument at the first position among those from the second one on. -/
def membershipAt (answer : Bool) : Except Fault Value :=
  if arguments.isEmpty then (Outcome.fail (.invalidArity function 1 0)).faultless
  else do
    let v ← function.argumentAt arguments 0
    if v = .absent then .ok .absent
    else
      let found ← search v (← function.argumentsFrom arguments 1)
      .ok (.boolean (found = answer))

/-- The value of a function, with its arguments looked for at their positions. -/
def applyAt : Except Fault Value :=
  match function with
  | add | subtract | multiply | divide => function.binaryAt arguments function.calculate
  | isMissing | isNotMissing => function.unaryAt arguments fun v =>
    .ok (.boolean (v.isMissing = (function = isMissing)))
  | equal | notEqual => function.binaryAt arguments fun v w =>
    .ok (comparison (function = equal) v w)
  | isIn | isNotIn => function.membershipAt arguments (function = isIn)

end Definitions

variable {function : Function}

/-- A number of arguments that a function does not take is refused before anything is looked
    for. -/
theorem expectArity_bind_of_ne {α : Type} {arguments : List (Except Fault Value)} {expected : Nat}
    (h : arguments.length ≠ expected) (f : Unit → Except Fault α) :
    (function.expectArity arguments expected >>= f) =
      (Outcome.fail (.invalidArity function expected arguments.length)).faultless := by
  rw [expectArity, if_neg h]
  rfl

/-- The one argument of a function is there when it is looked for. -/
theorem unaryAt_faultless {f : Value → Except Fault Value} {g : Value → Outcome Value}
    (h : ∀ v, f v = (g v).faultless) : ∀ arguments : List (Outcome Value),
    function.unaryAt (arguments.map faultless) f = (unary function g arguments).faultless
  | [] | _ :: _ :: _ => (expectArity_bind_of_ne (by simp) _).trans (by simp [unary])
  | [v] => by
    rw [unary, faultless_bind, ← funext h]
    rfl

/-- Both arguments of a function are there when they are looked for. -/
theorem binaryAt_faultless {f : Value → Value → Except Fault Value}
    {g : Value → Value → Outcome Value} (h : ∀ v w, f v w = (g v w).faultless) :
    ∀ arguments : List (Outcome Value),
    function.binaryAt (arguments.map faultless) f = (binary function g arguments).faultless
  | [] | [_] | _ :: _ :: _ :: _ => (expectArity_bind_of_ne (by simp) _).trans (by simp [binary])
  | [v, w] => by
    simp only [binary, faultless_bind, ← h]
    rfl

/-- A search through candidates has no faults of its own. -/
theorem search_faultless (v : Value) (candidates : List (Outcome Value)) :
    search v (candidates.map faultless) = (memberOf v candidates).faultless := by
  induction candidates with
  | nil => rfl
  | cons candidate candidates ih =>
    rw [List.map_cons, search, memberOf, faultless_bind, ih]
    -- What comes after the candidate is the same for every value of it.
    congr 1
    funext w
    split
    · rfl
    · rfl

/-- Where there are arguments, the first one is there, and the candidates are those after it. -/
theorem membershipAt_faultless (answer : Bool) : ∀ arguments : List (Outcome Value),
    function.membershipAt (arguments.map faultless) answer =
      (membership function answer arguments).faultless
  | [] => rfl
  | v :: candidates => by
    -- There is a position after the needle, even if no candidate stands there.
    have hcandidates : function.argumentsFrom ((v :: candidates).map faultless) 1 =
        .ok (candidates.map faultless) := if_pos (by simp)
    rw [membership, faultless_bind, membershipAt, hcandidates, if_neg (by simp)]
    refine congrArg (v.faultless >>= ·) (funext fun v => ?_)
    split
    · rfl
    · rw [faultless_bind, ← search_faultless]
      rfl

/-- A function that calculates has no faults of its own. -/
theorem calculate_faultless {operation : Float → Float → Option Float}
    (h : ∀ x y, function.compute x y = .ok (operation x y)) (v w : Value) :
    function.calculate v w = (arithmetic operation v w).faultless := by
  rw [calculate, arithmetic]
  split
  · rfl
  · simp only [faultless_bind, h]
    refine congrArg (v.toNumber.faultless >>= ·) (funext fun x => ?_)
    refine congrArg (w.toNumber.faultless >>= ·) (funext fun y => ?_)
    cases operation x y with
    | none => rfl
    | some z => rfl

/-- Applied to arguments that have outcomes, however many they are, a function comes to what it
    makes of these. -/
theorem applyAt_faultless (function : Function) (arguments : List (Outcome Value)) :
    function.applyAt (arguments.map faultless) = (function.apply arguments).faultless := by
  cases function with
  -- These calculate, each with its own operation.
  | add | subtract | multiply | divide =>
    exact binaryAt_faultless (calculate_faultless fun _ _ => rfl) arguments
  | isMissing => exact unaryAt_faultless (fun v => by simp [faultless_ok]) arguments
  | isNotMissing => exact unaryAt_faultless (fun v => by simp [faultless_ok]) arguments
  | equal =>
    exact binaryAt_faultless (g := fun v w => .ok (comparison true v w)) (fun _ _ => rfl) arguments
  | notEqual =>
    exact binaryAt_faultless (g := fun v w => .ok (comparison false v w)) (fun _ _ => rfl) arguments
  | isIn => exact membershipAt_faultless true arguments
  | isNotIn => exact membershipAt_faultless false arguments

end Function

/-! ### Expressions -/

namespace Expression

mutual

/-- The value of an expression for a row, all arguments in it being looked for at their
    positions. -/
def evalAt (row : Row) : Expression → Except Fault Value
  | fieldRef ref => (ref.eval row).faultless
  | constant value dataType => (value.coerceTo dataType).faultless
  | apply function arguments => function.applyAt (evalEachAt row arguments)

/-- The values of several expressions, each for itself. -/
def evalEachAt (row : Row) : List Expression → List (Except Fault Value)
  | [] => []
  | argument :: arguments => argument.evalAt row :: evalEachAt row arguments

end

/-- Several expressions are evaluated by position each for itself. -/
theorem evalEachAt_eq_map (row : Row) (arguments : List Expression) :
    evalEachAt row arguments = arguments.map (evalAt row) := by
  induction arguments with
  | nil => rfl
  | cons argument arguments ih => rw [evalEachAt, ih, List.map_cons]

/-- Evaluated by position, an expression has the same outcome. -/
theorem evalAt_eq (row : Row) (expression : Expression) :
    expression.evalAt row = (expression.eval row).faultless := by
  induction expression using Expression.induction with
  | fieldRef ref => rfl
  | constant value dataType => rfl
  | apply function arguments ih =>
    rw [evalAt, evalEachAt_eq_map, eval, evalEach_eq_map, ← Function.applyAt_faultless,
      List.map_map]
    exact congrArg function.applyAt (List.map_congr_left ih)

end Expression

end Scoring
