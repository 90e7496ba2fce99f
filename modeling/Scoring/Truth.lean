import Scoring.Failure

/-!
# Three-valued truth

Whether a predicate holds of a row is `yes`, `no`, or `unknown` where the row does
not say. Predicates are joined in four ways, each a function of the outcomes of
the parts in their order. All four stop at the first failure they come to, and
three of them stop earlier when the parts so far decide:

* `Truth.all` stops at the first `no`, which is then its answer;
* `Truth.any` stops at the first `yes`;
* `Truth.odd` asks for an odd number of `yes`, hence for all parts;
* `Truth.surrogate` stops at the first part that is not `unknown`.

A failure after the part that decides is not seen.
-/

namespace Scoring

/-- The answer of a predicate. -/
inductive Truth
  | yes | no | unknown
  deriving DecidableEq, Repr

namespace Truth

/-- The answer that a test decides. -/
def ofBool (b : Bool) : Truth := if b then yes else no

/-- The answer the other way round; what is unknown stays so. -/
def negate : Truth → Truth
  | yes => no
  | no => yes
  | unknown => unknown

/-- Whether every part holds: `no` at the first part that does not, `unknown` if
    some part is. -/
def all : List (Outcome Truth) → Outcome Truth
  | [] => .ok yes
  | part :: parts => do
    match ← part with
    | yes => all parts
    | no => .ok no
    | unknown =>
      match ← all parts with
      | no => .ok no
      | _ => .ok unknown

/-- Whether some part holds: `yes` at the first part that does, otherwise `unknown`
    if some part is. -/
def any : List (Outcome Truth) → Outcome Truth
  | [] => .ok no
  | part :: parts => do
    match ← part with
    | yes => .ok yes
    | no => any parts
    | unknown =>
      match ← any parts with
      | yes => .ok yes
      | _ => .ok unknown

/-- Whether an odd number of parts hold; an unknown part does not count. -/
def odd : List (Outcome Truth) → Outcome Truth
  | [] => .ok no
  | part :: parts => do
    match ← part with
    | yes => negate <$> odd parts
    | _ => odd parts

/-- The answer of the first part that knows one. -/
def surrogate : List (Outcome Truth) → Outcome Truth
  | [] => .ok unknown
  | part :: parts => do
    match ← part with
    | unknown => surrogate parts
    | answer => .ok answer

end Truth

/-- The answers of parts, joined by an operator. -/
def BooleanOperator.join : BooleanOperator → List (Outcome Truth) → Outcome Truth
  | and => Truth.all
  | or => Truth.any
  | xor => Truth.odd
  | surrogate => Truth.surrogate

end Scoring
