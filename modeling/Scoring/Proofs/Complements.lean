import Scoring.Proofs.Misfits

/-!
# Tests and their complements

Some tests can be asked either way round: whether two values are equal, whether a value is missing,
and whether it is among others (`Test`). Each has an operator of simple predicates for either way
(`Test.operator`) and a function of expressions (`Test.function`). Set predicates ask for
membership, too.

The outcomes of a test and of its complement are *opposed* (`Outcome.Opposed`): both leave it
undecided, or their answers are opposite, or both fail alike. Where operators fail, it is for one
cause, in which each names itself (`Operator.FailAlike`). Where functions fail, it is as one of
their arguments does, or each by its own name for the number of its arguments
(`Function.FailAlike`).

This holds of all tests, whatever the values are that they look at (`Test.opposed`): the answers of
a comparison that makes no sense, of a boolean with a text or of what is not a number with itself,
are opposite as well.
-/

namespace Scoring

/-! ### Opposed outcomes -/

/-- The outcomes of a test and of its complement: both are undecided, or they are opposite answers,
    or both are failures, and alike. -/
inductive Outcome.Opposed {α : Type} (undecided : α) (answer : Bool → α)
    (Alike : Failure → Failure → Prop) : Outcome α → Outcome α → Prop
  | undecided : Opposed undecided answer Alike (.ok undecided) (.ok undecided)
  | decided (b : Bool) : Opposed undecided answer Alike (.ok (answer b)) (.ok (answer !b))
  | failed {e e' : Failure} : Alike e e' → Opposed undecided answer Alike (.error e) (.error e')

open Outcome

namespace Outcome.Opposed

variable {α β : Type} {undecided : α} {answer : Bool → α} {Alike : Failure → Failure → Prop}

/-- To ask whether a fact is so is opposed to asking whether it is not. -/
theorem decide_eq (b : Bool) :
    Opposed undecided answer Alike (.ok (answer (b = true))) (.ok (answer (b = false))) := by
  cases b with
  | false => exact .decided false
  | true => exact .decided true

/-- What comes before a test is the same for its complement. -/
theorem bind {f g : β → Outcome α} (hself : ∀ e, Alike e e)
    (h : ∀ b, Opposed undecided answer Alike (f b) (g b)) (x : Outcome β) :
    Opposed undecided answer Alike (x >>= f) (x >>= g) := by
  cases x with
  | error e => exact .failed (hself e)
  | ok b => exact h b

end Outcome.Opposed

/-- A test that can be asked either way round. -/
inductive Test
  /-- Whether two values are equal. -/
  | equality
  /-- Whether a value is missing. -/
  | missing
  /-- Whether a value is among others. -/
  | membership
  deriving DecidableEq, Repr

namespace Test

/-- The operator of a test, or of its complement. -/
def operator : Test → Bool → Operator
  | equality, true => .equal
  | equality, false => .notEqual
  | missing, true => .isMissing
  | missing, false => .isNotMissing
  | membership, true => .isIn
  | membership, false => .isNotIn

/-- The function of a test, or of its complement. -/
def function : Test → Bool → Function
  | equality, true => .equal
  | equality, false => .notEqual
  | missing, true => .isMissing
  | missing, false => .isNotMissing
  | membership, true => .isIn
  | membership, false => .isNotIn

end Test

/-! ### Predicates -/

/-- The cause with an operator in the place of the one that it names, if it names one. -/
def Cause.withOperator (operator : Operator) : Cause → Cause
  | unsupportedOperator _ kind => unsupportedOperator operator kind
  | comparisonWithoutValue _ field => comparisonWithoutValue operator field
  | cause => cause

/-- Two operators fail for the same cause, in which each names itself. -/
def Operator.FailAlike (operator other : Operator) (e e' : Failure) : Prop :=
  ∃ cause : Cause,
    e = .ofCause (cause.withOperator operator) ∧ e' = .ofCause (cause.withOperator other)

namespace Predicate

variable (field : String) (literal : Option String) (literals : List String) (v : Value)

/-- Two operators are opposed if they are for every literal: neither has an answer for an absent
    value, and without a literal both fail. -/
theorem opposed_of_compares {operator other : Operator} (hoperator : operator.compares)
    (hother : other.compares)
    (h : ∀ literal, Opposed .unknown .ofBool (operator.FailAlike other)
      (compareWith field operator literal v) (compareWith field other literal v)) :
    Opposed .unknown .ofBool (operator.FailAlike other)
      (evalSimple field operator literal v) (evalSimple field other literal v) := by
  by_cases hv : v.kind = .absent
  · rw [Value.kind_eq_absent_iff.1 hv, evalSimple_absent hoperator, evalSimple_absent hother]
    exact .undecided
  · rw [evalSimple_of_compares hoperator hv, evalSimple_of_compares hother hv]
    cases literal with
    -- Each operator names itself in the failure.
    | none => exact .failed ⟨.comparisonWithoutValue operator field, rfl, rfl⟩
    | some literal => exact h literal

/-- The operators of a test are opposed for every value and literal: memberships fail for
    either, as no list is compared with. -/
theorem opposed_evalSimple (test : Test) :
    Opposed .unknown .ofBool ((test.operator true).FailAlike (test.operator false))
      (evalSimple field (test.operator true) literal v)
      (evalSimple field (test.operator false) literal v) := by
  cases test with
  | equality =>
    refine opposed_of_compares field literal v rfl rfl fun literal => ?_
    simp only [Test.operator, compareWith]
    cases hequals : equalsLiteral field literal v with
    | ok b => exact .decided b
    | error e =>
      -- The literal is what is wrong, and the failure does not name the operator.
      obtain ⟨_, _, rfl⟩ := equalsLiteral_eq_error_iff.1 hequals
      exact .failed ⟨.invalidLiteral field literal, rfl, rfl⟩
  | missing => exact .decided v.isMissing
  | membership =>
    refine opposed_of_compares field literal v rfl rfl fun literal => ?_
    exact .failed ⟨.unsupportedOperator .isIn v.kind, rfl, rfl⟩

/-- A value is in a set, or not in it, and a missing one is neither. -/
theorem opposed_evalSet (Alike : Failure → Failure → Prop) :
    Opposed .unknown .ofBool Alike (.ok (evalSet .isIn literals v))
      (.ok (evalSet .isNotIn literals v)) := by
  rw [evalSet, evalSet]
  split
  · exact .undecided
  · exact .decided _

end Predicate

/-! ### Functions -/

/-- Two functions fail with the same failure, or each by its own name because it does not take as
    many arguments as there are. -/
def Function.FailAlike (function other : Function) (e e' : Failure) : Prop :=
  e = e' ∨ ∃ expected actual, expected ≠ actual ∧
    e = .ofCause (.invalidArity function expected actual) ∧
    e' = .ofCause (.invalidArity other expected actual)

namespace Function

variable {function other : Function}

/-- The same failure is alike, for example that of an argument. -/
theorem FailAlike.refl (e : Failure) : FailAlike function other e e := .inl rfl

/-- Two functions fail alike if each names itself and the number of arguments it takes. -/
theorem FailAlike.arity {expected actual : Nat} (h : expected ≠ actual) :
    FailAlike function other (.ofCause (.invalidArity function expected actual))
      (.ofCause (.invalidArity other expected actual)) :=
  .inr ⟨expected, actual, h, rfl, rfl⟩

/-- Functions of one argument are opposed if they are for every value of it. -/
theorem opposed_unary {f g : Value → Outcome Value}
    (h : ∀ v, Opposed .absent .boolean (FailAlike function other) (f v) (g v)) :
    ∀ arguments, Opposed .absent .boolean (FailAlike function other)
      (unary function f arguments) (unary other g arguments)
  | [] => .failed (.arity (by simp))
  | [v] => .bind .refl h v
  | _ :: _ :: _ => .failed (.arity (by simp))

/-- Functions of two arguments are opposed if they are for all values of them. -/
theorem opposed_binary {f g : Value → Value → Outcome Value}
    (h : ∀ v w, Opposed .absent .boolean (FailAlike function other) (f v w) (g v w)) :
    ∀ arguments, Opposed .absent .boolean (FailAlike function other)
      (binary function f arguments) (binary other g arguments)
  | [] => .failed (.arity (by simp))
  | [_] => .failed (.arity (by simp))
  | [v, w] => .bind .refl (fun x => .bind .refl (h x) w) v
  | _ :: _ :: _ :: _ => .failed (.arity (by simp))

/-- Both look at the same candidates, up to the first that is equal. -/
theorem opposed_membership : ∀ arguments, Opposed .absent .boolean (FailAlike function other)
    (membership function true arguments) (membership other false arguments)
  | [] => .failed (.arity (by simp))
  | v :: candidates => by
    refine .bind .refl (fun v => ?_) v
    split
    · exact .undecided
    · exact .bind .refl .decide_eq (memberOf v candidates)

/-- Comparisons with opposite answers are opposed, and absent for the same operands. -/
theorem opposed_comparison (Alike : Failure → Failure → Prop) (v w : Value) :
    Opposed .absent .boolean Alike (.ok (comparison true v w)) (.ok (comparison false v w)) := by
  rw [comparison, comparison]
  split
  · exact .undecided
  · exact .decide_eq (v.equals w)

/-- The functions of a test are opposed, however many arguments they are given. -/
theorem opposed_apply (test : Test) (arguments : List (Outcome Value)) :
    Opposed .absent .boolean (FailAlike (test.function true) (test.function false))
      ((test.function true).apply arguments) ((test.function false).apply arguments) := by
  cases test with
  | equality => exact opposed_binary (opposed_comparison _) arguments
  | missing => exact opposed_unary (fun v => .decided v.isMissing) arguments
  | membership => exact opposed_membership arguments

end Function

/-- A test and its complement are opposed, for every row: as simple predicates, whatever field and
    literal they compare; as set predicates, which never fail; and as functions, whatever their
    arguments are. -/
theorem Test.opposed (test : Test) (row : Row) :
    (∀ field literal, Opposed .unknown .ofBool
      ((test.operator true).FailAlike (test.operator false))
      (Predicate.eval row (.simple field (test.operator true) literal))
      (Predicate.eval row (.simple field (test.operator false) literal))) ∧
    (∀ field literals, Opposed .unknown .ofBool (fun _ _ => False)
      (Predicate.eval row (.set field .isIn literals))
      (Predicate.eval row (.set field .isNotIn literals))) ∧
    (∀ arguments, Opposed .absent .boolean
      ((test.function true).FailAlike (test.function false))
      ((Expression.apply (test.function true) arguments).eval row)
      ((Expression.apply (test.function false) arguments).eval row)) := by
  refine ⟨fun field literal => ?_, fun field literals => ?_, fun arguments => ?_⟩
  · rw [Predicate.eval, Predicate.eval]
    exact Predicate.opposed_evalSimple field literal (row.value field) test
  · rw [Predicate.eval, Predicate.eval]
    exact Predicate.opposed_evalSet literals (row.value field) _
  · rw [Expression.eval, Expression.eval]
    exact Function.opposed_apply test _

/-- What is not a number does not equal itself, hence differs from itself. -/
example :
    let row : Row := .single "x" (.number (0 / 0))
    let arguments : List Expression := List.replicate 2 (.fieldRef ⟨"x", none, none⟩)
    (Expression.apply .equal arguments).eval row = .ok (.boolean false) ∧
      (Expression.apply .notEqual arguments).eval row = .ok (.boolean true) ∧
      Predicate.eval row (.simple "x" .equal (some "NaN")) = .ok .no ∧
      Predicate.eval row (.simple "x" .notEqual (some "NaN")) = .ok .yes := by
  decide

end Scoring
