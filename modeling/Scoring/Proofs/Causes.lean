import Scoring.Proofs.Descent
import Scoring.Proofs.Misfits

/-!
# What evaluation fails for

All failures of an evaluation may have a property in common (`Outcome.FailsOnly`). If
each step of an evaluation fails only with it, so does the evaluation.

* An expression fails only for a wrong number of arguments or for a coercion
  (`Expression.failsOnly_eval`).
* What contains no model and no derived field adds no context. Predicates, trees and
  tables fail *bare* (`Failure.Bare`): there is nothing around the cause.
-/

namespace Scoring

namespace Outcome

/-- Whatever an evaluation fails with has a property. -/
def FailsOnly {α : Type} (p : Failure → Prop) (x : Outcome α) : Prop := ∀ e, x = .error e → p e

namespace FailsOnly

variable {α β : Type} {p q : Failure → Prop} {x : Outcome α} {f : α → Outcome β}

/-- A value is not a failure. -/
theorem ok (a : α) : FailsOnly p (.ok a) := nofun

/-- Failing with a cause is failing with that cause and no context. -/
theorem fail {cause : Cause} (h : p (.ofCause cause)) : FailsOnly p (.fail cause : Outcome α) := by
  rintro e he
  obtain rfl := Except.error.inj he
  exact h

/-- The property of the failures may be replaced with a weaker one. -/
theorem mono (hx : FailsOnly p x) (h : ∀ e, p e → q e) : FailsOnly q x :=
  fun e he => h e (hx e he)

/-- Of two evaluations in sequence, either may be the one to fail. -/
theorem bind (hx : FailsOnly p x) (hf : ∀ a, FailsOnly p (f a)) : FailsOnly p (x >>= f) := by
  intro e he
  rcases bind_eq_error_iff.1 he with he | ⟨a, _, he⟩
  · exact hx e he
  · exact hf a e he

/-- A function of the result adds no failures. -/
theorem map (hx : FailsOnly p x) (g : α → β) : FailsOnly p (g <$> x) :=
  fun e he => hx e (map_eq_error_iff.1 he)

/-- A choice between two evaluations fails as the one that is chosen. -/
theorem ite {c : Prop} [Decidable c] {y : Outcome α} (hx : FailsOnly p x) (hy : FailsOnly p y) :
    FailsOnly p (if c then x else y) := by
  split
  · exact hx
  · exact hy

end FailsOnly

end Outcome

open Outcome

/-! ### Expressions -/

/-- What expressions fail with: a number of arguments that a function does not take, or
    a value that cannot be coerced. -/
inductive Failure.OfExpression : Failure → Prop
  | arity (function : Function) (expected actual : Nat) :
      OfExpression (.ofCause (.invalidArity function expected actual))
  | coercion (value : Value) (dataType : DataType) :
      OfExpression (.ofCause (.coercion value dataType))

/-- A value that is no number fails to be coerced to one. -/
theorem Value.failsOnly_toNumber (v : Value) : FailsOnly Failure.OfExpression v.toNumber := by
  rw [toNumber]
  split
  · exact .ok _
  · exact .fail (.coercion _ _)

/-- Coercions fail as coercions, whatever the data type. -/
theorem Value.failsOnly_coerce (v : Value) (dataType : DataType) :
    FailsOnly Failure.OfExpression (v.coerce dataType) := by
  rw [coerce.eq_def]
  refine .ite (.ok _) ?_
  -- A text can be made of every value, and a boolean or a number not.
  rcases dataType with _ | _ | _ | _ | _
  · exact .ok _
  · exact v.failsOnly_toNumber.map _
  · exact v.failsOnly_toNumber.map _
  · exact v.failsOnly_toNumber.map _
  · cases v.boolean? with
    | some b => exact .ok _
    | none => exact .fail (.coercion _ _)

/-- Coercions to a data type that may not be declared fail as coercions. -/
theorem Value.failsOnly_coerceTo (v : Value) (dataType : Option DataType) :
    FailsOnly Failure.OfExpression (v.coerceTo dataType) := by
  rcases dataType with _ | dataType
  · exact .ok _
  · exact v.failsOnly_coerce dataType

namespace Function

variable {function : Function} {arguments : List (Outcome Value)}

/-- Arithmetic fails where an operand is no number. -/
theorem failsOnly_arithmetic (operation : Float → Float → Option Float) (v w : Value) :
    FailsOnly Failure.OfExpression (arithmetic operation v w) := by
  rw [arithmetic]
  refine .ite (.ok _) (v.failsOnly_toNumber.bind fun x => w.failsOnly_toNumber.bind fun y => ?_)
  split
  · exact .ok _
  · exact .ok _

/-- A function of one argument fails as its argument, by itself, or for the number of arguments. -/
theorem failsOnly_unary {f : Value → Outcome Value}
    (hf : ∀ v, FailsOnly Failure.OfExpression (f v))
    (h : ∀ argument ∈ arguments, FailsOnly Failure.OfExpression argument) :
    FailsOnly Failure.OfExpression (unary function f arguments) := by
  rw [unary.eq_def]
  split
  · exact (h _ List.mem_cons_self).bind hf
  · exact .fail (.arity _ _ _)

/-- A function of two arguments fails as its arguments, by itself, or for the number of
    arguments. -/
theorem failsOnly_binary {f : Value → Value → Outcome Value}
    (hf : ∀ v w, FailsOnly Failure.OfExpression (f v w))
    (h : ∀ argument ∈ arguments, FailsOnly Failure.OfExpression argument) :
    FailsOnly Failure.OfExpression (binary function f arguments) := by
  rw [binary.eq_def]
  split
  · obtain ⟨hv, hw, _⟩ := List.forall_mem_cons.1 h |>.imp id List.forall_mem_cons.1
    exact hv.bind fun v => hw.bind (hf v)
  · exact .fail (.arity _ _ _)

/-- A search for a member fails as the candidates it comes to. -/
theorem failsOnly_memberOf (v : Value)
    (h : ∀ argument ∈ arguments, FailsOnly Failure.OfExpression argument) :
    FailsOnly Failure.OfExpression (memberOf v arguments) := by
  induction arguments with
  | nil => exact .ok _
  | cons candidate candidates ih =>
    obtain ⟨hcandidate, hcandidates⟩ := List.forall_mem_cons.1 h
    -- The search ends at a member, so that later candidates have no chance to fail.
    exact hcandidate.bind fun w => .ite (.ok _) (ih hcandidates)

/-- A membership fails as its arguments, or because there is not even a needle. -/
theorem failsOnly_membership {answer : Bool}
    (h : ∀ argument ∈ arguments, FailsOnly Failure.OfExpression argument) :
    FailsOnly Failure.OfExpression (membership function answer arguments) := by
  rcases arguments with _ | ⟨v, candidates⟩
  · exact .fail (.arity _ _ _)
  · obtain ⟨hv, hcandidates⟩ := List.forall_mem_cons.1 h
    exact hv.bind fun v => .ite (.ok _) ((failsOnly_memberOf v hcandidates).bind fun _ => .ok _)

/-- A function fails as its arguments, for the number of its arguments, or at a coercion. -/
theorem failsOnly_apply (function : Function)
    (h : ∀ argument ∈ arguments, FailsOnly Failure.OfExpression argument) :
    FailsOnly Failure.OfExpression (function.apply arguments) := by
  cases function with
  | add | subtract | multiply | divide => exact failsOnly_binary (failsOnly_arithmetic _) h
  | isMissing | isNotMissing => exact failsOnly_unary (fun _ => .ok _) h
  | equal | notEqual => exact failsOnly_binary (fun _ _ => .ok _) h
  | isIn | isNotIn => exact failsOnly_membership h

end Function

/-- An expression fails for a number of arguments or at a coercion, by induction on the
    applications in it. -/
theorem Expression.failsOnly_eval (expression : Expression) (row : Row) :
    FailsOnly Failure.OfExpression (expression.eval row) := by
  induction expression using Expression.induction with
  | fieldRef ref => exact Value.failsOnly_coerceTo _ _
  | constant value dataType => exact value.failsOnly_coerceTo dataType
  | apply function arguments ih =>
    rw [eval, evalEach_eq_map]
    exact function.failsOnly_apply (List.forall_mem_map.2 ih)

/-! ### Bare failures -/

namespace Failure

variable {failure : Failure}

/-- There is nothing around the cause of a failure. -/
def Bare (failure : Failure) : Prop := failure.contexts = []

/-- A cause by itself is bare. -/
theorem bare_ofCause (cause : Cause) : (ofCause cause).Bare := rfl

/-- A failure with a context around is not bare, so nothing is left but a cause. -/
theorem Bare.exists_ofCause (h : failure.Bare) : ∃ cause, failure = .ofCause cause := by
  cases failure with
  | ofCause cause => exact ⟨cause, rfl⟩
  | within context failure => cases h

/-- The root is what is left when all contexts are taken away. -/
theorem bare_root (failure : Failure) : failure.root.Bare := by
  rw [root_eq]
  exact bare_ofCause failure.cause

end Failure

/-- What expressions fail with has no context. -/
theorem Failure.OfExpression.bare {failure : Failure} (h : failure.OfExpression) :
    failure.Bare := by
  rcases h with _ | _
  · exact bare_ofCause _
  · exact bare_ofCause _

/-- A failed coercion to a number has no context. -/
theorem Value.bare_toNumber (v : Value) : FailsOnly Failure.Bare v.toNumber :=
  v.failsOnly_toNumber.mono fun _ => Failure.OfExpression.bare

namespace Predicate

/-- What predicates fail with has no context. -/
theorem bare_eval (predicate : Predicate) (row : Row) :
    FailsOnly Failure.Bare (predicate.eval row) := by
  intro e he
  obtain ⟨_, _, _, cause, _, _, rfl⟩ := eval_eq_error_iff.1 he
  exact Failure.bare_ofCause cause

/-- What conjunctions fail with has no context. -/
theorem bare_evalAll (row : Row) (parts : List Predicate) :
    FailsOnly Failure.Bare (evalAll row parts) := by
  rw [evalAll_eq]
  exact bare_eval _ row

end Predicate

/-! ### Trees and tables -/

/-- A descent fails at a guard, or for what is wrong with a default child, without a context. -/
theorem Node.Fails.bare {policy : DescentPolicy} {row : Row} {node : Node} {e : Failure}
    (h : Node.Fails policy row node e) : e.Bare := by
  cases h with
  | guard _ heval => exact Predicate.bare_eval _ _ e heval
  | noDefault | strangeDefault | unsupported => exact Failure.bare_ofCause _

/-- Looking for the node of a row fails without a context. -/
theorem TreeModel.bare_terminal (tree : TreeModel) (row : Row) :
    FailsOnly Failure.Bare (tree.terminal row) := by
  refine (tree.root.predicate.bare_eval row).bind fun answer => ?_
  rcases answer with _ | _ | _
  · intro e he
    obtain ⟨_, _, hfails⟩ := Node.descend_eq_error_iff.1 he
    exact hfails.bare
  · exact .ok _
  · exact .ok _

/-- A tree fails without a context: at a predicate, at a node without a score, or at a score
    that is no number. -/
theorem TreeModel.bare_score (tree : TreeModel) (row : Row) :
    FailsOnly Failure.Bare (tree.score row) := by
  refine (tree.bare_terminal row).bind fun terminal => ?_
  rcases terminal with _ | node
  · exact .ok _
  -- Only a node with a score makes a prediction, which may fail to be a number.
  rcases hscore : node.score with _ | score
  · simp only [hscore]
    exact .fail rfl
  · simp only [hscore]
    have hprediction : FailsOnly Failure.Bare (tree.prediction score) := by
      rw [prediction]
      rcases tree.function with _ | _
      · exact .ok _
      · simp only
        split
        · exact .ok _
        · exact .fail rfl
    exact (hprediction.bind fun _ => .ok _).map _

namespace Predictor

/-- The product of the factors of a term fails without a context. -/
theorem bare_product (row : Row) (acc : Float) (factors : List FieldRef) :
    FailsOnly Failure.Bare (product row acc factors) := by
  induction factors generalizing acc with
  | nil => exact .ok _
  | cons ref refs ih =>
    rw [product]
    exact .ite (.ok _) ((Value.bare_toNumber _).bind fun x => ih (acc * x))

/-- A predictor fails without a context. -/
theorem bare_contribution (row : Row) (predictor : Predictor) :
    FailsOnly Failure.Bare (predictor.contribution row) := by
  rcases predictor with ⟨name, exponent, coefficient⟩ | _ | ⟨name, coefficient, factors⟩
  · rw [contribution]
    exact .ite (.ok _) ((Value.bare_toNumber _).bind fun _ => .ok _)
  · exact .ok _
  · refine (bare_product row 1 factors).bind fun product => ?_
    rcases product with _ | _
    · exact .ok _
    · exact .ok _

end Predictor

/-- A table fails without a context, as the first predictor that fails. -/
theorem RegressionTable.bare_score (row : Row) (table : RegressionTable) :
    FailsOnly Failure.Bare (table.score row) := by
  rw [score]
  -- The total is generalized, as every predictor adds to it.
  generalize table.intercept = total
  induction table.predictors generalizing total with
  | nil => exact .ok _
  | cons predictor predictors ih =>
    exact (predictor.bare_contribution row).bind fun x => ih (total + x)

namespace RegressionModel

/-- The scores of the classes fail without a context, also for a table that has no class. -/
theorem bare_classScores (row : Row) (tables : List RegressionTable) :
    FailsOnly Failure.Bare (classScores row tables) := by
  induction tables with
  | nil => exact .ok _
  | cons table tables ih =>
    rw [classScores]
    split
    · exact .fail rfl
    · exact (table.bare_score row).bind fun _ => ih.bind fun _ => .ok _

/-- A regression model fails without a context. -/
theorem bare_score (model : RegressionModel) (row : Row) :
    FailsOnly Failure.Bare (model.score row) := by
  rw [score]
  cases model.function with
  | regression =>
    simp only [scoreNumber]
    split
    · exact (RegressionTable.bare_score row _).bind fun _ => .ok _
    · exact .fail rfl
  | classification =>
    refine (bare_classScores row model.tables).bind fun scores => ?_
    rcases scores with _ | _
    · exact .fail rfl
    · exact .ok _

end RegressionModel

end Scoring
