import Scoring.Text.Quoted
import Scoring.Value

/-!
# Failures

Evaluation fails for a *cause*: a model that is malformed or asks for what is not
supported, or a value that cannot serve as what an operation needs. Missing data
is no cause of failure; each part of the library has a rule for it.

A failure is a cause, or a failure within a *context*: a named model, a segment, or a
derived field, which adds itself on the way from the cause to the model that was scored.
What is asked of a failure is found within its contexts, one after the other: its root
(`Failure.root`), the kind of the root (`Failure.kind`), and the wording, in which each
context stands before what it surrounds (`Failure.message`).
-/

namespace Scoring

/-- Why evaluation failed. -/
inductive Cause
  /-- The descent of a tree ended at a node without a score. -/
  | terminalWithoutScore (node : String)
  /-- A descent called for the default child of a node that names none. -/
  | noDefaultChild (node : String)
  /-- A node names as its default child what is not a child of it. -/
  | strangeDefaultChild (node child : String)
  /-- An operator has no meaning for values of a kind. -/
  | unsupportedOperator (operator : Operator) (kind : ValueKind)
  /-- The literal that a field is compared with does not fit its kind. -/
  | invalidLiteral (field literal : String)
  /-- A function has the wrong number of arguments. -/
  | invalidArity (function : Function) (expected actual : Nat)
  | unsupportedStrategy (strategy : MissingValueStrategy)
  | unsupportedMethod (method : MultipleModelMethod)
  /-- A predicate compares a field with nothing. -/
  | comparisonWithoutValue (operator : Operator) (field : String)
  /-- A regression model that predicts a number does not have exactly one table. -/
  | tableCount (tables : Nat)
  /-- A regression model that predicts a class has no tables. -/
  | noTables
  /-- One of the tables of a classification belongs to no class. -/
  | tableWithoutCategory
  /-- A value cannot be turned into what is needed. -/
  | coercion (value : Value) (dataType : DataType)
  deriving DecidableEq

/-- Where evaluation failed. -/
inductive Context
  | model (name : String)
  | segment (label : String)
  | derivedField (name : String)
  deriving DecidableEq, Repr

/-- A cause with the contexts around it. -/
inductive Failure
  | ofCause (cause : Cause)
  | within (context : Context) (failure : Failure)
  deriving DecidableEq

/-- The result of an evaluation that may fail. -/
abbrev Outcome (α : Type) := Except Failure α

instance {α : Type} [DecidableEq α] : DecidableEq (Outcome α)
  | .ok a, .ok b => if h : a = b then isTrue (h ▸ rfl) else isFalse (fun e => h (by injection e))
  | .error a, .error b =>
    if h : a = b then isTrue (h ▸ rfl) else isFalse (fun e => h (by injection e))
  | .ok _, .error _ => isFalse (fun e => by cases e)
  | .error _, .ok _ => isFalse (fun e => by cases e)

/-- The coarse division of causes. -/
inductive FailureKind
  /-- The model is at fault. -/
  | structural
  /-- A value is at fault. -/
  | value
  deriving DecidableEq, Repr

/-- The name of a kind of failures. -/
def FailureKind.name : FailureKind → String
  | .structural => "structural"
  | .value => "value"

namespace Cause

/-- Only a value that cannot be coerced is not the model's fault. -/
def kind : Cause → FailureKind
  | coercion _ _ => .value
  | _ => .structural

/-- The wording of a cause. -/
def message : Cause → String
  | terminalWithoutScore node => "terminal node without score, node id: " ++ node
  | noDefaultChild node => "node " ++ node ++ " has no default child"
  | strangeDefaultChild node child =>
    "node " ++ node ++ " names default child " ++ child ++ ", which is not one of its children"
  | unsupportedOperator operator kind =>
    "operator " ++ Vocabulary.word operator ++ " is not supported for " ++ kind.name ++ " values"
  | invalidLiteral field literal =>
    "invalid literal for " ++ field ++ ": " ++ Text.quoted literal
  | invalidArity function expected actual =>
    "function " ++ Vocabulary.word function ++ " expects " ++ toString expected ++
      " arguments, got " ++ toString actual
  | unsupportedStrategy strategy =>
    "missing value strategy " ++ Vocabulary.word strategy ++ " is not supported"
  | unsupportedMethod method =>
    "multiple model method " ++ Vocabulary.word method ++ " is not supported"
  | comparisonWithoutValue operator field =>
    "malformed model: " ++ Vocabulary.word operator ++ " predicate on " ++ field ++ " has no value"
  | tableCount tables =>
    "malformed model: regression model needs exactly one table, found " ++ toString tables
  | noTables => "malformed model: classification model has no tables"
  | tableWithoutCategory => "malformed model: classification table without targetCategory"
  | coercion value dataType =>
    "cannot coerce " ++ value.kind.name ++ " " ++ Text.quoted value.display ++ " to " ++
      Vocabulary.word dataType

end Cause

/-- The wording of a context, as it stands before what it surrounds. -/
def Context.message : Context → String
  | model name => "model " ++ name ++ ": "
  | segment label => "segment " ++ label ++ ": "
  | derivedField name => "derived field " ++ name ++ ": "

namespace Failure

/-- The contexts of a failure, outermost first. -/
def contexts : Failure → List Context
  | ofCause _ => []
  | within context failure => context :: failure.contexts

/-- The cause at the bottom of a failure. -/
def cause : Failure → Cause
  | ofCause cause => cause
  | within _ failure => failure.cause

/-- The innermost failure, without a context. -/
def root : Failure → Failure
  | within _ failure => failure.root
  | failure => failure

/-- The kind of a failure is that of its cause; contexts do not count. -/
def kind : Failure → FailureKind
  | ofCause cause => cause.kind
  | within _ failure => failure.kind

/-- The wording of a failure: its contexts from the outermost on, then its cause. -/
def message : Failure → String
  | ofCause cause => cause.message
  | within context failure => context.message ++ failure.message

/-- The root is reached through all contexts, and is nothing but the cause. -/
theorem root_eq (failure : Failure) : failure.root = .ofCause failure.cause := by
  induction failure with
  | ofCause cause => rfl
  | within context failure ih => exact ih

/-- A failure is its root with its contexts around, the innermost first. -/
theorem foldr_within_root (failure : Failure) :
    failure.contexts.foldr within failure.root = failure := by
  induction failure with
  | ofCause cause => rfl
  | within context failure ih => exact congrArg (within context) ih

/-- No context changes the kind of a failure. -/
theorem kind_eq (failure : Failure) : failure.kind = failure.cause.kind := by
  induction failure with
  | ofCause cause => rfl
  | within context failure ih => exact ih

theorem kind_root (failure : Failure) : failure.root.kind = failure.kind := by
  rw [root_eq, kind_eq failure, kind]

/-- The wording names all contexts, from the outermost on, before it comes to the cause. -/
theorem message_eq (failure : Failure) : failure.message =
    failure.contexts.foldr (fun context rest => context.message ++ rest)
      failure.cause.message := by
  induction failure with
  | ofCause cause => rfl
  | within context failure ih => exact congrArg (context.message ++ ·) ih

end Failure

namespace Outcome

variable {α : Type}

/-- The outcome that fails for a cause. -/
def fail (cause : Cause) : Outcome α := .error (.ofCause cause)

/-- The outcome, with a context around its failure. -/
def within (context : Context) (outcome : Outcome α) : Outcome α :=
  match outcome with
  | .ok a => .ok a
  | .error failure => .error (failure.within context)

end Outcome

end Scoring
