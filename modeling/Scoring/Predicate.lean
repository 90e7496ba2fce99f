import Scoring.Truth
import Scoring.Value.Coercion

/-!
# Predicates

A predicate guards a node of a tree or a segment of an ensemble. It asks about
one field (`Predicate.simple`, `Predicate.set`) or joins the answers of its parts
(`Predicate.compound`).

A question about a field whose value is absent, or is a text that does not read as
the number asked for, has the answer `unknown`. Only `isMissing` and `isNotMissing`
always know. What makes a predicate fail is its own form: an operator that has no
meaning for the kind of the value, or a literal that is lacking or does not read
as what the operator needs.

Equality in a simple predicate ignores the case of a text; membership in a set does
not.
-/

namespace Scoring

/-- A question that a row answers. -/
inductive Predicate
  /-- Holds of every row. -/
  | always
  /-- Holds of no row. -/
  | never
  /-- Compares a field with a literal, which the missing-value operators do without. -/
  | simple (field : String) (operator : Operator) (literal : Option String)
  /-- Asks whether the value of a field is among the literals. -/
  | set (field : String) (operator : SetOperator) (literals : List String)
  /-- Joins the answers of its parts. -/
  | compound (operator : BooleanOperator) (parts : List Predicate)

namespace Predicate

/-- Whether a value of the field equals the literal. A boolean equals boolean words
    only, a number equal numbers; a text equals the same text in any case, and what
    reads as an equal number. -/
def equalsLiteral (field literal : String) (v : Value) : Outcome Bool :=
  match v with
  | .boolean b => match Text.boolean? literal with
    | some c => .ok (b = c)
    | none => .fail (.invalidLiteral field literal)
  | .text s => .ok (Text.equalIgnoringCase s literal || Value.sameNumber s literal)
  | v => .ok (v.matchesLiteral literal)

/-- How a value of the field stands to a literal that is a bound. -/
def compareWithBound (field : String) (operator : Operator) (test : Float → Float → Bool)
    (literal : String) (v : Value) : Outcome Truth :=
  if v.kind = .boolean then .fail (.unsupportedOperator operator .boolean)
  else match Number.read? literal, v.number? with
  | none, _ => .fail (.invalidLiteral field literal)
  | some _, none => .ok .unknown
  | some bound, some x => .ok (.ofBool (test x bound))

/-- How a value of the field, not absent, stands to a literal. -/
def compareWith (field : String) (operator : Operator) (literal : String) (v : Value) :
    Outcome Truth :=
  match operator with
  | .equal => Truth.ofBool <$> equalsLiteral field literal v
  | .notEqual => (Truth.ofBool ∘ not) <$> equalsLiteral field literal v
  | .lessThan => compareWithBound field operator (fun x y => x < y) literal v
  | .lessOrEqual => compareWithBound field operator (fun x y => x ≤ y) literal v
  | .greaterThan => compareWithBound field operator (fun x y => y < x) literal v
  | .greaterOrEqual => compareWithBound field operator (fun x y => y ≤ x) literal v
  | .isIn | .isNotIn | .isMissing | .isNotMissing =>
    .fail (.unsupportedOperator operator v.kind)

/-- The answer of a simple predicate for the value of its field. -/
def evalSimple (field : String) (operator : Operator) (literal : Option String) (v : Value) :
    Outcome Truth :=
  match operator with
  | .isMissing => .ok (.ofBool v.isMissing)
  | .isNotMissing => .ok (.ofBool (!v.isMissing))
  | operator =>
    if v = .absent then .ok .unknown
    else match literal with
    | none => .fail (.comparisonWithoutValue operator field)
    | some literal => compareWith field operator literal v

/-- The answer of a set predicate for the value of its field. -/
def evalSet (operator : SetOperator) (literals : List String) (v : Value) : Truth :=
  if v = .absent then .unknown
  else
    let member := literals.any v.matchesLiteral
    match operator with
    | .isIn => .ofBool member
    | .isNotIn => .ofBool (!member)

mutual

/-- The answer of a predicate for a row. -/
def eval (row : Row) : Predicate → Outcome Truth
  | always => .ok .yes
  | never => .ok .no
  | simple field operator literal => evalSimple field operator literal (row.value field)
  | set field operator literals => .ok (evalSet operator literals (row.value field))
  | compound operator parts => operator.join (evalEach row parts)

/-- The answers of several predicates, each for itself. -/
def evalEach (row : Row) : List Predicate → List (Outcome Truth)
  | [] => []
  | part :: parts => part.eval row :: evalEach row parts

end

theorem evalEach_eq_map (row : Row) (parts : List Predicate) :
    evalEach row parts = parts.map (eval row) := by
  induction parts with
  | nil => rfl
  | cons part parts ih => simp [evalEach, ih]

/-- Whether all of several predicates hold, as the guard of a segment asks; of none,
    they do. -/
def evalAll (row : Row) (parts : List Predicate) : Outcome Truth :=
  Truth.all (parts.map (eval row))

end Predicate

end Scoring
