import Scoring.Json.Decode
import Scoring.Predicate

/-!
# The format of predicates

A predicate is the word `True` or `False`, or an object with one member, whose name
says what kind of predicate it is and whose content holds the rest.
-/

namespace Scoring.Predicate

open Json (required withDefault ofOption ofMember)

/-- The predicate that a JSON value describes. -/
def ofJson? (v : Json) : Option Predicate :=
  match v with
  | .string "True" | .object [("True", .null)] => some always
  | .string "False" | .object [("False", .null)] => some never
  | .object [("SimplePredicate", content)] => do
    let members ← Json.fields? ["field", "operator", "value"] content
    let field ← required "field" Json.string? members
    let operator ← required "operator" Json.member? members
    let literal ← withDefault "value" none Json.optionalLiteral? members
    some (simple field operator literal)
  | .object [("SimpleSetPredicate", content)] => do
    let members ← Json.fields? ["field", "booleanOperator", "array"] content
    let field ← required "field" Json.string? members
    let operator ← required "booleanOperator" Json.member? members
    let literals ← required "array" (Json.list? Json.literal?) members
    some (set field operator literals)
  | .object [("CompoundPredicate", content)] => do
    let members ← Json.fieldsBelow? ["booleanOperator", "predicates"] content
    let operator ← required "booleanOperator" Json.member? members.1
    let parts ← Json.children? "predicates" members
    let parts ← Json.allSome (parts.map fun ⟨part, _⟩ => ofJson? part)
    some (compound operator parts)
  | _ => none
termination_by v
decreasing_by
  simp
  omega

mutual

/-- A predicate as a JSON value. -/
def toJson : Predicate → Json
  | always => .string "True"
  | never => .string "False"
  | simple field operator literal => .object [("SimplePredicate", .object [
      ("field", .string field), ("operator", ofMember operator),
      ("value", ofOption .string literal)])]
  | set field operator literals => .object [("SimpleSetPredicate", .object [
      ("field", .string field), ("booleanOperator", ofMember operator),
      ("array", .array (literals.map .string))])]
  | compound operator parts => .object [("CompoundPredicate", .object [
      ("booleanOperator", ofMember operator), ("predicates", .array (toJsonEach parts))])]

/-- Several predicates, each as a JSON value. -/
def toJsonEach : List Predicate → List Json
  | [] => []
  | part :: parts => part.toJson :: toJsonEach parts

end

theorem toJsonEach_eq_map (parts : List Predicate) : toJsonEach parts = parts.map toJson := by
  induction parts with
  | nil => rfl
  | cons part parts ih => simp [toJsonEach, ih]

end Scoring.Predicate
