import Scoring.Expression
import Scoring.Json.Decode

/-!
# The format of expressions

An expression is an object with one member, whose name says whether it is a field
reference, a constant or the application of a function. A derived field is an
expression with a name.
-/

namespace Scoring

open Json (required withDefault optional ofOption ofMember)

/-- The field reference that a JSON value describes. -/
def FieldRef.ofJson? (v : Json) : Option FieldRef := do
  let members ← v.fields? ["field", "dataType", "mapMissingTo"]
  let field ← required "field" Json.string? members
  let dataType ← optional "dataType" Json.member? members
  let mapMissingTo ← withDefault "mapMissingTo" none Json.optionalLiteral? members
  some ⟨field, dataType, mapMissingTo⟩

/-- A field reference as a JSON value. -/
def FieldRef.toJson (ref : FieldRef) : Json := .object [
  ("field", .string ref.field), ("dataType", ofOption ofMember ref.dataType),
  ("mapMissingTo", ofOption .string ref.mapMissingTo)]

namespace Expression

/-- The expression that a JSON value describes. -/
def ofJson? (v : Json) : Option Expression :=
  match v with
  | .object [("FieldRef", content)] => fieldRef <$> FieldRef.ofJson? content
  | .object [("Constant", content)] => do
    let members ← content.fields? ["value", "dataType"]
    let value ← required "value" Json.value? members
    let dataType ← optional "dataType" Json.member? members
    some (constant value dataType)
  | .object [("Apply", content)] => do
    let members ← content.fieldsBelow? ["function", "children"]
    let function ← required "function" Json.member? members.1
    let arguments ← Json.childrenOrNone? "children" members
    let arguments ← Json.allSome (arguments.map fun ⟨argument, _⟩ => ofJson? argument)
    some (apply function arguments)
  | _ => none
termination_by v
decreasing_by
  simp
  omega

mutual

/-- An expression as a JSON value. -/
def toJson : Expression → Json
  | fieldRef ref => .object [("FieldRef", ref.toJson)]
  | constant value dataType => .object [("Constant", .object [
      ("value", Json.ofValue value), ("dataType", ofOption ofMember dataType)])]
  | apply function arguments => .object [("Apply", .object [
      ("function", ofMember function), ("children", .array (toJsonEach arguments))])]

/-- Several expressions, each as a JSON value. -/
def toJsonEach : List Expression → List Json
  | [] => []
  | argument :: arguments => argument.toJson :: toJsonEach arguments

end

theorem toJsonEach_eq_map (arguments : List Expression) :
    toJsonEach arguments = arguments.map toJson := by
  induction arguments with
  | nil => rfl
  | cons argument arguments ih => simp [toJsonEach, ih]

end Expression

/-- The derived field that a JSON value describes. -/
def DerivedField.ofJson? (v : Json) : Option DerivedField := do
  let members ← v.fields? ["name", "optype", "dataType", "expression"]
  let name ← required "name" Json.string? members
  let opType ← optional "optype" Json.member? members
  let dataType ← optional "dataType" Json.member? members
  let expression ← required "expression" Expression.ofJson? members
  some ⟨name, opType, dataType, expression⟩

/-- A derived field as a JSON value. -/
def DerivedField.toJson (field : DerivedField) : Json := .object [
  ("name", .string field.name), ("optype", ofOption ofMember field.opType),
  ("dataType", ofOption ofMember field.dataType), ("expression", field.expression.toJson)]

end Scoring
