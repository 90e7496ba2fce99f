import Scoring.Format.Regression
import Scoring.Format.Tree
import Scoring.Model

/-!
# The format of models and documents

A model is an object with one member, whose name says which of the three kinds it
is. A document holds one model, and may say something about itself in a header.
-/

namespace Scoring

open Json (required withDefault optional ofOption ofMember)

/-- The target that a JSON value describes. -/
def Target.ofJson? (v : Json) : Option Target := do
  let members ← v.fields? ["field", "rescaleConstant", "rescaleFactor"]
  let field ← optional "field" Json.string? members
  let rescaleConstant ← withDefault "rescaleConstant" 0 Json.float? members
  let rescaleFactor ← withDefault "rescaleFactor" 1 Json.float? members
  some ⟨field, rescaleConstant, rescaleFactor⟩

/-- A target as a JSON value. -/
def Target.toJson (target : Target) : Json := .object [
  ("field", ofOption .string target.field), ("rescaleConstant", .ofFloat target.rescaleConstant),
  ("rescaleFactor", .ofFloat target.rescaleFactor)]

/-! ### Models -/

mutual

/-- The model that a JSON value describes. -/
def Model.ofJson? (v : Json) : Option Model :=
  match v with
  | .object [("TreeModel", content)] => .tree <$> TreeModel.ofJson? content
  | .object [("RegressionModel", content)] => .regression <$> RegressionModel.ofJson? content
  | .object [("MiningModel", content)] => .mining <$> MiningModel.ofJson? content
  | _ => none
termination_by sizeOf v
decreasing_by
  simp
  omega

/-- The ensemble that a JSON value describes. -/
def MiningModel.ofJson? (v : Json) : Option MiningModel := do
  let members ← v.fieldsBelow? [
    "modelName", "functionName", "miningSchema", "output", "localTransformations", "targets",
    "segmentation"]
  let name ← optional "modelName" Json.string? members.1
  let function ← required "functionName" Json.member? members.1
  let schema ← withDefault "miningSchema" ⟨[]⟩ MiningSchema.ofJson? members.1
  let output ← optional "output" Output.ofJson? members.1
  let derivedFields ←
    withDefault "localTransformations" [] (Json.list? DerivedField.ofJson?) members.1
  let targets ← withDefault "targets" [] (Json.list? Target.ofJson?) members.1
  let ⟨segmentation, _⟩ ← Json.child? "segmentation" members
  let members ← segmentation.fieldsBelow? ["multipleModelMethod", "segments"]
  let method ← required "multipleModelMethod" Json.member? members.1
  let segments ← Json.children? "segments" members
  let segments ← Json.allSome (segments.map fun ⟨segment, _⟩ => Segment.ofJson? segment)
  some ⟨name, function, schema, output, derivedFields, targets, method, segments⟩
termination_by sizeOf v
decreasing_by
  omega

/-- The segment that a JSON value describes. -/
def Segment.ofJson? (v : Json) : Option Segment := do
  let members ← v.fieldsBelow? ["id", "weight", "predicates", "model"]
  let id ← withDefault "id" none Json.optionalLiteral? members.1
  let weight ← withDefault "weight" 1 Json.float? members.1
  let predicates ← withDefault "predicates" [] (Json.list? Predicate.ofJson?) members.1
  let ⟨model, _⟩ ← Json.child? "model" members
  let model ← Model.ofJson? model
  some ⟨id, weight, predicates, model⟩
termination_by sizeOf v

end

mutual

/-- A model as a JSON value. -/
def Model.toJson : Model → Json
  | .tree model => .object [("TreeModel", model.toJson)]
  | .regression model => .object [("RegressionModel", model.toJson)]
  | .mining model => .object [("MiningModel", model.toJson)]

/-- An ensemble as a JSON value. -/
def MiningModel.toJson : MiningModel → Json
  | { name, function, schema, output, derivedFields, targets, method, segments } => .object [
      ("modelName", ofOption .string name), ("functionName", ofMember function),
      ("miningSchema", schema.toJson), ("output", ofOption Output.toJson output),
      ("localTransformations", .array (derivedFields.map (·.toJson))),
      ("targets", .array (targets.map (·.toJson))),
      ("segmentation", .object [
        ("multipleModelMethod", ofMember method),
        ("segments", .array (Segment.toJsonEach segments))])]

/-- Several segments, each as a JSON value. -/
def Segment.toJsonEach : List Segment → List Json
  | [] => []
  | segment :: segments => segment.toJson :: Segment.toJsonEach segments

/-- A segment as a JSON value. -/
def Segment.toJson : Segment → Json
  | { id, weight, predicates, model } => .object [
      ("id", ofOption .string id), ("weight", .ofFloat weight),
      ("predicates", .array (predicates.map (·.toJson))), ("model", model.toJson)]

end

theorem Segment.toJsonEach_eq_map (segments : List Segment) :
    Segment.toJsonEach segments = segments.map (·.toJson) := by
  induction segments with
  | nil => rfl
  | cons segment segments ih => simp [Segment.toJsonEach, ih]

/-! ### Documents -/

/-- What a document says about itself. -/
structure Header where
  rights : Option String
  description : Option String
  deriving DecidableEq, Repr

/-- A model as it is kept in a file. -/
structure Document where
  header : Option Header
  model : Model

/-- The header that a JSON value describes. -/
def Header.ofJson? (v : Json) : Option Header := do
  let members ← v.fields? ["copyright", "description"]
  let rights ← optional "copyright" Json.string? members
  let description ← optional "description" Json.string? members
  some ⟨rights, description⟩

/-- A header as a JSON value. -/
def Header.toJson (header : Header) : Json := .object [
  ("copyright", ofOption .string header.rights),
  ("description", ofOption .string header.description)]

/-- The document that a JSON value describes. -/
def Document.ofJson? (v : Json) : Option Document := do
  let members ← v.fields? ["header", "model"]
  let header ← optional "header" Header.ofJson? members
  let model ← required "model" Model.ofJson? members
  some ⟨header, model⟩

/-- A document as a JSON value. -/
def Document.toJson (document : Document) : Json := .object [
  ("header", ofOption Header.toJson document.header), ("model", document.model.toJson)]

end Scoring
