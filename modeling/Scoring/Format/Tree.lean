import Scoring.Format.Predicate
import Scoring.Format.Schema
import Scoring.Tree

/-!
# The format of trees

A node is an object whose field `nodes` lists the nodes below it; a leaf may go
without. The strategies of a tree are fields of the tree itself.
-/

namespace Scoring

open Json (required withDefault optional ofOption ofMember)

/-- The score distribution that a JSON value describes. -/
def ScoreDistribution.ofJson? (v : Json) : Option ScoreDistribution := do
  let members ← v.fields? ["value", "recordCount", "confidence", "probability"]
  let value ← required "value" Json.literal? members
  let recordCount ← required "recordCount" Json.float? members
  let confidence ← optional "confidence" Json.float? members
  let probability ← optional "probability" Json.float? members
  some ⟨value, recordCount, confidence, probability⟩

/-- A score distribution as a JSON value. -/
def ScoreDistribution.toJson (d : ScoreDistribution) : Json := .object [
  ("value", .string d.value), ("recordCount", .ofFloat d.recordCount),
  ("confidence", ofOption .ofFloat d.confidence),
  ("probability", ofOption .ofFloat d.probability)]

namespace Node

/-- The node that a JSON value describes. -/
def ofJson? (v : Json) : Option Node := do
  let members ← v.fieldsBelow? [
    "id", "score", "recordCount", "defaultChild", "predicate", "scoreDistributions", "nodes"]
  let id ← withDefault "id" none Json.optionalLiteral? members.1
  let score ← withDefault "score" none Json.optionalLiteral? members.1
  let recordCount ← optional "recordCount" Json.float? members.1
  let defaultChild ← withDefault "defaultChild" none Json.optionalLiteral? members.1
  let predicate ← required "predicate" Predicate.ofJson? members.1
  let distributions ←
    withDefault "scoreDistributions" [] (Json.list? ScoreDistribution.ofJson?) members.1
  let children ← Json.childrenOrNone? "nodes" members
  let children ← Json.allSome (children.map fun ⟨child, _⟩ => ofJson? child)
  some ⟨id, score, recordCount, defaultChild, predicate, distributions, children⟩
termination_by v

mutual

/-- A node as a JSON value. -/
def toJson : Node → Json
  | { id, score, recordCount, defaultChild, predicate, distributions, children } => .object [
      ("id", ofOption .string id), ("score", ofOption .string score),
      ("recordCount", ofOption .ofFloat recordCount),
      ("defaultChild", ofOption .string defaultChild), ("predicate", predicate.toJson),
      ("scoreDistributions", .array (distributions.map (·.toJson))),
      ("nodes", .array (toJsonEach children))]

/-- Several nodes, each as a JSON value. -/
def toJsonEach : List Node → List Json
  | [] => []
  | child :: children => child.toJson :: toJsonEach children

end

theorem toJsonEach_eq_map (children : List Node) : toJsonEach children = children.map toJson := by
  induction children with
  | nil => rfl
  | cons child children ih => simp [toJsonEach, ih]

end Node

/-- The tree that a JSON value describes. -/
def TreeModel.ofJson? (v : Json) : Option TreeModel := do
  let members ← v.fields? [
    "modelName", "functionName", "miningSchema", "output", "missingValueStrategy",
    "noTrueChildStrategy", "node"]
  let name ← optional "modelName" Json.string? members
  let function ← required "functionName" Json.member? members
  let schema ← withDefault "miningSchema" ⟨[]⟩ MiningSchema.ofJson? members
  let output ← optional "output" Output.ofJson? members
  let missingValue ← withDefault "missingValueStrategy" .passOver Json.member? members
  let noTrueChild ← withDefault "noTrueChildStrategy" .returnLastPrediction Json.member? members
  let root ← required "node" Node.ofJson? members
  some ⟨name, function, schema, output, ⟨missingValue, noTrueChild⟩, root⟩

/-- A tree as a JSON value. -/
def TreeModel.toJson (model : TreeModel) : Json := .object [
  ("modelName", ofOption .string model.name), ("functionName", ofMember model.function),
  ("miningSchema", model.schema.toJson), ("output", ofOption Output.toJson model.output),
  ("missingValueStrategy", ofMember model.policy.missingValue),
  ("noTrueChildStrategy", ofMember model.policy.noTrueChild), ("node", model.root.toJson)]

end Scoring
