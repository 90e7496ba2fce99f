import Scoring.Batch
import Scoring.Format.Model
import Scoring.Proofs.Decoding
import Scoring.Proofs.Induction
import Scoring.Proofs.Record

/-!
# The formats, there and back

For each format there are two theorems.

* `ofJson?_toJson`: what is written is decoded as it was, if its numbers are finite. The
  proofs go along the structure of what is written.
* `isFinite_of_decoded`: what is decoded from finite numbers has finite numbers, so that
  the first theorem applies to it. Where a format has no numbers, or only integers, there
  is nothing to show.

The decoders that call themselves know that the parts of a value are smaller than it is.
Before anything else they are brought into the form of the others (`Node.ofJson?_eq` and
its like).
-/

namespace Scoring

open Json (required withDefault ofOption ofMember)

/-! ### Schemas and outputs -/

/-- A field of a schema is read from what is written for it. -/
theorem MiningField.ofJson?_toJson (field : MiningField) : ofJson? field.toJson = some field := by
  simp [ofJson?, toJson]

/-- A schema is read from what is written for it, field by field. -/
theorem MiningSchema.ofJson?_toJson (schema : MiningSchema) :
    ofJson? schema.toJson = some schema := by
  have hfields := Json.list?_array fun (field : MiningField) (_ : field ∈ schema.fields) =>
    field.ofJson?_toJson
  simp [ofJson?, toJson, hfields]

/-- An output field is read from what is written for it. -/
theorem OutputField.ofJson?_toJson (field : OutputField) : ofJson? field.toJson = some field := by
  simp [ofJson?, toJson]

/-- Output fields are read from what is written for them. -/
theorem Output.ofJson?_toJson (output : Output) : ofJson? output.toJson = some output := by
  have hfields := Json.list?_array fun (field : OutputField) (_ : field ∈ output.fields) =>
    field.ofJson?_toJson
  simp [ofJson?, toJson, hfields]

/-- Output fields that may be lacking are read from what is written for them. -/
theorem Output.nullable?_toJson (output : Option Output) :
    Json.nullable? ofJson? (ofOption toJson output) = some output :=
  Json.nullable?_ofOption rfl fun output _ => output.ofJson?_toJson

/-! ### Predicates -/

namespace Predicate

/-- A compound predicate is its operator and its parts, which are predicates again. -/
theorem ofJson?_compound (content : Json) : ofJson? (.object [("CompoundPredicate", content)]) = (do
    let members ← content.fields? ["booleanOperator", "predicates"]
    let operator ← required "booleanOperator" Json.member? members
    let parts ← required "predicates" (Json.list? ofJson?) members
    some (compound operator parts)) := by
  rw [ofJson?]
  simp only [Option.bind_eq_bind, ← Json.fieldsBelow?_bind, ← Json.children?_bind,
    Option.bind_assoc]

/-- A predicate is read from what is written for it, by induction on the compounds in it. -/
theorem ofJson?_toJson (predicate : Predicate) : ofJson? predicate.toJson = some predicate := by
  induction predicate using Predicate.induction with
  | always | never => simp [ofJson?, toJson]
  | simple field operator literal =>
    simp [ofJson?, toJson]
  | set field operator literals =>
    have hliterals := Json.list?_array fun literal (_ : literal ∈ literals) =>
      Json.literal?_string literal
    simp [ofJson?, toJson, hliterals]
  | compound operator parts ih =>
    rw [toJson, toJsonEach_eq_map, ofJson?_compound]
    simp [Json.list?_array ih]

end Predicate

/-! ### Expressions -/

/-- A reference is read from what is written for it. -/
theorem FieldRef.ofJson?_toJson (ref : FieldRef) : ofJson? ref.toJson = some ref := by
  simp [ofJson?, toJson]

namespace Expression

/-- All constants are finite. -/
inductive IsFinite : Expression → Prop
  | fieldRef (ref : FieldRef) : IsFinite (fieldRef ref)
  | constant {value : Value} {dataType : Option DataType} :
      value.IsFinite → IsFinite (constant value dataType)
  | apply {function : Function} {arguments : List Expression} :
      (∀ argument ∈ arguments, IsFinite argument) → IsFinite (apply function arguments)

/-- An application is its function and its arguments, which are expressions again. -/
theorem ofJson?_apply (content : Json) : ofJson? (.object [("Apply", content)]) = (do
    let members ← content.fields? ["function", "children"]
    let function ← required "function" Json.member? members
    let arguments ← withDefault "children" [] (Json.list? ofJson?) members
    some (apply function arguments)) := by
  rw [ofJson?]
  simp only [Option.bind_eq_bind, ← Json.fieldsBelow?_bind, ← Json.childrenOrNone?_bind,
    Option.bind_assoc]

/-- An expression with finite constants is read from what is written for it. -/
theorem ofJson?_toJson {expression : Expression} (h : expression.IsFinite) :
    ofJson? expression.toJson = some expression := by
  induction h with
  | fieldRef ref => simp [ofJson?, toJson, ref.ofJson?_toJson]
  | constant hvalue =>
    simp [ofJson?, toJson, Json.value?_ofValue hvalue]
  | apply _ ih =>
    rw [toJson, toJsonEach_eq_map, ofJson?_apply]
    simp [Json.list?_array ih]

/-- The value of a constant that is decoded is decoded. -/
theorem decoded_of_constant {value : Value} {dataType : Option DataType}
    (h : Decoded ofJson? (constant value dataType)) : Decoded Json.value? value := by
  obtain ⟨v, hv, h⟩ := h
  unfold ofJson? at h
  split at h <;> simp only [Option.map_eq_map, Option.map_eq_some_iff, Option.bind_eq_bind,
    Option.bind_eq_some_iff, Option.some.injEq, reduceCtorEq, and_false, exists_false] at h
  obtain ⟨members, hfields, _, hvalue, _, -, h⟩ := h
  cases h
  exact Json.decoded_of_required (Json.isFinite_of_fields? hv.content hfields) hvalue

/-- The arguments of an application that is decoded are decoded. -/
theorem decoded_of_apply {function : Function} {arguments : List Expression}
    (h : Decoded ofJson? (apply function arguments)) :
    ∀ argument ∈ arguments, Decoded ofJson? argument := by
  obtain ⟨v, hv, h⟩ := h
  have happly := h
  unfold ofJson? at h
  split at h <;> simp only [Option.map_eq_map, Option.map_eq_some_iff, Option.bind_eq_bind,
    Option.bind_eq_some_iff, Option.some.injEq, reduceCtorEq, and_false, exists_false] at h
  -- Only under the tag of an application, the fields of which are looked at.
  simp only [ofJson?_apply, Option.bind_eq_bind, Option.bind_eq_some_iff] at happly
  obtain ⟨members, hfields, _, -, _, harguments, h⟩ := happly
  cases h
  exact Json.decoded_of_mem_withDefault (Json.isFinite_of_fields? hv.content hfields) harguments

/-- What is decoded to an expression has finite constants, at any depth. -/
theorem isFinite_of_decoded {expression : Expression} (h : Decoded ofJson? expression) :
    expression.IsFinite := by
  induction expression using Expression.induction with
  | fieldRef ref => exact .fieldRef ref
  | constant value dataType =>
    exact .constant (Json.isFinite_value_of_decoded (decoded_of_constant h))
  | apply function arguments ih =>
    exact .apply fun argument hargument => ih argument hargument (decoded_of_apply h _ hargument)

end Expression

/-- A derived field is read from what is written for it, if its expression is. -/
theorem DerivedField.ofJson?_toJson {field : DerivedField} (h : field.expression.IsFinite) :
    ofJson? field.toJson = some field := by
  simp [ofJson?, toJson, Expression.ofJson?_toJson h]

theorem DerivedField.isFinite_of_decoded {field : DerivedField} (h : Decoded ofJson? field) :
    field.expression.IsFinite := by
  obtain ⟨v, hv, h⟩ := h
  simp only [ofJson?, Option.bind_eq_bind, Option.bind_eq_some_iff] at h
  obtain ⟨members, hfields, _, -, _, -, _, -, _, hexpression, h⟩ := h
  cases h
  exact Expression.isFinite_of_decoded
    (Json.decoded_of_required (Json.isFinite_of_fields? hv hfields) hexpression)

/-! ### Trees -/

namespace ScoreDistribution

/-- The count is finite, and so are the numbers beside it. -/
structure IsFinite (d : ScoreDistribution) : Prop where
  recordCount : d.recordCount.isFinite
  confidence : ∀ x ∈ d.confidence, x.isFinite
  probability : ∀ x ∈ d.probability, x.isFinite

/-- A distribution of finite numbers is read from what is written for it. -/
theorem ofJson?_toJson {d : ScoreDistribution} (h : d.IsFinite) : ofJson? d.toJson = some d := by
  simp [ofJson?, toJson, Json.float?_ofFloat h.recordCount, Json.nullable?_float h.confidence,
    Json.nullable?_float h.probability]

theorem isFinite_of_decoded {d : ScoreDistribution} (h : Decoded ofJson? d) : d.IsFinite := by
  obtain ⟨v, hv, h⟩ := h
  simp only [ofJson?, Option.bind_eq_bind, Option.bind_eq_some_iff] at h
  obtain ⟨members, hfields, _, -, _, hrecordCount, _, hconfidence, _, hprobability, h⟩ := h
  cases h
  have hmembers := Json.isFinite_of_fields? hv hfields
  exact ⟨Json.isFinite_of_required hmembers hrecordCount,
    Json.isFinite_of_optional hmembers hconfidence,
    Json.isFinite_of_optional hmembers hprobability⟩

end ScoreDistribution

namespace Node

/-- The counts of the node and of its distributions are finite, and all below. -/
inductive IsFinite : Node → Prop
  | node {node : Node} : (∀ x ∈ node.recordCount, x.isFinite) →
      (∀ d ∈ node.distributions, d.IsFinite) → (∀ child ∈ node.children, IsFinite child) →
      IsFinite node

/-- A node is its own data and its children, which are nodes again. -/
theorem ofJson?_eq (v : Json) : ofJson? v = (do
    let members ← v.fields? [
      "id", "score", "recordCount", "defaultChild", "predicate", "scoreDistributions", "nodes"]
    let id ← withDefault "id" none Json.optionalLiteral? members
    let score ← withDefault "score" none Json.optionalLiteral? members
    let recordCount ← Json.optional "recordCount" Json.float? members
    let defaultChild ← withDefault "defaultChild" none Json.optionalLiteral? members
    let predicate ← required "predicate" Predicate.ofJson? members
    let distributions ←
      withDefault "scoreDistributions" [] (Json.list? ScoreDistribution.ofJson?) members
    let children ← withDefault "nodes" [] (Json.list? ofJson?) members
    some ⟨id, score, recordCount, defaultChild, predicate, distributions, children⟩) := by
  rw [ofJson?]
  simp only [Option.bind_eq_bind, ← Json.fieldsBelow?_bind, ← Json.childrenOrNone?_bind,
    Option.bind_assoc]

/-- A node with finite counts is read from what is written for it, with all nodes below. -/
theorem ofJson?_toJson {node : Node} (h : node.IsFinite) : ofJson? node.toJson = some node := by
  induction h with
  | @node node hrecordCount hdistributions _ ih =>
    have hdistributions := Json.list?_array fun d hd =>
      ScoreDistribution.ofJson?_toJson (hdistributions d hd)
    -- A node is taken apart into its fields, which are decoded one by one.
    cases node
    rw [toJson, toJsonEach_eq_map, ofJson?_eq]
    simp_all [Predicate.ofJson?_toJson, Json.nullable?_float hrecordCount, Json.list?_array ih]

/-- A node that is decoded has finite counts, and so have all nodes below. -/
theorem isFinite_of_decoded {node : Node} (h : Decoded ofJson? node) : node.IsFinite := by
  induction node using Node.induction with
  | node node ih =>
    obtain ⟨v, hv, h⟩ := h
    simp only [ofJson?_eq, Option.bind_eq_bind, Option.bind_eq_some_iff] at h
    obtain ⟨members, hfields, _, -, _, -, _, hrecordCount, _, -, _, -, _, hdistributions,
      _, hchildren, h⟩ := h
    cases h
    have hmembers := Json.isFinite_of_fields? hv hfields
    -- The counts of the node itself, of its distributions, and of the nodes below.
    refine .node (Json.isFinite_of_optional hmembers hrecordCount) (fun d hd => ?_)
      fun child hchild => ih child hchild ?_
    · exact ScoreDistribution.isFinite_of_decoded
        (Json.decoded_of_mem_withDefault hmembers hdistributions d hd)
    · exact Json.decoded_of_mem_withDefault hmembers hchildren child hchild

end Node

theorem TreeModel.ofJson?_toJson {model : TreeModel} (h : model.root.IsFinite) :
    ofJson? model.toJson = some model := by
  simp [ofJson?, toJson, model.schema.ofJson?_toJson, Output.nullable?_toJson,
    Node.ofJson?_toJson h]

theorem TreeModel.isFinite_of_decoded {model : TreeModel} (h : Decoded ofJson? model) :
    model.root.IsFinite := by
  obtain ⟨v, hv, h⟩ := h
  simp only [ofJson?, Option.bind_eq_bind, Option.bind_eq_some_iff] at h
  obtain ⟨members, hfields, _, -, _, -, _, -, _, -, _, -, _, -, _, hroot, h⟩ := h
  cases h
  exact Node.isFinite_of_decoded
    (Json.decoded_of_required (Json.isFinite_of_fields? hv hfields) hroot)

/-! ### Regression models -/

/-- An integer of 32 bits is read as it is. -/
@[simp] theorem Json.int32?_integer (n : Int32) : (integer n.toInt).int32? = some n :=
  calc (integer n.toInt).int32?
      = some (Int32.ofInt n.toInt) := if_pos ⟨n.minValue_le_toInt, n.toInt_le⟩
    _ = some n := congrArg some n.ofInt_toInt

namespace Predictor

/-- What a predictor multiplies with, or adds. -/
def coefficient : Predictor → Float
  | numeric _ _ coefficient | categorical _ _ coefficient | term _ coefficient _ => coefficient

/-- A predictor with a finite coefficient is read from what is written for it, under the tag of
    its kind. -/
theorem ofJson?_toJson {predictor : Predictor} (h : predictor.coefficient.isFinite) :
    ofJson? predictor.toJson = some predictor := by
  have hcoefficient := Json.float?_ofFloat h
  cases predictor with
  | numeric name exponent coefficient =>
    rw [Predictor.coefficient] at hcoefficient
    simp [ofJson?, toJson, hcoefficient]
  | categorical name value coefficient =>
    rw [Predictor.coefficient] at hcoefficient
    simp [ofJson?, toJson, hcoefficient]
  | term name coefficient factors =>
    rw [Predictor.coefficient] at hcoefficient
    have hfactors := Json.list?_array fun factor (_ : factor ∈ factors) =>
      factor.ofJson?_toJson
    simp [ofJson?, toJson, hcoefficient, hfactors]

/-- A predictor that is decoded has a finite coefficient, whatever its kind. -/
theorem isFinite_of_decoded {predictor : Predictor} (h : Decoded ofJson? predictor) :
    predictor.coefficient.isFinite := by
  obtain ⟨v, hv, h⟩ := h
  unfold ofJson? at h
  split at h <;>
    simp only [Option.bind_eq_bind, Option.bind_eq_some_iff, reduceCtorEq] at h
  · -- Under each tag the coefficient is a required field.
    obtain ⟨members, hfields, _, -, _, -, _, hcoefficient, h⟩ := h
    cases h
    exact Json.isFinite_of_required (Json.isFinite_of_fields? hv.content hfields) hcoefficient
  · obtain ⟨members, hfields, _, -, _, -, _, hcoefficient, h⟩ := h
    cases h
    exact Json.isFinite_of_required (Json.isFinite_of_fields? hv.content hfields) hcoefficient
  · obtain ⟨members, hfields, _, -, _, hcoefficient, _, -, h⟩ := h
    cases h
    exact Json.isFinite_of_required (Json.isFinite_of_fields? hv.content hfields) hcoefficient

end Predictor

namespace RegressionTable

/-- The intercept is finite, and so are all coefficients. -/
structure IsFinite (table : RegressionTable) : Prop where
  intercept : table.intercept.isFinite
  coefficient : ∀ predictor ∈ table.predictors, predictor.coefficient.isFinite

theorem ofJson?_toJson {table : RegressionTable} (h : table.IsFinite) :
    ofJson? table.toJson = some table := by
  have hpredictors := Json.list?_array fun predictor hpredictor =>
    Predictor.ofJson?_toJson (h.coefficient predictor hpredictor)
  simp [ofJson?, toJson, Json.float?_ofFloat h.intercept, hpredictors]

/-- A table that is decoded has a finite intercept, also where it is left out. -/
theorem isFinite_of_decoded {table : RegressionTable} (h : Decoded ofJson? table) :
    table.IsFinite := by
  obtain ⟨v, hv, h⟩ := h
  simp only [ofJson?, Option.bind_eq_bind, Option.bind_eq_some_iff] at h
  obtain ⟨members, hfields, _, hintercept, _, -, _, hpredictors, h⟩ := h
  cases h
  have hmembers := Json.isFinite_of_fields? hv hfields
  refine ⟨?_, fun predictor hpredictor => ?_⟩
  · exact Json.isFinite_of_withDefault hmembers (by decide) hintercept
  · exact Predictor.isFinite_of_decoded
      (Json.decoded_of_mem_withDefault hmembers hpredictors predictor hpredictor)

end RegressionTable

namespace RegressionModel

theorem ofJson?_toJson {model : RegressionModel} (h : ∀ table ∈ model.tables, table.IsFinite) :
    ofJson? model.toJson = some model := by
  have htables := Json.list?_array fun table htable =>
    RegressionTable.ofJson?_toJson (h table htable)
  simp [ofJson?, toJson, model.schema.ofJson?_toJson, Output.nullable?_toJson, htables]

theorem isFinite_of_decoded {model : RegressionModel} (h : Decoded ofJson? model) :
    ∀ table ∈ model.tables, table.IsFinite := by
  obtain ⟨v, hv, h⟩ := h
  simp only [ofJson?, Option.bind_eq_bind, Option.bind_eq_some_iff] at h
  obtain ⟨members, hfields, _, -, _, -, _, -, _, -, _, -, _, -, _, htables, h⟩ := h
  cases h
  have hdecoded := Json.decoded_of_mem
    (Json.decoded_of_required (Json.isFinite_of_fields? hv hfields) htables)
  exact fun table htable => RegressionTable.isFinite_of_decoded (hdecoded table htable)

end RegressionModel

/-! ### Ensembles -/

namespace Target

/-- Both numbers are finite. -/
structure IsFinite (target : Target) : Prop where
  rescaleConstant : target.rescaleConstant.isFinite
  rescaleFactor : target.rescaleFactor.isFinite

theorem ofJson?_toJson {target : Target} (h : target.IsFinite) :
    ofJson? target.toJson = some target := by
  simp [ofJson?, toJson, Json.float?_ofFloat h.rescaleConstant,
    Json.float?_ofFloat h.rescaleFactor]

theorem isFinite_of_decoded {target : Target} (h : Decoded ofJson? target) : target.IsFinite := by
  obtain ⟨v, hv, h⟩ := h
  simp only [ofJson?, Option.bind_eq_bind, Option.bind_eq_some_iff] at h
  obtain ⟨members, hfields, _, -, _, hconstant, _, hfactor, h⟩ := h
  cases h
  have hmembers := Json.isFinite_of_fields? hv hfields
  exact ⟨Json.isFinite_of_withDefault hmembers (by decide) hconstant,
    Json.isFinite_of_withDefault hmembers (by decide) hfactor⟩

end Target

/-- The method and the segments that a JSON value describes. -/
def MiningModel.segmentation? (v : Json) : Option (MultipleModelMethod × List Segment) := do
  let members ← v.fields? ["multipleModelMethod", "segments"]
  let method ← required "multipleModelMethod" Json.member? members
  let segments ← required "segments" (Json.list? Segment.ofJson?) members
  some (method, segments)

/-- An ensemble is its own data, and a segmentation with its segments. -/
theorem MiningModel.ofJson?_eq (v : Json) : ofJson? v = (do
    let members ← v.fields? [
      "modelName", "functionName", "miningSchema", "output", "localTransformations", "targets",
      "segmentation"]
    let name ← Json.optional "modelName" Json.string? members
    let function ← required "functionName" Json.member? members
    let schema ← withDefault "miningSchema" ⟨[]⟩ MiningSchema.ofJson? members
    let output ← Json.optional "output" Output.ofJson? members
    let derivedFields ←
      withDefault "localTransformations" [] (Json.list? DerivedField.ofJson?) members
    let targets ← withDefault "targets" [] (Json.list? Target.ofJson?) members
    let (method, segments) ← required "segmentation" segmentation? members
    some ⟨name, function, schema, output, derivedFields, targets, method, segments⟩) := by
  have hsegmentation : ∀ v, segmentation? v = (do
      let members ← v.fieldsBelow? ["multipleModelMethod", "segments"]
      let method ← required "multipleModelMethod" Json.member? members.1
      let segments ← Json.children? "segments" members
      let segments ← Json.allSome (segments.map fun segment => Segment.ofJson? segment.1)
      some (method, segments)) := fun v => by
    simp only [segmentation?, Option.bind_eq_bind, ← Json.fieldsBelow?_bind, ← Json.children?_bind,
      Option.bind_assoc]
  rw [ofJson?]
  simp only [Option.bind_eq_bind, ← Json.fieldsBelow?_bind, ← Json.child?_bind segmentation?,
    hsegmentation, Option.bind_assoc, Option.bind_some]

/-- A segment is its own data, and a model. -/
theorem Segment.ofJson?_eq (v : Json) : ofJson? v = (do
    let members ← v.fields? ["id", "weight", "predicates", "model"]
    let id ← withDefault "id" none Json.optionalLiteral? members
    let weight ← withDefault "weight" 1 Json.float? members
    let predicates ← withDefault "predicates" [] (Json.list? Predicate.ofJson?) members
    let model ← required "model" Model.ofJson? members
    some ⟨id, weight, predicates, model⟩) := by
  rw [ofJson?]
  simp only [Option.bind_eq_bind, ← Json.fieldsBelow?_bind, ← Json.child?_bind, Option.bind_assoc]

/-- All numbers are finite: those of a tree or of the tables, and in an ensemble those of
    its derived fields, its targets, and its segments with their weights. -/
inductive Model.IsFinite : Model → Prop
  | tree {model : TreeModel} : model.root.IsFinite → IsFinite (.tree model)
  | regression {model : RegressionModel} :
      (∀ table ∈ model.tables, table.IsFinite) → IsFinite (.regression model)
  | mining {model : MiningModel} :
      (∀ field ∈ model.derivedFields, field.expression.IsFinite) →
      (∀ target ∈ model.targets, target.IsFinite) →
      (∀ segment ∈ model.segments, segment.weight.isFinite) →
      (∀ segment ∈ model.segments, IsFinite segment.model) → IsFinite (.mining model)

/-- A segment is read from what is written for it, if its model is. -/
theorem Segment.ofJson?_toJson {segment : Segment} (hweight : segment.weight.isFinite)
    (hmodel : Model.ofJson? segment.model.toJson = some segment.model) :
    ofJson? segment.toJson = some segment := by
  have hpredicates := Json.list?_array fun predicate (_ : predicate ∈ segment.predicates) =>
    predicate.ofJson?_toJson
  cases segment
  rw [toJson, ofJson?_eq]
  simp_all [Json.float?_ofFloat hweight]

/-- An ensemble is read from what is written for it, if its segments are. -/
theorem MiningModel.ofJson?_toJson {model : MiningModel}
    (hderivedFields : ∀ field ∈ model.derivedFields, field.expression.IsFinite)
    (htargets : ∀ target ∈ model.targets, target.IsFinite)
    (hsegments : ∀ segment ∈ model.segments, Segment.ofJson? segment.toJson = some segment) :
    ofJson? model.toJson = some model := by
  have hderivedFields := Json.list?_array fun field hfield =>
    DerivedField.ofJson?_toJson (hderivedFields field hfield)
  have htargets := Json.list?_array fun target htarget =>
    Target.ofJson?_toJson (htargets target htarget)
  have hsegments := Json.list?_array hsegments
  cases model
  rw [toJson, Segment.toJsonEach_eq_map, ofJson?_eq]
  simp_all [segmentation?, MiningSchema.ofJson?_toJson, Output.nullable?_toJson]

namespace Model

/-- A model with finite numbers is read from what is written for it, by induction on the
    ensembles in it. -/
theorem ofJson?_toJson {model : Model} (h : model.IsFinite) :
    ofJson? model.toJson = some model := by
  induction h with
  | tree hroot => simp [ofJson?, toJson, TreeModel.ofJson?_toJson hroot]
  | regression htables => simp [ofJson?, toJson, RegressionModel.ofJson?_toJson htables]
  | mining hderivedFields htargets hweights _ ih =>
    have hmodel := MiningModel.ofJson?_toJson hderivedFields htargets fun segment hsegment =>
      Segment.ofJson?_toJson (hweights segment hsegment) (ih segment hsegment)
    simp [ofJson?, toJson, hmodel]

end Model

/-- A segment that is decoded has a finite weight, and a model that is decoded. -/
theorem Segment.decoded_model {segment : Segment} (h : Decoded ofJson? segment) :
    segment.weight.isFinite ∧ Decoded Model.ofJson? segment.model := by
  obtain ⟨v, hv, h⟩ := h
  simp only [ofJson?_eq, Option.bind_eq_bind, Option.bind_eq_some_iff] at h
  obtain ⟨members, hfields, _, -, _, hweight, _, -, _, hmodel, h⟩ := h
  cases h
  have hmembers := Json.isFinite_of_fields? hv hfields
  exact ⟨Json.isFinite_of_withDefault hmembers (by decide) hweight,
    Json.decoded_of_required hmembers hmodel⟩

/-- The segments of a segmentation are decoded if the whole is. -/
theorem MiningModel.decoded_segment {v : Json} {method : MultipleModelMethod}
    {segments : List Segment} (hv : v.IsFinite) (h : segmentation? v = some (method, segments)) :
    ∀ segment ∈ segments, Decoded Segment.ofJson? segment := by
  simp only [segmentation?, Option.bind_eq_bind, Option.bind_eq_some_iff] at h
  obtain ⟨members, hfields, _, -, _, hsegments, h⟩ := h
  cases h
  exact Json.decoded_of_mem
    (Json.decoded_of_required (Json.isFinite_of_fields? hv hfields) hsegments)

/-- Derived fields, targets and segments of an ensemble are decoded if the whole is. -/
theorem MiningModel.decoded_parts {model : MiningModel} (h : Decoded ofJson? model) :
    (∀ field ∈ model.derivedFields, Decoded DerivedField.ofJson? field) ∧
      (∀ target ∈ model.targets, Decoded Target.ofJson? target) ∧
      ∀ segment ∈ model.segments, Decoded Segment.ofJson? segment := by
  obtain ⟨v, hv, h⟩ := h
  simp only [ofJson?_eq, Option.bind_eq_bind, Option.bind_eq_some_iff] at h
  obtain ⟨members, hfields, _, -, _, -, _, -, _, -, _, hderivedFields, _, htargets,
    ⟨_, _⟩, hsegmentation, h⟩ := h
  cases h
  have hmembers := Json.isFinite_of_fields? hv hfields
  obtain ⟨w, hw, hsegmentation⟩ := Json.decoded_of_required hmembers hsegmentation
  exact ⟨Json.decoded_of_mem_withDefault hmembers hderivedFields,
    Json.decoded_of_mem_withDefault hmembers htargets, decoded_segment hw hsegmentation⟩

namespace Model

/-- A model is decoded as what it holds. -/
theorem decoded_content {model : Model} (h : Decoded ofJson? model) : match model with
    | .tree model => Decoded TreeModel.ofJson? model
    | .regression model => Decoded RegressionModel.ofJson? model
    | .mining model => Decoded MiningModel.ofJson? model := by
  obtain ⟨v, hv, h⟩ := h
  unfold ofJson? at h
  split at h
  · obtain ⟨model, hmodel, rfl⟩ := Option.map_eq_some_iff.1 h
    exact ⟨_, hv.content, hmodel⟩
  · obtain ⟨model, hmodel, rfl⟩ := Option.map_eq_some_iff.1 h
    exact ⟨_, hv.content, hmodel⟩
  · obtain ⟨model, hmodel, rfl⟩ := Option.map_eq_some_iff.1 h
    exact ⟨_, hv.content, hmodel⟩
  · cases h

/-- A model that is decoded has finite numbers, in all models within it. -/
theorem isFinite_of_decoded {model : Model} (h : Decoded ofJson? model) : model.IsFinite := by
  induction model using Model.induction with
  | tree model => exact .tree (TreeModel.isFinite_of_decoded (decoded_content h))
  | regression model => exact .regression (RegressionModel.isFinite_of_decoded (decoded_content h))
  | mining model ih =>
    obtain ⟨hderivedFields, htargets, hsegments⟩ := MiningModel.decoded_parts (decoded_content h)
    -- What is directly in the ensemble, and what is in the models of its segments.
    refine .mining (fun field hfield => ?_) (fun target htarget => ?_) (fun segment hsegment => ?_)
      fun segment hsegment => ?_
    · exact DerivedField.isFinite_of_decoded (hderivedFields field hfield)
    · exact Target.isFinite_of_decoded (htargets target htarget)
    · exact (Segment.decoded_model (hsegments segment hsegment)).1
    · exact ih segment hsegment (Segment.decoded_model (hsegments segment hsegment)).2

end Model

/-! ### Documents -/

/-- A header is read from what is written for it. -/
theorem Header.ofJson?_toJson (header : Header) : ofJson? header.toJson = some header := by
  simp [ofJson?, toJson]

namespace Document

/-- A document is read from what is written for it, if its model has finite numbers. -/
theorem ofJson?_toJson {document : Document} (h : document.model.IsFinite) :
    ofJson? document.toJson = some document := by
  have hheader := Json.nullable?_ofOption rfl fun header (_ : header ∈ document.header) =>
    header.ofJson?_toJson
  simp [ofJson?, toJson, hheader, Model.ofJson?_toJson h]

theorem isFinite_of_decoded {document : Document} (h : Decoded ofJson? document) :
    document.model.IsFinite := by
  obtain ⟨v, hv, h⟩ := h
  simp only [ofJson?, Option.bind_eq_bind, Option.bind_eq_some_iff] at h
  obtain ⟨members, hfields, _, -, _, hmodel, h⟩ := h
  cases h
  exact Model.isFinite_of_decoded
    (Json.decoded_of_required (Json.isFinite_of_fields? hv hfields) hmodel)

end Document

/-! ### Settings and rows -/

namespace BatchSettings

/-- An integer is read as a word if it is in the range of one. -/
theorem word64?_integer {n : Int} (hmin : 0 ≤ n) (hmax : n < UInt64.size) :
    word64? (.integer n) = some (UInt64.ofNat n.toNat) :=
  if_pos ⟨hmin, hmax⟩

/-- A word is in the range of one. -/
theorem toNat_lt_size (n : UInt64) : (n.toNat : Int) < UInt64.size :=
  Int.ofNat_lt.2 n.toNat_lt_size

/-- A word is read from the integer that it stands for. -/
@[simp] theorem word64?_toNat (n : UInt64) : word64? (.integer n.toNat) = some n := by
  rw [word64?_integer (Int.natCast_nonneg _) (toNat_lt_size n), Int.toNat_natCast,
    UInt64.ofNat_toNat]

/-- Settings are read from what is written for them. -/
theorem ofJson?_toJson (settings : BatchSettings) : ofJson? settings.toJson = some settings := by
  let members := [("n_threads", Json.integer settings.threads.toNat),
    ("min_rows_per_thread", Json.integer settings.minRowsPerThread.toNat)]
  have hthreads : withDefault "n_threads" default.threads word64? members =
      some settings.threads := by
    simp [members]
  have hrows : withDefault "min_rows_per_thread" default.minRowsPerThread word64? members =
      some settings.minRowsPerThread := by
    simp [members]
  -- Field by field: comparing all at once, the kernel would count up to the bound of a word.
  rw [ofJson?, toJson, Json.fields?, Option.bind_eq_bind, Option.bind_some, hthreads,
    Option.bind_eq_bind, Option.bind_some, hrows, Option.bind_some]

end BatchSettings

namespace Row

/-- All numbers of a row are finite. -/
def IsFinite (row : Row) : Prop := Record.All Value.IsFinite row

/-- A row of finite numbers is read from what is written for it, entry by entry. -/
theorem ofJson?_toJson {row : Row} (h : row.IsFinite) : ofJson? row.toJson = some row := by
  have hentry : ∀ entry ∈ row.entries,
      (Json.ofValue entry.2).value?.map (entry.1, ·) = some entry := fun entry hentry => by
    rw [Json.value?_ofValue (h.of_mem hentry)]
    rfl
  have hentries := Json.allSome_map (g := id) hentry
  rw [List.map_id] at hentries
  simp only [ofJson?, toJson, List.map_map]
  -- The entries of a row have different names, so that entering them gives the row again.
  exact Option.bind_eq_some_iff.2 ⟨row.entries, hentries, congrArg some row.ofList_entries⟩

/-- A row that is decoded has finite numbers. -/
theorem isFinite_of_decoded {row : Row} (h : Decoded ofJson? row) : row.IsFinite := by
  obtain ⟨v, hv, h⟩ := h
  cases hv with
  | object hmembers =>
    obtain ⟨entries, hentries, h⟩ := Option.bind_eq_some_iff.1 h
    cases h
    refine Record.all_ofList fun entry hentry => ?_
    obtain ⟨member, hmember, h⟩ := Json.exists_of_mem_allSome hentries entry hentry
    obtain ⟨value, hvalue, rfl⟩ := Option.map_eq_some_iff.1 h
    exact Json.isFinite_value_of_decoded ⟨member.2, hmembers member hmember, hvalue⟩
  | _ => cases h

end Row

end Scoring
