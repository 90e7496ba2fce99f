import Scoring.Model

/-!
# Names mentioned

The names of fields that a model mentions, with those of all models nested in it:

* the fields that its guards ask about, in the nodes of a tree and on segments;
* the fields that the predictors of its tables read, and the factors of their terms;
* the fields that the expressions of its derived fields refer to;
* the fields that its schema replaces where they are missing.

Each list is found by a recursion over the document (`Model.mentions`). A list of
parts mentions what its members do (`mentionsEach_eq_flatMap`), and what has parts
mentions all that they do (`Node.mentions_subset_of_mem`,
`MiningModel.segment_subset_of_mem`).
-/

namespace Scoring

/-- The list of one element is among the lists of all. -/
theorem subset_flatMap_of_mem {α β : Type} {f : α → List β} {a : α} {as : List α}
    (ha : a ∈ as) : f a ⊆ as.flatMap f :=
  fun _ hb => List.mem_flatMap.2 ⟨a, ha, hb⟩

namespace Predicate

mutual

/-- The fields that a predicate asks about. -/
def mentions : Predicate → List String
  | always | never => []
  | simple field _ _ | set field _ _ => [field]
  | compound _ parts => mentionsEach parts

/-- The fields that several predicates ask about. -/
def mentionsEach : List Predicate → List String
  | [] => []
  | part :: parts => part.mentions ++ mentionsEach parts

end

/-- Several predicates mention what each of them does. -/
theorem mentionsEach_eq_flatMap (parts : List Predicate) :
    mentionsEach parts = parts.flatMap mentions := by
  induction parts with
  | nil => rfl
  | cons part parts ih => simp [mentionsEach, ih]

end Predicate

namespace Expression

mutual

/-- The fields that an expression refers to. -/
def mentions : Expression → List String
  | fieldRef ref => [ref.field]
  | constant _ _ => []
  | apply _ arguments => mentionsEach arguments

/-- The fields that several expressions refer to. -/
def mentionsEach : List Expression → List String
  | [] => []
  | argument :: arguments => argument.mentions ++ mentionsEach arguments

end

/-- Several expressions mention what each of them does. -/
theorem mentionsEach_eq_flatMap (arguments : List Expression) :
    mentionsEach arguments = arguments.flatMap mentions := by
  induction arguments with
  | nil => rfl
  | cons argument arguments ih => simp [mentionsEach, ih]

end Expression

/-- The fields that a schema replaces where they are missing. -/
def MiningSchema.replaced (schema : MiningSchema) : List String :=
  (schema.fields.filter (·.missingValueReplacement.isSome)).map (·.name)

namespace Node

mutual

/-- The fields of the guards of a node and of all nodes below it. -/
def mentions : Node → List String
  | { predicate, children, .. } => predicate.mentions ++ mentionsEach children

/-- The fields of the guards of several nodes and of all nodes below them. -/
def mentionsEach : List Node → List String
  | [] => []
  | child :: children => child.mentions ++ mentionsEach children

end

/-- Several nodes mention what each of them does. -/
theorem mentionsEach_eq_flatMap (children : List Node) :
    mentionsEach children = children.flatMap mentions := by
  induction children with
  | nil => rfl
  | cons child children ih => simp [mentionsEach, ih]

/-- A node mentions what its guard and its children do. -/
theorem mentions_eq (node : Node) :
    node.mentions = node.predicate.mentions ++ node.children.flatMap mentions := by
  cases node
  simp [mentions, mentionsEach_eq_flatMap]

/-- What the guard of a node mentions, the node does. -/
theorem predicate_mentions_subset (node : Node) : node.predicate.mentions ⊆ node.mentions := by
  rw [mentions_eq]
  exact List.subset_append_left _ _

/-- What a child mentions, the node does. -/
theorem mentions_subset_of_mem {node child : Node} (hc : child ∈ node.children) :
    child.mentions ⊆ node.mentions := by
  rw [mentions_eq node]
  exact List.Subset.trans (subset_flatMap_of_mem hc) (List.subset_append_right _ _)

end Node

/-- The fields that a predictor reads. -/
def Predictor.mentions : Predictor → List String
  | numeric name _ _ | categorical name _ _ => [name]
  | term _ _ factors => factors.map (·.field)

/-- The fields that the predictors of a table read. -/
def RegressionTable.mentions (table : RegressionTable) : List String :=
  table.predictors.flatMap (·.mentions)

mutual

/-- The names that a model mentions, with those of the models of its segments. -/
def Model.mentions : Model → List String
  | .tree model => model.schema.replaced ++ model.root.mentions
  | .regression model => model.schema.replaced ++ model.tables.flatMap (·.mentions)
  | .mining model => model.mentions

/-- The names that an ensemble mentions, with those of its segments. -/
def MiningModel.mentions : MiningModel → List String
  | { schema, derivedFields, segments, .. } =>
    schema.replaced ++ derivedFields.flatMap (·.expression.mentions) ++
      Segment.mentionsEach segments

/-- The names that a segment mentions in its guard and in its model. -/
def Segment.mentions : Segment → List String
  | { predicates, model, .. } => predicates.flatMap (·.mentions) ++ model.mentions

/-- The names that several segments mention. -/
def Segment.mentionsEach : List Segment → List String
  | [] => []
  | segment :: segments => segment.mentions ++ Segment.mentionsEach segments

end

/-- Several segments mention what each of them does. -/
theorem Segment.mentionsEach_eq_flatMap (segments : List Segment) :
    Segment.mentionsEach segments = segments.flatMap (·.mentions) := by
  induction segments with
  | nil => rfl
  | cons segment segments ih => simp [Segment.mentionsEach, ih]

/-- A segment mentions what its guard and its model do. -/
theorem Segment.mentions_eq (segment : Segment) :
    segment.mentions = segment.predicates.flatMap (·.mentions) ++ segment.model.mentions := by
  cases segment
  rfl

/-- An ensemble mentions what it replaces, what its derived fields refer to, and what its
    segments mention. -/
theorem MiningModel.mentions_eq (model : MiningModel) :
    model.mentions = model.schema.replaced ++
      model.derivedFields.flatMap (·.expression.mentions) ++
      model.segments.flatMap (·.mentions) := by
  cases model
  simp [MiningModel.mentions, Segment.mentionsEach_eq_flatMap]

namespace MiningModel

/-- What an ensemble replaces, it mentions. -/
theorem replaced_subset (model : MiningModel) : model.schema.replaced ⊆ model.mentions := by
  rw [mentions_eq, List.append_assoc]
  exact List.subset_append_left _ _

/-- What a derived field refers to, the ensemble mentions. -/
theorem derived_subset_of_mem {model : MiningModel} {field : DerivedField}
    (hf : field ∈ model.derivedFields) : field.expression.mentions ⊆ model.mentions := by
  intro name hname
  rw [mentions_eq]
  exact List.mem_append_left _ (List.mem_append_right _ (List.mem_flatMap.2 ⟨field, hf, hname⟩))

/-- What a segment mentions, the ensemble does. -/
theorem segment_subset_of_mem {model : MiningModel} {segment : Segment}
    (hs : segment ∈ model.segments) : segment.mentions ⊆ model.mentions := by
  rw [mentions_eq]
  exact List.Subset.trans (subset_flatMap_of_mem hs) (List.subset_append_right _ _)

end MiningModel

end Scoring
