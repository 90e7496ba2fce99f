import Scoring.Model

/-!
# Induction over model documents

Predicates, expressions, nodes and models hold lists of their own kind. Each has a
principle of induction here whose hypothesis speaks of every member of the list.
-/

namespace Scoring

/-- A property of predicates that compounds inherit from their parts. -/
@[elab_as_elim]
theorem Predicate.induction {motive : Predicate → Prop}
    (always : motive .always) (never : motive .never)
    (simple : ∀ field operator literal, motive (.simple field operator literal))
    (set : ∀ field operator literals, motive (.set field operator literals))
    (compound : ∀ operator parts, (∀ part ∈ parts, motive part) →
      motive (.compound operator parts)) :
    ∀ predicate, motive predicate
  | .always => always
  | .never => never
  | .simple field operator literal => simple field operator literal
  | .set field operator literals => set field operator literals
  | .compound operator parts => compound operator parts fun part _ =>
    Predicate.induction always never simple set compound part

/-- A property of expressions that applications inherit from their arguments. -/
@[elab_as_elim]
theorem Expression.induction {motive : Expression → Prop}
    (fieldRef : ∀ ref, motive (.fieldRef ref))
    (constant : ∀ value dataType, motive (.constant value dataType))
    (apply : ∀ function arguments, (∀ argument ∈ arguments, motive argument) →
      motive (.apply function arguments)) :
    ∀ expression, motive expression
  | .fieldRef ref => fieldRef ref
  | .constant value dataType => constant value dataType
  | .apply function arguments => apply function arguments fun argument _ =>
    Expression.induction fieldRef constant apply argument

/-- A child is smaller than its node. -/
theorem Node.sizeOf_lt_of_mem {node child : Node} (h : child ∈ node.children) :
    sizeOf child < sizeOf node := by
  have := List.sizeOf_lt_of_mem h
  cases node
  simp at this ⊢
  omega

/-- A property of nodes that they inherit from their children. -/
@[elab_as_elim]
theorem Node.induction {motive : Node → Prop}
    (node : ∀ node, (∀ child ∈ node.children, motive child) → motive node) (n : Node) : motive n :=
  node n fun child h =>
    have := Node.sizeOf_lt_of_mem h
    Node.induction node child
termination_by sizeOf n

/-- The model of a segment is smaller than the ensemble. -/
theorem Segment.sizeOf_model_lt_of_mem {model : MiningModel} {segment : Segment}
    (h : segment ∈ model.segments) : sizeOf segment.model < sizeOf (Model.mining model) := by
  have := List.sizeOf_lt_of_mem h
  cases model
  cases segment
  simp at this ⊢
  omega

/-- A property of models that ensembles inherit from the models of their segments. -/
@[elab_as_elim]
theorem Model.induction {motive : Model → Prop} (tree : ∀ model, motive (.tree model))
    (regression : ∀ model, motive (.regression model))
    (mining : ∀ model : MiningModel, (∀ segment ∈ model.segments, motive segment.model) →
      motive (.mining model)) :
    ∀ model, motive model
  | .tree model => tree model
  | .regression model => regression model
  | .mining model => mining model fun segment h =>
    have := Segment.sizeOf_model_lt_of_mem h
    Model.induction tree regression mining segment.model
termination_by model => sizeOf model

end Scoring
