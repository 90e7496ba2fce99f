import Scoring.Output
import Scoring.Predicate
import Scoring.Schema

/-!
# Decision trees

A tree is scored by a descent from its root. At each node the guards of the
children are looked at in order, and the descent goes on in the first child whose
guard holds. The node where it ends is the *terminal* node, whose score is the
prediction.

Two strategies, the `DescentPolicy` of a tree, say what happens otherwise: one for
a guard whose answer is unknown, one for a node none of whose children takes the
row. A descent may also end without a prediction.

What a node does depends on its children only through their guards, their ids, and
what a descent into each would give. These make up a `Branch`, and `Branch.choose`
picks one.
-/

namespace Scoring

/-- How many of the records that reached a node were of one class. -/
structure ScoreDistribution where
  /-- The class. -/
  value : String
  recordCount : Float
  confidence : Option Float
  probability : Option Float
  deriving DecidableEq

/-- A node of a tree, with everything below it. -/
structure Node where
  id : Option String
  score : Option String
  recordCount : Option Float
  /-- The id of the child to go on with when the guards do not tell. -/
  defaultChild : Option String
  /-- The guard of the node. -/
  predicate : Predicate
  distributions : List ScoreDistribution
  children : List Node

/-- What a descent does where no guard decides. -/
structure DescentPolicy where
  /-- For a guard whose answer is unknown. -/
  missingValue : MissingValueStrategy
  /-- For a node none of whose children takes the row. -/
  noTrueChild : NoTrueChildStrategy
  deriving DecidableEq, Repr

/-- A tree with what it declares. -/
structure TreeModel where
  name : Option String
  function : MiningFunction
  schema : MiningSchema
  output : Option Output
  policy : DescentPolicy
  root : Node

/-- A child of a node, as the node sees it. -/
structure Branch where
  /-- The guard of the child. -/
  predicate : Predicate
  id : Option String
  /-- Where a descent into the child ends, for each row. -/
  descend : Row → Outcome (Option Node)

namespace Node

/-- A leaf has no children. -/
def isLeaf (node : Node) : Bool := node.children.isEmpty

/-- How messages call a node. -/
def label (node : Node) : String := node.id.getD "<unnamed>"

end Node

namespace Branch

/-- Where a descent into the default child of `node` ends; `branches` are its children. -/
def descendDefault (node : Node) (branches : List Branch) (row : Row) : Outcome (Option Node) :=
  match node.defaultChild with
  | none => .fail (.noDefaultChild node.label)
  | some id =>
    match branches.find? (·.id = some id) with
    | none => .fail (.strangeDefaultChild node.label id)
    -- The guard of the default child is not asked.
    | some branch => branch.descend row

/-- Where a descent from `node` ends that has still to look at the branches listed last,
    out of all `branches` of the node. -/
def choose (policy : DescentPolicy) (node : Node) (branches : List Branch) (row : Row) :
    List Branch → Outcome (Option Node)
  | [] => match policy.noTrueChild with
    | .returnLastPrediction => .ok (some node)
    | .returnNullPrediction => .ok none
  | branch :: rest => do
    match ← branch.predicate.eval row with
    | .yes => branch.descend row
    | .no => choose policy node branches row rest
    | .unknown => match policy.missingValue with
      | .lastPrediction => .ok (some node)
      | .nullPrediction => .ok none
      | .defaultChild => descendDefault node branches row
      | .passOver => choose policy node branches row rest
      -- The strategies left would have to follow several children at once.
      | strategy => .fail (.unsupportedStrategy strategy)

end Branch

namespace Node

mutual

/-- Where a descent from a node ends. -/
def descend (policy : DescentPolicy) : Node → Row → Outcome (Option Node)
  | node@{ children, .. } => fun row =>
    if children.isEmpty then .ok (some node)
    else Branch.choose policy node (branches policy children) row (branches policy children)

/-- The children of a node as branches. -/
def branches (policy : DescentPolicy) : List Node → List Branch
  | [] => []
  | child :: children =>
    ⟨child.predicate, child.id, child.descend policy⟩ :: branches policy children

end

/-- A node as a branch of its parent. -/
def branch (policy : DescentPolicy) (node : Node) : Branch :=
  ⟨node.predicate, node.id, node.descend policy⟩

theorem branches_eq_map (policy : DescentPolicy) (children : List Node) :
    branches policy children = children.map (branch policy) := by
  induction children with
  | nil => rfl
  | cons child children ih => simp [branches, branch, ih]

theorem descend_eq (policy : DescentPolicy) (node : Node) (row : Row) :
    node.descend policy row =
      if node.isLeaf then .ok (some node)
      else Branch.choose policy node (node.children.map (branch policy)) row
        (node.children.map (branch policy)) := by
  cases node
  simp [descend, isLeaf, branches_eq_map]

end Node

namespace TreeModel

/-- The name of the output that carries the prediction. -/
def primary (tree : TreeModel) : String := tree.schema.target?.getD defaultTarget

/-- The node whose score is the prediction for a row, if the tree makes one. -/
def terminal (tree : TreeModel) (row : Row) : Outcome (Option Node) := do
  match ← tree.root.predicate.eval row with
  | .yes => tree.root.descend tree.policy row
  | _ => .ok none

/-- What a score predicts: a class by its name, or the number that the score reads as. -/
def prediction (tree : TreeModel) (score : String) : Outcome Value :=
  match tree.function with
  | .classification => .ok (.text score)
  | .regression => match Number.read? score with
    | some x => .ok (.number x)
    | none => .fail (.coercion (.text score) .double)

/-- The name of the output that reports on a class. -/
def className (tree : TreeModel) (value : String) : String :=
  ((tree.output.bind (·.fieldForValue? value)).map (·.name)).getD value

/-- The classes of a node with their shares of its records, if there are any records. -/
def classShares (tree : TreeModel) (node : Node) : List (String × Value) :=
  let total := node.distributions.foldl (fun total d => total + d.recordCount) 0
  if 0 < total then
    node.distributions.map fun d => (tree.className d.value, .number (d.recordCount / total))
  else []

/-- The outputs of a tree whose terminal node has a score: the shares of the classes,
    the output fields that repeat the prediction, and the prediction itself, of which
    later ones replace earlier ones of the same name. -/
def outputs (tree : TreeModel) (node : Node) (score : String) : Outcome Outputs := do
  let predicted ← tree.prediction score
  let shares := Record.ofList (tree.classShares node)
  .ok ((Output.fillPredicted tree.output predicted shares).insert tree.primary predicted)

/-- The outputs of a tree for a row, if it makes a prediction. -/
def score (tree : TreeModel) (row : Row) : Outcome (Option Outputs) := do
  match ← tree.terminal row with
  | none => .ok none
  | some node => match node.score with
    | none => .fail (.terminalWithoutScore node.label)
    | some score => some <$> tree.outputs node score

end TreeModel

end Scoring
