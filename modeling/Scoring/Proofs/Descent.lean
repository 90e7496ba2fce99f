import Mathlib.Logic.Relation
import Scoring.Proofs.Induction
import Scoring.Proofs.Outcome

/-!
# Where a descent ends

The descent of a tree is described here without its recursion, by the steps that it
takes and the nodes at which it ends. At a node the guards of the children are asked
in order, and those that do not take the row are passed over (`Node.PassedOver`), so
that a child is asked (`Node.Asks`) if all before it are passed over. The first that
is not passed over decides:

* if its guard holds, the descent goes on there; if its guard is unknown, the descent
  may go on in the default child of the node, whose own guard is not asked
  (`Node.Step`);
* otherwise the descent ends at the node, which it accepts as the terminal node
  (`Node.Accepts`), or without a prediction (`Node.Declines`), or in a failure
  (`Node.Fails`).

A descent takes the steps there are until it ends (`Node.exists_ends`), and what it
ends with is what the last node says (`TreeModel.terminal_iff_path`).
-/

namespace Scoring

open Relation

namespace Node

variable (policy : DescentPolicy) (row : Row)

/-- A descent passes over a child: the guard of the child does not hold, or is unknown
    where unknown guards are passed over. -/
def PassedOver (child : Node) : Prop :=
  child.predicate.eval row = .ok .no ∨
    child.predicate.eval row = .ok .unknown ∧ policy.missingValue = .passOver

/-- A child of a node is asked: all children before it are passed over. -/
def Asks (node child : Node) : Prop :=
  ∃ before after, node.children = before ++ child :: after ∧
    ∀ c ∈ before, c.PassedOver policy row

/-- A child of a node is asked, and its guard is unknown. -/
def AsksUnknown (node : Node) : Prop :=
  ∃ child, node.Asks policy row child ∧ child.predicate.eval row = .ok .unknown

/-- No child of a node takes the row, and there are children. -/
def Exhausted (node : Node) : Prop :=
  node.children ≠ [] ∧ ∀ child ∈ node.children, child.PassedOver policy row

/-- A descent goes from a node to a child. -/
inductive Step : Node → Node → Prop
  /-- To the first child that is not passed over, if its guard holds. -/
  | taken {node child : Node} : node.Asks policy row child →
      child.predicate.eval row = .ok .yes → Step node child
  /-- To the first child with the id of the default child. -/
  | default {node next : Node} {id : String} : node.AsksUnknown policy row →
      policy.missingValue = .defaultChild → node.defaultChild = some id →
      node.children.find? (·.id = some id) = some next → Step node next

/-- A descent ends at a node, which is its terminal node. -/
inductive Accepts : Node → Prop
  | leaf {node : Node} : node.children = [] → Accepts node
  | unknown {node : Node} : node.AsksUnknown policy row →
      policy.missingValue = .lastPrediction → Accepts node
  | exhausted {node : Node} : node.Exhausted policy row →
      policy.noTrueChild = .returnLastPrediction → Accepts node

/-- A descent ends at a node without a prediction. -/
inductive Declines : Node → Prop
  | unknown {node : Node} : node.AsksUnknown policy row →
      policy.missingValue = .nullPrediction → Declines node
  | exhausted {node : Node} : node.Exhausted policy row →
      policy.noTrueChild = .returnNullPrediction → Declines node

/-- A descent ends at a node in a failure. -/
inductive Fails : Node → Failure → Prop
  | guard {node child : Node} {e : Failure} : node.Asks policy row child →
      child.predicate.eval row = .error e → Fails node e
  | noDefault {node : Node} : node.AsksUnknown policy row →
      policy.missingValue = .defaultChild → node.defaultChild = none →
      Fails node (.ofCause (.noDefaultChild node.label))
  | strangeDefault {node : Node} {id : String} : node.AsksUnknown policy row →
      policy.missingValue = .defaultChild → node.defaultChild = some id →
      (∀ child ∈ node.children, child.id ≠ some id) →
      Fails node (.ofCause (.strangeDefaultChild node.label id))
  | unsupported {node : Node} : node.AsksUnknown policy row →
      policy.missingValue = .weightedConfidence ∨ policy.missingValue = .aggregateNodes →
      Fails node (.ofCause (.unsupportedStrategy policy.missingValue))

/-- A descent ends at a node with an outcome. -/
inductive Ends : Node → Outcome (Option Node) → Prop
  | accepts {node : Node} : Accepts policy row node → Ends node (.ok (some node))
  | declines {node : Node} : Declines policy row node → Ends node (.ok none)
  | fails {node : Node} {e : Failure} : Fails policy row node e → Ends node (.error e)

variable {policy row}

/-! ### One node -/

/-- Where unknown guards are not passed over, the guard of a child that is passed over
    does not hold. -/
theorem PassedOver.eval_eq {child : Node} (h : child.PassedOver policy row)
    (hpolicy : policy.missingValue = .nullPrediction) : child.predicate.eval row = .ok .no := by
  rcases h with hno | ⟨_, hover⟩
  · exact hno
  · rw [hpolicy] at hover
    cases hover

/-- What is asked is a child. -/
theorem Asks.mem_children {node child : Node} (h : node.Asks policy row child) :
    child ∈ node.children := by
  obtain ⟨before, after, hsplit, _⟩ := h
  rw [hsplit]
  exact List.mem_append_right _ List.mem_cons_self

/-- In a list, either all nodes are passed over, or there is a first that is not. -/
theorem all_passedOver_or_first (policy : DescentPolicy) (row : Row) (children : List Node) :
    (∀ c ∈ children, c.PassedOver policy row) ∨
      ∃ before child after, children = before ++ child :: after ∧
        (∀ c ∈ before, c.PassedOver policy row) ∧ ¬ child.PassedOver policy row := by
  induction children with
  | nil => exact .inl fun _ h => absurd h List.not_mem_nil
  | cons c children ih =>
    by_cases hc : c.PassedOver policy row
    · rcases ih with hall | ⟨before, child, after, rfl, hbefore, hchild⟩
      · exact .inl (List.forall_mem_cons.2 ⟨hc, hall⟩)
      · exact .inr ⟨c :: before, child, after, rfl, List.forall_mem_cons.2 ⟨hc, hbefore⟩, hchild⟩
    · -- It is the first one itself.
      exact .inr ⟨[], c, children, rfl, fun _ h => absurd h List.not_mem_nil, hc⟩

/-- Branches that are passed over do not matter to those after them. -/
theorem choose_append_of_passedOver (node : Node) (branches : List Branch) {before : List Node}
    (rest : List Node) (h : ∀ c ∈ before, c.PassedOver policy row) :
    Branch.choose policy node branches row ((before ++ rest).map (branch policy)) =
      Branch.choose policy node branches row (rest.map (branch policy)) := by
  induction before with
  | nil => rfl
  | cons c before ih =>
    obtain ⟨hc, hbefore⟩ := List.forall_mem_cons.1 h
    rw [List.cons_append, List.map_cons, Branch.choose, ih hbefore]
    -- Passed over for either reason, the choice is left to the branches after it.
    rcases hc with hno | ⟨hunknown, hpolicy⟩
    · simp only [branch, hno, Outcome.ok_bind]
    · simp only [branch, hunknown, hpolicy, Outcome.ok_bind]

/-- A descent to a node without children ends there. -/
theorem descend_of_children_eq_nil {node : Node} (h : node.children = []) :
    node.descend policy row = .ok (some node) := by
  rw [descend_eq, isLeaf, h]
  rfl

/-- A node with children chooses among the branches to them. -/
theorem descend_of_children_ne_nil {node : Node} (h : node.children ≠ []) :
    node.descend policy row = Branch.choose policy node (node.children.map (branch policy)) row
      (node.children.map (branch policy)) := by
  rw [descend_eq, isLeaf, List.isEmpty_eq_false_iff.2 h]
  rfl

/-- What a descent from a node comes to is decided by the first child that is not
    passed over. -/
theorem Asks.descend_eq {node child : Node} (h : node.Asks policy row child) :
    ∃ rest, node.descend policy row = Branch.choose policy node
      (node.children.map (branch policy)) row (branch policy child :: rest) := by
  have hne : node.children ≠ [] := List.ne_nil_of_mem h.mem_children
  obtain ⟨before, after, hsplit, hbefore⟩ := h
  have hskip := choose_append_of_passedOver node (node.children.map (branch policy))
    (child :: after) hbefore
  rw [← hsplit] at hskip
  exact ⟨_, (descend_of_children_ne_nil hne).trans hskip⟩

/-- A descent fails as the guard of the child that is asked. -/
theorem Asks.descend_of_error {node child : Node} {e : Failure} (h : node.Asks policy row child)
    (he : child.predicate.eval row = .error e) : node.descend policy row = .error e := by
  obtain ⟨rest, heq⟩ := h.descend_eq
  rw [heq, Branch.choose]
  simp only [branch, he, Outcome.error_bind]

/-- A descent goes on from the child that is asked, if its guard holds. -/
theorem Asks.descend_of_yes {node child : Node} (h : node.Asks policy row child)
    (hyes : child.predicate.eval row = .ok .yes) :
    node.descend policy row = child.descend policy row := by
  obtain ⟨rest, heq⟩ := h.descend_eq
  rw [heq, Branch.choose]
  simp only [branch, hyes, Outcome.ok_bind]

/-- The default child, looked for among the branches of a node. -/
theorem descendDefault_eq (node : Node) (row : Row) :
    Branch.descendDefault node (node.children.map (branch policy)) row =
      match node.defaultChild with
      | none => .fail (.noDefaultChild node.label)
      | some id => match node.children.find? (·.id = some id) with
        | none => .fail (.strangeDefaultChild node.label id)
        | some next => next.descend policy row := by
  rw [Branch.descendDefault]
  cases node.defaultChild with
  | none => rfl
  | some id =>
    simp only [List.find?_map]
    -- A branch has the id of the node that it stands for.
    have hid : (fun b : Branch => decide (b.id = some id)) ∘ branch policy =
      fun child => decide (child.id = some id) := rfl
    rw [hid]
    cases node.children.find? (·.id = some id) <;> rfl

/-- What a node comes to at an unknown guard that is not passed over. -/
def unknownOutcome (policy : DescentPolicy) (row : Row) (node : Node) :
    MissingValueStrategy → Outcome (Option Node)
  | .lastPrediction => .ok (some node)
  | .nullPrediction => .ok none
  | .defaultChild => Branch.descendDefault node (node.children.map (branch policy)) row
  | strategy => .fail (.unsupportedStrategy strategy)

/-- An unknown guard decides if it is the first that is not passed over. -/
theorem AsksUnknown.descend_eq {node : Node} {strategy : MissingValueStrategy}
    (h : node.AsksUnknown policy row) (hpolicy : policy.missingValue = strategy)
    (hne : strategy ≠ .passOver) :
    node.descend policy row = unknownOutcome policy row node strategy := by
  obtain ⟨child, hasks, hunknown⟩ := h
  obtain ⟨rest, heq⟩ := hasks.descend_eq
  rw [heq, Branch.choose]
  simp only [branch, hunknown, Outcome.ok_bind, hpolicy]
  cases strategy with
  | passOver => exact absurd rfl hne
  | _ => rfl

/-- Where no child takes the row, the policy says whether the node itself predicts. -/
theorem Exhausted.descend_eq {node : Node} (h : node.Exhausted policy row) :
    node.descend policy row = match policy.noTrueChild with
      | .returnLastPrediction => .ok (some node)
      | .returnNullPrediction => .ok none := by
  have hskip := choose_append_of_passedOver node (node.children.map (branch policy)) [] h.2
  rw [List.append_nil] at hskip
  exact (descend_of_children_ne_nil h.1).trans hskip

/-! ### Steps and ends -/

/-- A descent comes to the same from the node it goes to. -/
theorem Step.descend_eq {node next : Node} (h : Step policy row node next) :
    node.descend policy row = next.descend policy row := by
  cases h with
  | taken hasks hyes => exact hasks.descend_of_yes hyes
  | default hasks hpolicy hid hfind =>
    rw [hasks.descend_eq hpolicy (by decide), unknownOutcome]
    simp only [descendDefault_eq, hid, hfind]

/-- A step goes to a child, also where it is the default child. -/
theorem Step.mem_children {node next : Node} (h : Step policy row node next) :
    next ∈ node.children := by
  cases h with
  | taken hasks _ => exact hasks.mem_children
  | default _ _ _ hfind => exact List.mem_of_find?_eq_some hfind

/-- A descent comes to the same from all nodes that it goes through. -/
theorem descend_eq_of_reflTransGen {node last : Node}
    (h : ReflTransGen (Step policy row) node last) :
    node.descend policy row = last.descend policy row := by
  induction h with
  | refl => rfl
  | tail _ hstep ih => rw [ih, hstep.descend_eq]

/-- A descent comes to a node that accepts. -/
theorem Accepts.descend_eq {node : Node} (h : Accepts policy row node) :
    node.descend policy row = .ok (some node) := by
  cases h with
  | leaf hchildren => exact descend_of_children_eq_nil hchildren
  | unknown hasks hpolicy => exact hasks.descend_eq hpolicy (by decide)
  | exhausted hall hpolicy => rw [hall.descend_eq, hpolicy]

/-- A descent comes to nothing at a node that declines. -/
theorem Declines.descend_eq {node : Node} (h : Declines policy row node) :
    node.descend policy row = .ok none := by
  cases h with
  | unknown hasks hpolicy => exact hasks.descend_eq hpolicy (by decide)
  | exhausted hall hpolicy => rw [hall.descend_eq, hpolicy]

/-- A descent fails with the failure it ends in. -/
theorem Fails.descend_eq {node : Node} {e : Failure} (h : Fails policy row node e) :
    node.descend policy row = .error e := by
  cases h with
  | guard hasks he => exact hasks.descend_of_error he
  | noDefault hasks hpolicy hid =>
    rw [hasks.descend_eq hpolicy (by decide), unknownOutcome]
    simp only [descendDefault_eq, hid]
    rfl
  -- No child has the id, so that none is found.
  | @strangeDefault id hasks hpolicy hid hne =>
    rw [hasks.descend_eq hpolicy (by decide), unknownOutcome]
    have hfind : node.children.find? (·.id = some id) = none :=
      List.find?_eq_none.2 fun child hc => by simpa using hne child hc
    simp only [descendDefault_eq, hid, hfind]
    rfl
  | unsupported hasks hpolicy =>
    rcases hpolicy with hpolicy | hpolicy
    · rw [hasks.descend_eq hpolicy (by decide), hpolicy]
      rfl
    · rw [hasks.descend_eq hpolicy (by decide), hpolicy]
      rfl

/-- A descent has the outcome with which it ends. -/
theorem Ends.descend_eq {node : Node} {outcome : Outcome (Option Node)}
    (h : Ends policy row node outcome) : node.descend policy row = outcome := by
  cases h with
  | accepts h => exact h.descend_eq
  | declines h => exact h.descend_eq
  | fails h => exact h.descend_eq

/-- At every node a descent goes on to a child or ends. -/
theorem step_or_ends (policy : DescentPolicy) (row : Row) (node : Node) :
    (∃ next, Step policy row node next) ∨ ∃ outcome, Ends policy row node outcome := by
  by_cases hnil : node.children = []
  · exact .inr ⟨_, .accepts (.leaf hnil)⟩
  rcases all_passedOver_or_first policy row node.children with
    hall | ⟨before, child, after, hsplit, hbefore, hchild⟩
  · -- No child takes the row.
    cases hpolicy : policy.noTrueChild with
    | returnLastPrediction => exact .inr ⟨_, .accepts (.exhausted ⟨hnil, hall⟩ hpolicy)⟩
    | returnNullPrediction => exact .inr ⟨_, .declines (.exhausted ⟨hnil, hall⟩ hpolicy)⟩
  -- The first child that is not passed over decides, by the answer of its guard.
  have hasks : node.Asks policy row child := ⟨before, after, hsplit, hbefore⟩
  cases heval : child.predicate.eval row with
  | error e => exact .inr ⟨_, .fails (.guard hasks heval)⟩
  | ok answer =>
    cases answer with
    | yes => exact .inl ⟨child, .taken hasks heval⟩
    | no => exact absurd (.inl heval) hchild
    | unknown =>
      have hunknown : node.AsksUnknown policy row := ⟨child, hasks, heval⟩
      cases hpolicy : policy.missingValue with
      | lastPrediction => exact .inr ⟨_, .accepts (.unknown hunknown hpolicy)⟩
      | nullPrediction => exact .inr ⟨_, .declines (.unknown hunknown hpolicy)⟩
      | passOver => exact absurd (.inr ⟨heval, hpolicy⟩) hchild
      | weightedConfidence => exact .inr ⟨_, .fails (.unsupported hunknown (.inl hpolicy))⟩
      | aggregateNodes => exact .inr ⟨_, .fails (.unsupported hunknown (.inr hpolicy))⟩
      -- The default child takes the row without being asked, if there is one.
      | defaultChild =>
        cases hid : node.defaultChild with
        | none => exact .inr ⟨_, .fails (.noDefault hunknown hpolicy hid)⟩
        | some id =>
          cases hfind : node.children.find? (·.id = some id) with
          | some next => exact .inl ⟨next, .default hunknown hpolicy hid hfind⟩
          | none =>
            refine .inr ⟨_, .fails (.strangeDefault hunknown hpolicy hid fun c hc => ?_)⟩
            simpa using List.find?_eq_none.1 hfind c hc

/-- A descent ends: each step goes down to a child. -/
theorem exists_ends (policy : DescentPolicy) (row : Row) (node : Node) :
    ∃ last outcome, ReflTransGen (Step policy row) node last ∧ Ends policy row last outcome := by
  induction node using Node.induction with
  | node node ih =>
    rcases step_or_ends policy row node with ⟨next, hstep⟩ | ⟨outcome, hends⟩
    · -- By induction on the tree, as the next node is a child.
      obtain ⟨last, outcome, hpath, hends⟩ := ih next hstep.mem_children
      exact ⟨last, outcome, .head hstep hpath, hends⟩
    · exact ⟨node, outcome, .refl, hends⟩

/-- A descent comes to what the node says at which it ends. -/
theorem descend_eq_iff {node : Node} {outcome : Outcome (Option Node)} :
    node.descend policy row = outcome ↔
      ∃ last, ReflTransGen (Step policy row) node last ∧ Ends policy row last outcome := by
  constructor
  · intro h
    -- There is an end, and the descent comes to its outcome.
    obtain ⟨last, outcome', hpath, hends⟩ := exists_ends policy row node
    have heq : outcome' = outcome := by
      rw [← h, descend_eq_of_reflTransGen hpath, hends.descend_eq]
    exact ⟨last, hpath, heq ▸ hends⟩
  · rintro ⟨last, hpath, hends⟩
    rw [descend_eq_of_reflTransGen hpath, hends.descend_eq]

/-- A descent comes to a node if and only if its steps lead there, and the node accepts. -/
theorem descend_eq_some_iff {node n : Node} :
    node.descend policy row = .ok (some n) ↔
      ReflTransGen (Step policy row) node n ∧ Accepts policy row n := by
  rw [descend_eq_iff]
  constructor
  · rintro ⟨last, hpath, hends⟩
    cases hends with
    | accepts h => exact ⟨hpath, h⟩
  · rintro ⟨hpath, h⟩
    exact ⟨n, hpath, .accepts h⟩

/-- A descent comes to nothing if and only if its steps lead to a node that declines. -/
theorem descend_eq_none_iff {node : Node} :
    node.descend policy row = .ok none ↔
      ∃ n, ReflTransGen (Step policy row) node n ∧ Declines policy row n := by
  rw [descend_eq_iff]
  refine exists_congr fun n => and_congr_right fun _ => ⟨fun hends => ?_, .declines⟩
  cases hends with
  | declines h => exact h

/-- A descent fails if and only if its steps lead to a node where it does. -/
theorem descend_eq_error_iff {node : Node} {e : Failure} :
    node.descend policy row = .error e ↔
      ∃ n, ReflTransGen (Step policy row) node n ∧ Fails policy row n e := by
  rw [descend_eq_iff]
  refine exists_congr fun n => and_congr_right fun _ => ⟨fun hends => ?_, .fails⟩
  cases hends with
  | fails h => exact h

end Node

/-- The descent of a tree. A node is its terminal node if and only if the guard of the
    root holds and the steps from the root lead to the node, which accepts; there is no
    prediction if the guard of the root does not hold, or the steps lead to a node that
    declines; and the descent fails if the guard of the root does, or the steps lead to
    a node that does. -/
theorem TreeModel.terminal_iff_path (tree : TreeModel) (row : Row) :
    (∀ n, tree.terminal row = .ok (some n) ↔
      tree.root.predicate.eval row = .ok .yes ∧
        ReflTransGen (Node.Step tree.policy row) tree.root n ∧
        Node.Accepts tree.policy row n) ∧
    (tree.terminal row = .ok none ↔
      tree.root.predicate.eval row = .ok .no ∨ tree.root.predicate.eval row = .ok .unknown ∨
      tree.root.predicate.eval row = .ok .yes ∧
        ∃ n, ReflTransGen (Node.Step tree.policy row) tree.root n ∧
          Node.Declines tree.policy row n) ∧
    ∀ e, tree.terminal row = .error e ↔
      tree.root.predicate.eval row = .error e ∨
      tree.root.predicate.eval row = .ok .yes ∧
        ∃ n, ReflTransGen (Node.Step tree.policy row) tree.root n ∧
          Node.Fails tree.policy row n e := by
  simp only [terminal]
  cases hroot : tree.root.predicate.eval row with
  | error e => simp
  | ok answer =>
    cases answer with
    | yes =>
      simp only [Outcome.ok_bind, true_and, reduceCtorEq, Except.ok.injEq, false_or]
      exact ⟨fun n => Node.descend_eq_some_iff, Node.descend_eq_none_iff,
        fun e => Node.descend_eq_error_iff⟩
    | no => simp
    | unknown => simp

end Scoring
