import Scoring.Proofs.Descent
import Scoring.Proofs.Plain

/-!
# The strictest policy

The strictest policy of a descent never guesses (`DescentPolicy.strict`): it gives up at
the first unknown guard, and at a node none of whose children takes the row. A descent
that it does not give up has met neither on its way:

* all children that it passed over have guards that do not hold, and all steps go to
  children whose guards do (`Node.Step.of_strict`);
* it ends at a leaf, or in the failure of a guard (`Node.Ends.of_strict`).

None of this asks the policy, so the descent goes the same way under every other one
(`TreeModel.terminal_eq_of_strict`). Policies differ only on rows for which the strictest
one makes no prediction.
-/

namespace Scoring

open Relation

/-- The policy that gives up wherever no guard decides. -/
def DescentPolicy.strict : DescentPolicy := ⟨.nullPrediction, .returnNullPrediction⟩

/-- The same tree under another policy. -/
def TreeModel.under (tree : TreeModel) (policy : DescentPolicy) : TreeModel := { tree with policy }

namespace Node

variable {row : Row} (policy : DescentPolicy)

/-- What the strictest policy passes over, every policy does. -/
theorem PassedOver.of_strict {child : Node} (h : child.PassedOver .strict row) :
    child.PassedOver policy row :=
  .inl (h.eval_eq rfl)

theorem Asks.of_strict {node child : Node} (h : node.Asks .strict row child) :
    node.Asks policy row child := by
  obtain ⟨before, after, hsplit, hbefore⟩ := h
  exact ⟨before, after, hsplit, fun c hc => (hbefore c hc).of_strict policy⟩

/-- A step under the strictest policy is one under every policy: it goes to a child whose
    guard holds, never to a default child. -/
theorem Step.of_strict {node next : Node} (h : Step .strict row node next) :
    Step policy row node next := by
  cases h with
  | taken hasks hyes => exact .taken (hasks.of_strict policy) hyes
  | default _ hpolicy _ _ => cases hpolicy

/-- The strictest policy accepts leaves only. -/
theorem Accepts.of_strict {node : Node} (h : Accepts .strict row node) :
    Accepts policy row node := by
  cases h with
  | leaf hchildren => exact .leaf hchildren
  | unknown _ hpolicy => cases hpolicy
  | exhausted _ hpolicy => cases hpolicy

/-- The strictest policy fails only where a guard does. -/
theorem Fails.of_strict {node : Node} {e : Failure} (h : Fails .strict row node e) :
    Fails policy row node e := by
  cases h with
  | guard hasks he => exact .guard (hasks.of_strict policy) he
  | noDefault _ hpolicy _ => cases hpolicy
  | strangeDefault _ hpolicy _ _ => cases hpolicy
  | unsupported _ hpolicy => rcases hpolicy with hpolicy | hpolicy <;> cases hpolicy

theorem Ends.of_strict {node : Node} {outcome : Outcome (Option Node)}
    (h : Ends .strict row node outcome) (hne : outcome ≠ .ok none) :
    Ends policy row node outcome := by
  cases h with
  | accepts h => exact .accepts (h.of_strict policy)
  | declines _ => exact absurd rfl hne
  | fails h => exact .fails (h.of_strict policy)

/-- A descent that the strictest policy does not give up comes to the same under every
    policy. -/
theorem descend_eq_of_strict {node : Node} (h : node.descend .strict row ≠ .ok none) :
    node.descend policy row = node.descend .strict row := by
  obtain ⟨last, hpath, hends⟩ := descend_eq_iff.1 (rfl : node.descend .strict row = _)
  have hpath : ReflTransGen (Step policy row) node last :=
    ReflTransGen.mono (fun _ _ => Step.of_strict policy) _ _ hpath
  exact descend_eq_iff.2 ⟨last, hpath, hends.of_strict policy h⟩

end Node

namespace TreeModel

/-- Where a tree has a terminal node or fails under the strictest policy, it has the same
    terminal node, or the same failure, under every policy. -/
theorem terminal_eq_of_strict {tree : TreeModel} {row : Row}
    (h : (tree.under .strict).terminal row ≠ .ok none) (policy : DescentPolicy) :
    (tree.under policy).terminal row = (tree.under .strict).terminal row := by
  simp only [terminal, under] at h ⊢
  -- The guard of the root is asked before the policy is.
  cases hroot : tree.root.predicate.eval row with
  | error e => rfl
  | ok answer =>
    rw [hroot] at h
    cases answer with
    | yes => exact Node.descend_eq_of_strict policy h
    | no => rfl
    | unknown => rfl

/-- The weight is unknown, and a policy that cannot deal with unknown guards would fail at
    the last child; but the child before it takes the row. -/
theorem terminal_eq_of_strict_red :
    let small : Node := { Node.leaf "cold" with predicate := .simple "size" .equal (some "small") }
    let red : Node := { Node.leaf "warm" with predicate := .set "color" .isIn ["red", "orange"] }
    let light : Node := { Node.leaf "mild" with predicate := .simple "weight" .lessThan (some "5") }
    let tree : TreeModel := { constant "mood" "mild" with
      root := { Node.leaf "mild" with children := [small, red, light] } }
    let row : Row := (Record.single "color" (.text "red")).insert "size" (.text "large")
    (tree.under .strict).terminal row = .ok (some red) ∧
      (tree.under ⟨.aggregateNodes, .returnLastPrediction⟩).terminal row =
        (tree.under .strict).terminal row := by
  intro small red light tree row
  have hterminal : (tree.under .strict).terminal row = .ok (some red) := rfl
  refine ⟨hterminal, terminal_eq_of_strict ?_ _⟩
  -- A terminal node is not the absence of one.
  rw [hterminal]
  exact nofun

end TreeModel

end Scoring
