import Scoring.Proofs.Outcome

/-!
# Plain models

Models that declare no more than they need: a tree of one node, which predicts the
same class for every row (`TreeModel.constant`), a model under a guard
(`Segment.guarded`), and an ensemble that does nothing but combine its segments
(`MiningModel.plain`).
-/

namespace Scoring

/-- The node without children that every row passes into. -/
def Node.leaf (score : String) : Node where
  id := none
  score := some score
  recordCount := none
  defaultChild := none
  predicate := .always
  distributions := []
  children := []

/-- The tree that predicts one class for every row, under the name of its target. -/
def TreeModel.constant (target category : String) : TreeModel where
  name := none
  function := .classification
  schema := ⟨[⟨target, .target, none, none⟩]⟩
  output := none
  policy := ⟨.passOver, .returnLastPrediction⟩
  root := .leaf category

/-- A model under a guard, without a name or a weight of its own. -/
def Segment.guarded (guard : Predicate) (model : Model) : Segment where
  id := none
  weight := 1
  predicates := [guard]
  model := model

/-- The ensemble that declares nothing beside its segments. -/
def MiningModel.plain (method : MultipleModelMethod) (segments : List Segment) : MiningModel where
  name := none
  function := .classification
  schema := ⟨[]⟩
  output := none
  derivedFields := []
  targets := []
  method := method
  segments := segments

section Constant

variable (target category : String)

/-- A leaf without distributions outputs its class alone. -/
theorem TreeModel.outputs_constant :
    (constant target category).outputs (.leaf category) category =
      .ok (Record.single target (.text category)) := by
  -- A leaf without distributions has no shares, whatever their total is compared with.
  have hshares : (constant target category).classShares (.leaf category) = [] := by
    rw [classShares]
    split <;> rfl
  rw [outputs, hshares]
  rfl

/-- The class is the one output of a constant tree. -/
theorem TreeModel.score_constant (row : Row) :
    (Model.tree (constant target category)).score row =
      .ok (some (Record.single target (.text category))) := by
  have hscore : (constant target category).score row =
      some <$> (constant target category).outputs (.leaf category) category := rfl
  rw [outputs_constant] at hscore
  exact hscore

end Constant

/-- A guard that holds leaves it to the model. -/
theorem Segment.score_guarded_always (model : Model) (row : Row) :
    (guarded .always model).score row =
      Outcome.within (.segment (guarded .always model).label) (model.score row) :=
  rfl

/-- A guard that does not hold makes the segment abstain. -/
theorem Segment.score_guarded_never (model : Model) (row : Row) :
    (guarded .never model).score row = .ok none :=
  rfl

/-- A plain ensemble outputs what its segments combine to. -/
theorem MiningModel.score_plain (method : MultipleModelMethod) (segments : List Segment)
    (row : Row) :
    (Model.mining (plain method segments)).score row = (plain method segments).combine row :=
  calc (Model.mining (plain method segments)).score row
      = (do .ok ((← (plain method segments).combine row).map id)) := MiningModel.score_eq _ _
    _ = (plain method segments).combine row := by
        cases (plain method segments).combine row <;> simp

end Scoring
