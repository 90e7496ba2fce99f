import Scoring.Proofs.Outcome

/-!
# Outputs of trees and regression models

When a tree and a regression model have outputs, and which. A tree has outputs if its descent
ends at a node with a score, out of which a prediction can be made
(`TreeModel.score_eq_some_iff`, `TreeModel.prediction_eq_ok_iff`). A regression model that
predicts a number has outputs if it has one table and this has a score, and one that predicts a
class if it has tables and all of them have a class and a score
(`RegressionModel.score_eq_ok_iff_of_regression`,
`RegressionModel.score_eq_ok_iff_of_classification`).
-/

namespace Scoring

namespace TreeModel

variable {tree : TreeModel}

/-- The prediction of a classification tree is the score as it is written, and of a regression
    tree the number it reads as. -/
theorem prediction_eq_ok_iff {score : String} {predicted : Value} :
    tree.prediction score = .ok predicted ↔
      (tree.function = .classification ∧ predicted = .text score) ∨
      (tree.function = .regression ∧ ∃ x, Number.read? score = some x ∧ predicted = .number x) := by
  rw [prediction]
  cases tree.function with
  | classification => simp [eq_comm]
  | regression => cases Number.read? score <;> simp [Outcome.fail, eq_comm]

/-- A tree outputs something if the row comes to a node, which has a score that makes a
    prediction. -/
theorem score_eq_some_iff {row : Row} {outputs : Outputs} :
    tree.score row = .ok (some outputs) ↔ ∃ node score predicted,
      tree.terminal row = .ok (some node) ∧ node.score = some score ∧
      tree.prediction score = .ok predicted ∧
      (Output.fillPredicted tree.output predicted
        (Record.ofList (tree.classShares node))).insert tree.primary predicted = outputs := by
  rw [score, Outcome.bind_eq_ok_iff]
  constructor
  · rintro ⟨_ | node, hterminal, h⟩
    · cases h
    · cases hscore : node.score with
      | none =>
        simp only [hscore] at h
        cases h
      | some score =>
        simp only [hscore, TreeModel.outputs, Outcome.map_eq_ok_iff, Outcome.bind_eq_ok_iff,
          Option.some.injEq, exists_eq_right] at h
        obtain ⟨predicted, hpredicted, h⟩ := h
        exact ⟨node, score, predicted, hterminal, hscore, hpredicted, Except.ok.inj h⟩
  · rintro ⟨node, score, predicted, hterminal, hscore, hpredicted, rfl⟩
    refine ⟨some node, hterminal, ?_⟩
    simp only [hscore, TreeModel.outputs, hpredicted, Outcome.ok_bind, Outcome.map_ok]

end TreeModel

namespace RegressionModel

variable {model : RegressionModel} {row : Row} {outputs : Outputs}

/-- A regression has one table, whose score is reported. -/
theorem score_eq_ok_iff_of_regression (hfunction : model.function = .regression) :
    model.score row = .ok outputs ↔ ∃ table x, model.tables = [table] ∧
      table.score row = .ok x ∧ model.report (.number x) ∅ = outputs := by
  rw [score, hfunction]
  simp only [scoreNumber]
  constructor
  · intro h
    split at h
    · rename_i table htables
      obtain ⟨x, hx, h⟩ := Outcome.bind_eq_ok_iff.1 h
      exact ⟨table, x, htables, hx, Except.ok.inj h⟩
    · cases h
  · rintro ⟨table, x, htables, hx, rfl⟩
    simp only [htables, hx, Outcome.ok_bind]

/-- The classes with their scores as the model's normalisation leaves them. -/
def normalized (model : RegressionModel) (scores : List (String × Float)) :
    List (String × Float) :=
  (scores.map (·.1)).zip (model.normalization.normalize (scores.map (·.2)))

/-- A classification reports the class that wins by the raw scores, beside all scores as
    normalisation leaves them. -/
theorem score_eq_ok_iff_of_classification (hfunction : model.function = .classification) :
    model.score row = .ok outputs ↔ ∃ first rest,
      classScores row model.tables = .ok (first :: rest) ∧
      model.report (.text (winner first rest))
        (model.classOutputs (model.normalized (first :: rest))) = outputs := by
  rw [score, hfunction]
  simp only [scoreClass, Outcome.bind_eq_ok_iff]
  constructor
  · -- Without a score there is no class that could win.
    rintro ⟨_ | ⟨first, rest⟩, hscores, h⟩
    · cases h
    · exact ⟨first, rest, hscores, Except.ok.inj h⟩
  · rintro ⟨first, rest, hscores, rfl⟩
    exact ⟨first :: rest, hscores, rfl⟩

end RegressionModel

end Scoring
