import Scoring.Proofs.Categories

/-!
# What leaves put out

Trees and regression models are the leaves of ensembles. A leaf enters several things into its
outputs under names that the model chooses, and these may coincide: the shares or scores of
classes first, then what its output fields report, and the prediction last. So the prediction is
found under the primary name in any case (`outputs_of_leaf`).

The names of the outputs are the primary name, those of the fields that repeat the prediction,
and

* for a tree, those of the classes of its terminal node, if this counts any records
  (`TreeModel.mem_classShares_iff`);
* for a regression model that predicts a class, the classes of its tables and the names of the
  fields for the probability of one of these (`RegressionModel.mem_classOutputs_iff`).
-/

namespace Scoring

/-! ### Trees -/

/-- How many records the classes of a node count together. -/
def Node.records (node : Node) : Float :=
  node.distributions.foldl (fun total d => total + d.recordCount) 0

namespace TreeModel

variable {tree : TreeModel} {node : Node} {k : String}

/-- A node has shares for the classes that it counts records of, if it counts any at all. -/
theorem mem_classShares_iff : k ∈ (tree.classShares node).map (·.1) ↔
    0 < node.records ∧ ∃ d ∈ node.distributions, tree.className d.value = k := by
  rw [classShares, ← Node.records]
  by_cases hrecords : 0 < node.records <;> simp [hrecords]

/-- The names of the outputs at a node. -/
theorem mem_outputs_iff {predicted : Value} :
    k ∈ (Output.fillPredicted tree.output predicted
        (Record.ofList (tree.classShares node))).insert tree.primary predicted ↔
      k = tree.primary ∨ k ∈ Output.predictedNames tree.output ∨
        0 < node.records ∧ ∃ d ∈ node.distributions, tree.className d.value = k := by
  rw [Record.mem_insert, Output.mem_fillPredicted_iff, Record.mem_ofList, mem_classShares_iff,
    eq_comm, or_comm (a := _ ∧ _)]

end TreeModel

/-! ### Regression models -/

namespace OutputField

variable {scores : List (String × Float)} {fields : List OutputField} {field : OutputField}
  {outputs : Outputs} {k : String}

/-- A field has a score to report if it stands for a class that has one. -/
theorem isSome_classScore?_iff : (field.classScore? scores).isSome ↔
    ∃ category ∈ field.value, category ∈ scores.map (·.1) := by
  rw [classScore?]
  cases field.value <;> simp

/-- A field adds its name, if it has a score to report. -/
theorem mem_reportClass_iff : k ∈ field.reportClass scores outputs ↔
    k ∈ outputs ∨ field.name = k ∧ (field.classScore? scores).isSome := by
  rw [reportClass]
  cases field.classScore? scores with
  | none => simp
  | some x => simp [or_comm]

/-- Fields add their names, if they have a score to report. -/
theorem mem_foldl_reportClass_iff : k ∈ fields.foldl (reportClass scores) outputs ↔
    k ∈ outputs ∨ ∃ field ∈ fields, field.name = k ∧ (field.classScore? scores).isSome := by
  induction fields generalizing outputs with
  | nil => simp
  | cons field fields ih =>
    rw [List.foldl_cons, ih, mem_reportClass_iff, or_assoc]
    simp

end OutputField

namespace RegressionModel

variable {model : RegressionModel} {row : Row} {k : String}

/-- Reporting a prediction adds the primary name, and those of the fields that repeat it. -/
theorem mem_report_iff {predicted : Value} {outputs : Outputs} :
    k ∈ model.report predicted outputs ↔
      k = model.primary ∨ k ∈ Output.predictedNames model.output ∨ k ∈ outputs := by
  rw [report, Record.mem_insert, Output.mem_fillPredicted_iff, eq_comm]
  simp [or_comm]

/-- The outputs of a classification are under the names of its classes, and of the fields for
    the probability of one of them. -/
theorem mem_classOutputs_iff {scores : List (String × Float)} :
    k ∈ model.classOutputs scores ↔ k ∈ scores.map (·.1) ∨
      ∃ field ∈ model.probabilityFields, field.name = k ∧
        ∃ category ∈ field.value, category ∈ scores.map (·.1) := by
  rw [classOutputs_eq, OutputField.mem_foldl_reportClass_iff, categoryOutputs, Record.mem_ofList,
    List.map_map]
  simp only [OutputField.isSome_classScore?_iff]
  rfl

end RegressionModel

/-! ### Leaves -/

/-- A leaf puts out its prediction under its primary name, whatever else has this name. The
    names of its outputs are those that it enters something under. -/
theorem outputs_of_leaf :
    (∀ (tree : TreeModel) (row : Row) (outputs : Outputs), tree.score row = .ok (some outputs) →
      ∃ node score predicted, tree.terminal row = .ok (some node) ∧ node.score = some score ∧
        (tree.function = .classification → predicted = .text score) ∧
        (tree.function = .regression →
          ∃ x, Number.read? score = some x ∧ predicted = .number x) ∧
        outputs.get? tree.primary = some predicted ∧
        ∀ k, k ∈ outputs ↔ k = tree.primary ∨ k ∈ Output.predictedNames tree.output ∨
          0 < node.records ∧ ∃ d ∈ node.distributions, tree.className d.value = k) ∧
    ∀ (model : RegressionModel) (row : Row) (outputs : Outputs), model.score row = .ok outputs →
      (model.function = .regression → ∃ table x, model.tables = [table] ∧
        table.score row = .ok x ∧ outputs.get? model.primary = some (.number x) ∧
        ∀ k, k ∈ outputs ↔ k = model.primary ∨ k ∈ Output.predictedNames model.output) ∧
      (model.function = .classification → ∃ category,
        RegressionModel.Wins row model.tables category ∧
        outputs.get? model.primary = some (.text category) ∧
        ∀ k, k ∈ outputs ↔ k = model.primary ∨ k ∈ Output.predictedNames model.output ∨
          (∃ table ∈ model.tables, table.targetCategory = some k) ∨
          ∃ field ∈ model.probabilityFields, field.name = k ∧ ∃ category ∈ field.value,
            ∃ table ∈ model.tables, table.targetCategory = some category) := by
  refine ⟨fun tree row outputs h => ?_, fun model row outputs h =>
    ⟨fun hfunction => ?_, fun hfunction => ?_⟩⟩
  · obtain ⟨node, score, predicted, hterminal, hscore, hpredicted, rfl⟩ :=
      TreeModel.score_eq_some_iff.1 h
    refine ⟨node, score, predicted, hterminal, hscore, fun hfunction => ?_, fun hfunction => ?_,
      by rw [Record.get?_insert, if_pos rfl], fun k => TreeModel.mem_outputs_iff⟩
    · simpa [hfunction] using TreeModel.prediction_eq_ok_iff.1 hpredicted
    · simpa [hfunction] using TreeModel.prediction_eq_ok_iff.1 hpredicted
  · obtain ⟨table, x, htables, hx, rfl⟩ :=
      (RegressionModel.score_eq_ok_iff_of_regression hfunction).1 h
    refine ⟨table, x, htables, hx, RegressionModel.get?_primary_report .., fun k => ?_⟩
    have hempty : k ∉ (∅ : Outputs) := by simp [Record.mem_iff]
    -- Nothing is put out before the prediction.
    rw [RegressionModel.mem_report_iff, or_iff_left hempty]
  · obtain ⟨first, rest, hscores, rfl⟩ :=
      (RegressionModel.score_eq_ok_iff_of_classification hfunction).1 h
    refine ⟨_, RegressionModel.wins_winner hscores, RegressionModel.get?_primary_report ..,
      fun k => ?_⟩
    rw [RegressionModel.mem_report_iff, RegressionModel.mem_classOutputs_iff]
    -- The classes of the scores are those of the tables.
    simp only [RegressionModel.mem_normalized_iff hscores]

/-- A class and the target of a tree have one name. So have the winner and the target of a
    regression model, and a field of this for the probability of the other class. -/
theorem outputs_of_leaf_same_name :
    let node : Node := { Node.leaf "a" with distributions := [⟨"y", 1, none, none⟩] }
    let tree := { TreeModel.constant "y" "a" with root := node }
    let model := { RegressionModel.flat "b" [("a", 1), ("b", 3)] with
      output := some ⟨[Output.probabilityField "b" "a"]⟩ }
    (∃ outputs, tree.score ∅ = .ok (some outputs) ∧ outputs.get? "y" = some (.text "a") ∧
      ∀ k, k ∈ outputs ↔ k = "y") ∧
    ∃ outputs, model.score ∅ = .ok outputs ∧ outputs.get? "b" = some (.text "b") ∧
      ∀ k, k ∈ outputs ↔ k = "a" ∨ k = "b" := by
  intro node tree model
  constructor
  · have hscore := TreeModel.score_eq_some_iff.2
      ⟨node, "a", .text "a", (rfl : tree.terminal ∅ = .ok (some node)), rfl, rfl, rfl⟩
    obtain ⟨node', _, _, hterminal, hclass, htext, _, hget, hmem⟩ :=
      outputs_of_leaf.1 tree ∅ _ hscore
    obtain rfl : node = node' := Option.some.inj (Except.ok.inj hterminal)
    obtain rfl := Option.some.inj hclass
    obtain rfl := htext rfl
    have hprimary : tree.primary = "y" := by decide
    have hrepeated : Output.predictedNames tree.output = [] := rfl
    have hclasses : ∀ k, (0 < node.records ∧ ∃ d ∈ node.distributions, tree.className d.value = k) ↔
        k = "y" := fun k => by
      have hrecords : 0 < node.records := by decide
      have hname : tree.className "y" = "y" := rfl
      simp [hrecords, node, hname, eq_comm]
    refine ⟨_, hscore, hprimary ▸ hget, fun k => ?_⟩
    rw [hmem, hprimary, hrepeated, hclasses]
    simp
  · have hscore : model.score ∅ = .ok _ :=
      (RegressionModel.score_eq_ok_iff_of_classification rfl).2 ⟨("a", 1), [("b", 3)], rfl, rfl⟩
    obtain ⟨category, hwins, hget, hmem⟩ := (outputs_of_leaf.2 model ∅ _ hscore).2 rfl
    have hwinner : RegressionModel.winner ("a", 1) [("b", 3)] = category :=
      Value.text.inj (Option.some.inj ((RegressionModel.get?_primary_report ..).symm.trans hget))
    obtain rfl : "b" = category := by
      rw [← hwinner]
      decide
    have hprimary : model.primary = "b" := by decide
    have hrepeated : Output.predictedNames model.output = [] := rfl
    have hclasses : ∀ k, (∃ table ∈ model.tables, table.targetCategory = some k) ↔
        k = "a" ∨ k = "b" := fun k => by
      simp [model, RegressionModel.flat, eq_comm]
    have hfields : ∀ k, (∃ field ∈ model.probabilityFields, field.name = k ∧
        ∃ category ∈ field.value, category = "a" ∨ category = "b") ↔ k = "b" := fun k => by
      have hfield : model.probabilityFields = [Output.probabilityField "b" "a"] := by decide
      simp [hfield, Output.probabilityField, eq_comm]
    refine ⟨_, hscore, hprimary ▸ hget, fun k => ?_⟩
    simp only [hmem, hprimary, hrepeated, hclasses, hfields]
    simp +contextual [or_comm]

end Scoring
