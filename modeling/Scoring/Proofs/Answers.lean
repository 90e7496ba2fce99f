import Scoring.Proofs.Chain

/-!
# What outputs hold

Outputs answer: every value among them is a number or a text (`Value.IsAnswer`). Rows may
hold booleans, and fields whose value is absent, and no such value ever comes to be an
output:

* what a model predicts by itself is a number or a text, and so are the shares, scores and
  votes that it reports beside the prediction;
* output fields report what the outputs hold already, under further names; a field whose
  target is not among the outputs repeats the prediction, whatever the row has under that
  name (`Output.all_isAnswer_finish`);
* an ensemble that hands on outputs takes them from its members, although in a chain it
  puts them into its row as well (`Ensemble.all_isAnswer_combine`).
-/

namespace Scoring

/-- The values that outputs consist of. -/
def Value.IsAnswer (v : Value) : Prop := (∃ x, v = .number x) ∨ ∃ s, v = .text s

/-- A number is an answer. -/
theorem Value.isAnswer_number (x : Float) : (number x).IsAnswer := .inl ⟨x, rfl⟩

/-- A text is an answer. -/
theorem Value.isAnswer_text (s : String) : (text s).IsAnswer := .inr ⟨s, rfl⟩

/-! ### Output fields -/

section

variable {outputs : Outputs} {predicted : Value} (houtputs : outputs.All Value.IsAnswer)
include houtputs

/-- A field is filled with the prediction, or with an output there is already. -/
theorem OutputField.all_isAnswer_fill (field : OutputField) (hpredicted : predicted.IsAnswer) :
    (fill predicted outputs field).All Value.IsAnswer := by
  refine houtputs.insert ?_
  cases htarget : field.targetField.bind outputs.get? with
  | none => exact hpredicted
  | some value =>
    obtain ⟨target, _, hvalue⟩ := Option.bind_eq_some_iff.1 htarget
    exact houtputs target value hvalue

/-- A moved output keeps its value. -/
theorem OutputField.all_isAnswer_move (field : OutputField) (total : Float) :
    (move (outputs, total) field).1.All Value.IsAnswer := by
  -- The field takes over the output of its value, or nothing is changed.
  by_cases htakes : ∃ key ∈ outputs, field.value = some key
  · obtain ⟨key, hkey, hfield⟩ := htakes
    obtain ⟨value, hvalue⟩ := Record.mem_iff_exists.1 hkey
    rw [move_of_get?_eq_some hfield hvalue]
    exact houtputs.erase.insert (houtputs key value hvalue)
  · rw [move_of_not_mem fun key hkey hfield => htakes ⟨key, hkey, hfield⟩]
    exact houtputs

/-- A share is a number, whatever it is a share of. -/
theorem OutputField.all_isAnswer_share (field : OutputField) (total : Float) :
    (share total outputs field).All Value.IsAnswer :=
  houtputs.insert (Value.isAnswer_number _)

/-- Filling all predicted fields, one after the other, puts in answers only. -/
theorem Output.all_isAnswer_fillPredicted (output : Option Output)
    (hpredicted : predicted.IsAnswer) :
    (fillPredicted output predicted outputs).All Value.IsAnswer := by
  cases output with
  | none => exact houtputs
  | some declared =>
    exact List.foldlRecOn _ _ houtputs fun _ held field _ => field.all_isAnswer_fill held hpredicted

/-- Finishing outputs moves them, turns them into shares and repeats the prediction, and leaves
    answers. -/
theorem Output.all_isAnswer_finish (output : Option Output) (primary : String) :
    (finish output primary outputs).All Value.IsAnswer := by
  cases output with
  | none => exact houtputs
  | some declared =>
    -- The three stages, each of which is a fold over output fields.
    generalize hmoved : declared.fields.foldl OutputField.move (outputs, 0) = moved
    generalize hshared :
      declared.probabilityFields.foldl (OutputField.share moved.2) moved.1 = shared
    have hall : moved.1.All Value.IsAnswer := hmoved ▸
      List.foldlRecOn (motive := fun state : Outputs × Float => state.1.All Value.IsAnswer) _ _
        houtputs fun state held field _ => field.all_isAnswer_move held state.2
    have hall : shared.All Value.IsAnswer := hshared ▸
      List.foldlRecOn _ _ hall fun _ held field _ => field.all_isAnswer_share held moved.2
    rw [finish]
    simp only [hmoved, hshared]
    cases hprimary : shared.get? primary with
    | none => exact hall
    | some predicted => exact all_isAnswer_fillPredicted hall _ (hall primary predicted hprimary)

end

/-! ### Trees and regression models -/

/-- The prediction of a tree is the score of a node, as it is written or as a number. -/
theorem TreeModel.isAnswer_of_prediction {tree : TreeModel} {score : String} {predicted : Value}
    (h : tree.prediction score = .ok predicted) : predicted.IsAnswer := by
  rcases prediction_eq_ok_iff.1 h with ⟨_, rfl⟩ | ⟨_, x, _, rfl⟩
  · exact Value.isAnswer_text score
  · exact Value.isAnswer_number x

/-- The share of a class is a number. -/
theorem TreeModel.isAnswer_of_mem_classShares {tree : TreeModel} {node : Node}
    {share : String × Value} (h : share ∈ tree.classShares node) : share.2.IsAnswer := by
  rw [classShares] at h
  split at h
  · obtain ⟨distribution, _, rfl⟩ := List.mem_map.1 h
    exact Value.isAnswer_number _
  · cases h

/-- What a tree outputs are the shares of the classes, copies of the prediction, and the
    prediction. -/
theorem TreeModel.all_isAnswer_of_score {model : TreeModel} {row : Row} {outputs : Outputs}
    (h : model.score row = .ok (some outputs)) : outputs.All Value.IsAnswer := by
  obtain ⟨node, score, predicted, hpredicted, rfl⟩ := exists_outputs_of_score h
  have hpredicted := isAnswer_of_prediction hpredicted
  have hshares : (Record.ofList (model.classShares node)).All Value.IsAnswer :=
    Record.all_ofList fun _ => isAnswer_of_mem_classShares
  exact (Output.all_isAnswer_fillPredicted hshares model.output hpredicted).insert hpredicted

namespace RegressionModel

variable {model : RegressionModel} {row : Row} {outputs : Outputs} {predicted : Value}

/-- Reporting a prediction adds the prediction, and copies of it, to the outputs. -/
theorem all_isAnswer_report (hpredicted : predicted.IsAnswer)
    (houtputs : outputs.All Value.IsAnswer) :
    (model.report predicted outputs).All Value.IsAnswer :=
  (Output.all_isAnswer_fillPredicted houtputs model.output hpredicted).insert hpredicted

/-- The outputs of a classification are the scores of its categories, under names of categories
    or of fields. -/
theorem all_isAnswer_classOutputs (scores : List (String × Float)) :
    (model.classOutputs scores).All Value.IsAnswer := by
  rw [classOutputs]
  refine List.foldlRecOn _ _ (Record.all_ofList fun entry hentry => ?_) fun held hheld field _ => ?_
  · obtain ⟨score, _, rfl⟩ := List.mem_map.1 hentry
    exact Value.isAnswer_number _
  · split
    · exact hheld.insert (Value.isAnswer_number _)
    · exact hheld

theorem all_isAnswer_of_score (h : model.score row = .ok outputs) :
    outputs.All Value.IsAnswer := by
  rcases exists_report_of_score h with ⟨x, rfl⟩ | ⟨category, scores, rfl⟩
  · exact all_isAnswer_report (Value.isAnswer_number x) Record.all_empty
  · exact all_isAnswer_report (Value.isAnswer_text category) (all_isAnswer_classOutputs scores)

end RegressionModel

/-! ### Ensembles -/

namespace Ensemble

variable {members : List Member} {primary : String} {row : Row} {results : Outputs}

/-- A vote outputs its winner, and counts of votes. -/
theorem all_isAnswer_majorityVote (h : majorityVote primary members row = .ok (some results)) :
    results.All Value.IsAnswer := by
  obtain ⟨winner, counts, rfl⟩ := exists_counts_of_majorityVote h
  exact List.foldlRecOn counts _ (Record.all_single (Value.isAnswer_text winner))
    fun _ hheld _ _ => hheld.insert (Value.isAnswer_number _)

/-- What is computed from the numbers of the members is a number. -/
theorem all_isAnswer_combineNumbers {combination : List (Float × Float) → Float}
    (h : combineNumbers primary combination members row = .ok (some results)) :
    results.All Value.IsAnswer := by
  obtain ⟨x, rfl⟩ := exists_number_of_combineNumbers h
  exact Record.all_single (Value.isAnswer_number x)

/-- What all members output holds of a chain of them, whatever row it starts from. -/
theorem all_chain {p : Value → Prop}
    (hmembers : ∀ member ∈ members, ∀ seen outputs,
      member.score seen = .ok (some outputs) → outputs.All p)
    (h : chain members row = .ok (some results)) : results.All p := by
  suffices hgather : ∀ gathered : Outputs, gathered.All p → ∀ held,
      gather gathered members row = .ok held → held.All p by
    obtain ⟨held, hheld, h⟩ := Outcome.map_eq_ok_iff.1 h
    obtain ⟨rfl, _⟩ := Record.unlessEmpty_eq_some_iff.1 h
    exact hgather ∅ Record.all_empty held hheld
  -- What has been gathered is generalized, as every member puts something in.
  clear h
  induction members generalizing row with
  | nil => exact fun gathered hgathered held h => Except.ok.inj h ▸ hgathered
  | cons member members ih =>
    intro gathered hgathered held h
    obtain ⟨hfirst, hmembers⟩ := List.forall_mem_cons.1 hmembers
    rw [gather] at h
    obtain ⟨outputs, hscore, h⟩ := Outcome.bind_eq_ok_iff.1 h
    cases outputs with
    | none => exact ih hmembers gathered hgathered held h
    | some outputs =>
      exact ih hmembers _ (hgathered.merge (hfirst row outputs hscore)) held h

/-- A combination outputs answers if its members do, whatever row they have been given. -/
theorem all_isAnswer_combine {method : MultipleModelMethod} {target : Target}
    (hmembers : ∀ member ∈ members, ∀ seen outputs,
      member.score seen = .ok (some outputs) → outputs.All Value.IsAnswer)
    (h : combine method primary target members row = .ok (some results)) :
    results.All Value.IsAnswer := by
  cases method with
  | selectFirst =>
    -- They are the outputs of a member as they are.
    obtain ⟨member, hmem, seen, hscore⟩ :=
      ((contributes_selectFirst_iff h).2 rfl).exists_member
    exact hmembers member hmem seen results hscore
  | modelChain => exact all_chain hmembers h
  | majorityVote => exact all_isAnswer_majorityVote h
  | average | weightedAverage | sum =>
    rw [combine] at h
    exact all_isAnswer_combineNumbers h
  | weightedMajorityVote | median | max | selectAll => cases h

end Ensemble

/-! ### Models -/

/-- What a model outputs are answers: by induction on the ensembles in it. -/
theorem Model.all_isAnswer_of_score {model : Model} {row : Row} {outputs : Outputs}
    (h : model.score row = .ok (some outputs)) : outputs.All Value.IsAnswer := by
  induction model using Model.induction generalizing row outputs with
  | tree model => exact TreeModel.all_isAnswer_of_score (Outcome.inModel_eq_ok_iff.1 h)
  | regression model =>
    exact RegressionModel.all_isAnswer_of_score (RegressionModel.score_of_score_model h)
  | mining model ih =>
    obtain ⟨seen, results, _, hcombine, rfl⟩ :=
      MiningModel.exists_results_of_score (Outcome.inModel_eq_ok_iff.1 h)
    refine Output.all_isAnswer_finish (Ensemble.all_isAnswer_combine ?_ hcombine) _ _
    -- A member is a segment, whose outputs are those of its model.
    intro member hmem seen outputs hscore
    obtain ⟨segment, hsegment, rfl⟩ := List.mem_map.1 hmem
    exact ih segment hsegment (Segment.score_model_of_score hscore)

/-- A model that predicts anything has outputs, and each of them is a number or a text. -/
theorem Model.answers_of_score {model : Model} {row : Row} {outputs : Outputs}
    (h : model.score row = .ok (some outputs)) :
    outputs ≠ ∅ ∧ ∀ name value, outputs.get? name = some value →
      (∃ x, value = .number x) ∨ ∃ s, value = .text s :=
  ⟨outputs_ne_empty h, all_isAnswer_of_score h⟩

/-- A chain of two trees, the first of which goes by the boolean `flag`. Its output field
    `copy` asks for a repetition of `flag`. -/
def MiningModel.copying : MiningModel :=
  { plain .modelChain
      [.guarded (.simple "flag" .equal (some "true")) (.tree (.constant "y" "a")),
        .guarded .always (.tree (.constant "z" "b"))] with
    output := some ⟨[⟨"copy", none, none, .predictedValue, none, some "flag", none⟩]⟩ }

/-- The field `copy` repeats the prediction, and not the boolean of the row. -/
theorem Model.answers_of_score_copying : ∃ outputs : Outputs,
    (Model.mining .copying).score (.single "flag" (.boolean true)) = .ok (some outputs) ∧
      outputs.get? "copy" = some (.text "a") ∧
      outputs ≠ ∅ ∧ ∀ name value, outputs.get? name = some value →
        (∃ x, value = .number x) ∨ ∃ s, value = .text s :=
  have h : (Model.mining .copying).score (.single "flag" (.boolean true)) =
      .ok (some (.ofList [("y", .text "a"), ("z", .text "b"), ("copy", .text "a")])) := by rfl
  ⟨_, h, by rfl, answers_of_score h⟩

end Scoring
