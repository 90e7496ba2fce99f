import Scoring.Proofs.Induction
import Scoring.Proofs.OutputNames
import Scoring.Proofs.Plain
import Scoring.Proofs.Scores
import Scoring.Proofs.Turns

/-!
# The primary output

A model names the output that carries its prediction (`Model.primary`). This module
is about whether its outputs have an entry under that name.

* Trees and regression models enter their prediction there, last of all.
* An ensemble that makes a prediction of its own enters that. One that hands on the
  outputs of its members has the entry if a member has it that contributes to the
  results (`Ensemble.primary_mem_combine_iff`).
* In an ensemble the entry may then move to an output field, or another in its place
  (`Output.Reports`).

These are the reasons for and against, at each level of a model
(`Model.primary_mem_outputs`). No row can take the entry away if the names fit
together throughout the model (`Model.Aligned`). That they do is not a matter of
course: an ensemble goes by the name of its first segment, even where it hands on
the outputs of another (`Model.exists_primary_not_mem_outputs`).
-/

namespace Scoring

/-- A method makes no prediction of its own, and hands on the outputs of members. -/
def MultipleModelMethod.HandsOn (method : MultipleModelMethod) : Prop :=
  method = .selectFirst ∨ method = .modelChain

namespace Ensemble

/-- The outputs of a member contribute to what is handed on: of the first member that
    does not abstain, and in a chain of every such member, for the row as the chain
    gives it. -/
inductive Contributes (method : MultipleModelMethod) : List Member → Row → Outputs → Prop
  | own {member : Member} {members : List Member} {row : Row} {outputs : Outputs} :
      member.score row = .ok (some outputs) →
      Contributes method (member :: members) row outputs
  | abstained {member : Member} {members : List Member} {row : Row} {outputs : Outputs} :
      member.score row = .ok none → Contributes method members row outputs →
      Contributes method (member :: members) row outputs
  | chained {member : Member} {members : List Member} {row : Row} {earlier outputs : Outputs} :
      method = .modelChain → member.score row = .ok (some earlier) →
      Contributes method members (row.merge earlier) outputs →
      Contributes method (member :: members) row outputs

variable {members : List Member} {row : Row} {primary k : String}

/-- Some member contributes the outputs. -/
theorem Contributes.exists_member {method : MultipleModelMethod} {outputs : Outputs}
    (h : Contributes method members row outputs) :
    ∃ member ∈ members, ∃ seen, member.score seen = .ok (some outputs) := by
  induction h with
  | own hscore => exact ⟨_, List.mem_cons_self, _, hscore⟩
  | abstained _ _ ih =>
    obtain ⟨member, hmem, hscore⟩ := ih
    exact ⟨member, List.mem_cons_of_mem _ hmem, hscore⟩
  | chained _ _ _ ih =>
    obtain ⟨member, hmem, hscore⟩ := ih
    exact ⟨member, List.mem_cons_of_mem _ hmem, hscore⟩

/-- A selection is what its one contributing member outputs. -/
theorem contributes_selectFirst_iff {results outputs : Outputs}
    (h : selectFirst row members = .ok (some results)) :
    Contributes .selectFirst members row outputs ↔ outputs = results := by
  induction members with
  | nil => cases h
  | cons member members ih =>
    rw [selectFirst] at h
    obtain ⟨x, hscore, h⟩ := Outcome.bind_eq_ok_iff.1 h
    cases x with
    | none =>
      -- The member abstains, and the selection is among the rest.
      rw [← ih h]
      constructor
      · intro hcontributes
        cases hcontributes with
        | own hown => cases hscore.symm.trans hown
        | abstained _ hlater => exact hlater
        | chained hmethod => cases hmethod
      · exact .abstained hscore
    | some first =>
      -- The member is selected, and none after it contributes.
      obtain rfl := Option.some.inj (Except.ok.inj h)
      constructor
      · intro hcontributes
        cases hcontributes with
        | own hown => exact Option.some.inj (Except.ok.inj (hown.symm.trans hscore))
        | abstained habstained => cases hscore.symm.trans habstained
        | chained hmethod => cases hmethod
      · rintro rfl
        exact .own hscore

/-- A chain holds a name if a contributing member outputs it. -/
theorem mem_chain_iff {results : Option Outputs} (h : chain members row = .ok results) :
    (∃ held ∈ results, k ∈ held) ↔
      ∃ outputs, Contributes .modelChain members row outputs ∧ k ∈ outputs := by
  induction members generalizing row results with
  | nil =>
    obtain rfl := Except.ok.inj h
    constructor
    · rintro ⟨_, hnone, _⟩
      cases hnone
    · rintro ⟨_, hcontributes, _⟩
      cases hcontributes
  | cons member members ih =>
    rw [chain_cons] at h
    obtain ⟨outputs, hscore, h⟩ := Outcome.bind_eq_ok_iff.1 h
    obtain ⟨later, hchain, h⟩ := Outcome.bind_eq_ok_iff.1 h
    -- The rest of the chain goes on with the outputs of the member in its row.
    have hheld : (∃ held ∈ results, k ∈ held) ↔
        k ∈ outputs.getD ∅ ∨ ∃ held ∈ later, k ∈ held := by
      rw [← Except.ok.inj h, ← Record.mem_getD_iff, ← Record.mem_getD_iff,
        Record.getD_unlessEmpty, Record.mem_merge]
    rw [hheld, ih hchain]
    cases outputs with
    | none =>
      constructor
      · rintro (hk | ⟨outputs, hlater, hk⟩)
        · cases hk
        · exact ⟨outputs, .abstained hscore hlater, hk⟩
      · rintro ⟨outputs, hcontributes, hk⟩
        cases hcontributes with
        | own hown => cases hscore.symm.trans hown
        | abstained _ hlater => exact .inr ⟨outputs, hlater, hk⟩
        | chained _ hearlier => cases hscore.symm.trans hearlier
    | some first =>
      constructor
      · rintro (hk | ⟨outputs, hlater, hk⟩)
        · exact ⟨first, .own hscore, hk⟩
        · exact ⟨outputs, .chained rfl hscore hlater, hk⟩
      · rintro ⟨outputs, hcontributes, hk⟩
        cases hcontributes with
        | own hown =>
          obtain rfl := Option.some.inj (Except.ok.inj (hown.symm.trans hscore))
          exact .inl hk
        | abstained habstained => cases hscore.symm.trans habstained
        | chained _ hearlier hlater =>
          obtain rfl := Option.some.inj (Except.ok.inj (hearlier.symm.trans hscore))
          exact .inr ⟨outputs, hlater, hk⟩

/-- Some member contributes to a chain that holds anything. -/
theorem exists_contributes_of_chain {results : Outputs}
    (h : chain members row = .ok (some results)) :
    ∃ outputs, Contributes .modelChain members row outputs := by
  -- A chain that predicts has entries, and each of them comes from a member.
  have hne : results ≠ ∅ := fun hempty => chain_ne_empty (hempty ▸ h)
  obtain ⟨k, hk⟩ := Record.ne_empty_iff.1 hne
  obtain ⟨outputs, hcontributes, _⟩ := (mem_chain_iff h).1 ⟨results, rfl, hk⟩
  exact ⟨outputs, hcontributes⟩

/-- A vote is the winning category under the primary name, and then the counts, which may
    replace it. -/
theorem exists_counts_of_majorityVote {results : Outputs}
    (h : majorityVote primary members row = .ok (some results)) :
    ∃ (winner : String) (counts : List (String × Float)), results = counts.foldl
      (fun outputs (category, votes) => outputs.insert category (.number votes))
      (Record.single primary (.text winner)) := by
  rw [majorityVote] at h
  obtain ⟨votes, _, h⟩ := Outcome.bind_eq_ok_iff.1 h
  cases hcounts : tally votes with
  | nil =>
    rw [hcounts] at h
    cases h
  | cons first rest =>
    rw [hcounts] at h
    exact ⟨_, _, (Option.some.inj (Except.ok.inj h)).symm⟩

/-- Numbers are combined to one, which is the only output. -/
theorem exists_number_of_combineNumbers {combination : List (Float × Float) → Float}
    {results : Outputs} (h : combineNumbers primary combination members row = .ok (some results)) :
    ∃ x, results = Record.single primary (.number x) := by
  rw [combineNumbers] at h
  obtain ⟨xs, _, h⟩ := Outcome.bind_eq_ok_iff.1 h
  cases xs with
  | nil => cases h
  | cons first rest => exact ⟨_, (Option.some.inj (Except.ok.inj h)).symm⟩

/-- A vote has an entry under the primary name, be it the winner or a count. -/
theorem primary_mem_majorityVote {results : Outputs}
    (h : majorityVote primary members row = .ok (some results)) : primary ∈ results := by
  obtain ⟨winner, counts, rfl⟩ := exists_counts_of_majorityVote h
  -- The prediction goes in first, and the counts of the votes take no entry away.
  exact (Record.mem_foldl_insert fun _ _ => ⟨_, rfl⟩).2 (.inl (Record.mem_single_self _ _))

/-- What is computed from numbers is under the primary name. -/
theorem primary_mem_combineNumbers {combination : List (Float × Float) → Float}
    {results : Outputs} (h : combineNumbers primary combination members row = .ok (some results)) :
    primary ∈ results := by
  obtain ⟨x, rfl⟩ := exists_number_of_combineNumbers h
  exact Record.mem_single_self _ _

/-- The results of a combination have an entry under the primary name, or else the method
    hands on outputs, and no outputs with such an entry contribute. -/
theorem primary_mem_combine_iff {method : MultipleModelMethod} {target : Target}
    {results : Outputs} (h : combine method primary target members row = .ok (some results)) :
    primary ∈ results ↔
      (method.HandsOn → ∃ outputs, Contributes method members row outputs ∧ primary ∈ outputs) := by
  cases method with
  | selectFirst =>
    rw [imp_iff_right (.inl rfl)]
    simp only [contributes_selectFirst_iff h, exists_eq_left]
  | modelChain =>
    rw [imp_iff_right (.inr rfl), ← mem_chain_iff h]
    simp
  | majorityVote =>
    rw [combine] at h
    exact iff_of_true (primary_mem_majorityVote h) (by simp [MultipleModelMethod.HandsOn])
  | average | weightedAverage | sum =>
    rw [combine] at h
    exact iff_of_true (primary_mem_combineNumbers h) (by simp [MultipleModelMethod.HandsOn])
  | weightedMajorityVote | median | max | selectAll => cases h

/-- What is handed on is handed on from some member. -/
theorem exists_contributes {method : MultipleModelMethod} {target : Target} {results : Outputs}
    (hhands : method.HandsOn) (h : combine method primary target members row = .ok (some results)) :
    ∃ outputs, Contributes method members row outputs := by
  rcases hhands with rfl | rfl
  · exact ⟨results, (contributes_selectFirst_iff h).2 rfl⟩
  · exact exists_contributes_of_chain h

end Ensemble

/-! ### Models -/

/-- What a tree outputs is made of its prediction and the shares of its classes. -/
theorem TreeModel.exists_outputs_of_score {model : TreeModel} {row : Row} {outputs : Outputs}
    (h : model.score row = .ok (some outputs)) :
    ∃ node score predicted, model.prediction score = .ok predicted ∧
      outputs = (Output.fillPredicted model.output predicted
        (Record.ofList (model.classShares node))).insert model.primary predicted := by
  obtain ⟨node, score, predicted, _, _, hpredicted, rfl⟩ := score_eq_some_iff.1 h
  exact ⟨node, score, predicted, hpredicted, rfl⟩

/-- A tree has its prediction under its primary name. -/
theorem TreeModel.primary_mem_of_score {model : TreeModel} {row : Row} {outputs : Outputs}
    (h : model.score row = .ok (some outputs)) : model.primary ∈ outputs := by
  obtain ⟨node, score, predicted, _, rfl⟩ := exists_outputs_of_score h
  exact Record.mem_insert.2 (.inl rfl)

/-- What a regression model outputs is the report of a number, or of a class beside the
    scores of all classes. -/
theorem RegressionModel.exists_report_of_score {model : RegressionModel} {row : Row}
    {outputs : Outputs} (h : model.score row = .ok outputs) :
    (∃ x, outputs = model.report (.number x) ∅) ∨
      ∃ category scores, outputs = model.report (.text category) (model.classOutputs scores) := by
  cases hfunction : model.function with
  | regression =>
    obtain ⟨_, x, _, _, rfl⟩ := (score_eq_ok_iff_of_regression hfunction).1 h
    exact .inl ⟨x, rfl⟩
  | classification =>
    obtain ⟨_, _, _, rfl⟩ := (score_eq_ok_iff_of_classification hfunction).1 h
    exact .inr ⟨_, _, rfl⟩

/-- A regression model has its prediction under its primary name. -/
theorem RegressionModel.primary_mem_of_score {model : RegressionModel} {row : Row}
    {outputs : Outputs} (h : model.score row = .ok outputs) : model.primary ∈ outputs := by
  rcases exists_report_of_score h with ⟨_, rfl⟩ | ⟨_, _, rfl⟩ <;>
    exact Record.mem_insert.2 (.inl rfl)

/-- The outputs of a regression model are those of its score, as it never abstains. -/
theorem RegressionModel.score_of_score_model {model : RegressionModel} {row : Row}
    {outputs : Outputs} (h : (Model.regression model).score row = .ok (some outputs)) :
    model.score (model.schema.replaceMissing row) = .ok outputs := by
  obtain ⟨held, hscore, hheld⟩ := Outcome.map_eq_ok_iff.1 (Outcome.inModel_eq_ok_iff.1 h)
  obtain rfl := Option.some.inj hheld
  exact hscore

/-- The outputs of an ensemble are the results of its combination, as its output fields
    report them. -/
theorem MiningModel.exists_results_of_score {model : MiningModel} {row : Row} {outputs : Outputs}
    (h : model.score row = .ok (some outputs)) :
    ∃ seen results, DerivedField.apply model.derivedFields row = .ok seen ∧
      model.combine seen = .ok (some results) ∧
      outputs = Output.finish model.output model.primary results := by
  rw [score_eq] at h
  obtain ⟨seen, hseen, h⟩ := Outcome.bind_eq_ok_iff.1 h
  obtain ⟨combined, hcombine, h⟩ := Outcome.bind_eq_ok_iff.1 h
  -- Without results there is nothing to report.
  cases combined with
  | none => cases h
  | some results => exact ⟨seen, results, hseen, hcombine, (Option.some.inj (Except.ok.inj h)).symm⟩

/-- A segment that outputs something does so because its model does. -/
theorem Segment.score_model_of_score {segment : Segment} {row : Row} {outputs : Outputs}
    (h : segment.score row = .ok (some outputs)) :
    segment.model.score row = .ok (some outputs) := by
  rw [score_eq, Outcome.within_eq_ok_iff] at h
  obtain ⟨answer, _, h⟩ := Outcome.bind_eq_ok_iff.1 h
  cases answer with
  | yes => exact h
  | no => cases h
  | unknown => cases h

namespace Model

/-- The names of a model fit together. An ensemble that hands on outputs goes by the
    same name as each of its segments, whose names fit together in turn; and the output
    fields of an ensemble leave the entry under its primary name where it is. -/
inductive Aligned : Model → Prop
  | tree (model : TreeModel) : Aligned (.tree model)
  | regression (model : RegressionModel) : Aligned (.regression model)
  | mining {model : MiningModel} :
      Output.renamed model.output model.primary = model.primary →
      (model.method.HandsOn → ∀ segment ∈ model.segments,
        segment.model.primary = model.primary) →
      (model.method.HandsOn → ∀ segment ∈ model.segments, Aligned segment.model) →
      Aligned (.mining model)

variable {row : Row} {outputs : Outputs}

/-- Where the names fit together, the outputs have an entry under the primary name. -/
theorem Aligned.primary_mem {model : Model} (haligned : model.Aligned)
    (h : model.score row = .ok (some outputs)) : model.primary ∈ outputs := by
  induction haligned generalizing row outputs with
  | tree model => exact TreeModel.primary_mem_of_score (Outcome.inModel_eq_ok_iff.1 h)
  | regression model =>
    exact RegressionModel.primary_mem_of_score (RegressionModel.score_of_score_model h)
  | @mining model hrenamed hprimary _ ih =>
    obtain ⟨seen, results, _, hcombine, rfl⟩ :=
      MiningModel.exists_results_of_score (Outcome.inModel_eq_ok_iff.1 h)
    refine Output.mem_finish_primary_iff.2 (.inl ⟨model.primary, ?_, hrenamed⟩)
    refine (Ensemble.primary_mem_combine_iff hcombine).2 fun hhands => ?_
    -- What any segment contributes has the entry, as its names fit together.
    obtain ⟨contributed, hcontributes⟩ := Ensemble.exists_contributes hhands hcombine
    obtain ⟨member, hmem, later, hscore⟩ := hcontributes.exists_member
    obtain ⟨segment, hsegment, rfl⟩ := List.mem_map.1 hmem
    refine ⟨contributed, hcontributes, ?_⟩
    rw [← hprimary hhands segment hsegment]
    exact ih hhands segment hsegment (Segment.score_model_of_score hscore)

/-- What it takes for outputs to have an entry under the primary name. The results of an
    ensemble have it unless the ensemble hands on outputs none of which has it; its
    outputs have it if the output fields report the name. Where the names of a model fit
    together, as they do in trees and regression models, there is always an entry. -/
theorem primary_mem_outputs {model : Model} (h : model.score row = .ok (some outputs)) :
    (∀ ensemble, model = .mining ensemble → ∃ seen results,
      DerivedField.apply ensemble.derivedFields (ensemble.schema.replaceMissing row) = .ok seen ∧
      ensemble.combine seen = .ok (some results) ∧
      (ensemble.primary ∈ results ↔ (ensemble.method.HandsOn → ∃ contributed,
        Ensemble.Contributes ensemble.method (ensemble.segments.map (·.member)) seen contributed ∧
          ensemble.primary ∈ contributed)) ∧
      (ensemble.primary ∈ outputs ↔
        Output.Reports ensemble.output results ensemble.primary)) ∧
    (model.Aligned → model.primary ∈ outputs) := by
  refine ⟨?_, fun haligned => haligned.primary_mem h⟩
  rintro ensemble rfl
  obtain ⟨seen, results, hseen, hcombine, rfl⟩ :=
    MiningModel.exists_results_of_score (Outcome.inModel_eq_ok_iff.1 h)
  exact ⟨seen, results, hseen, hcombine, Ensemble.primary_mem_combine_iff hcombine,
    Output.mem_finish_primary_iff⟩

/-- A selection between two trees. The first, whose target is `y`, never scores. -/
def selection (target : String) : Model :=
  .mining (.plain .selectFirst
    [.guarded .never (.tree (.constant "y" "a")), .guarded .always (.tree (.constant target "a"))])

/-- The selection outputs what its second tree does, under the target of that tree. -/
theorem score_selection (target : String) (row : Row) :
    (selection target).score row = .ok (some (Record.single target (.text "a"))) := by
  rw [selection, MiningModel.score_plain]
  change Ensemble.selectFirst row [Segment.member _, Segment.member _] = _
  simp only [Ensemble.selectFirst, Segment.member, Segment.score_guarded_never, Outcome.ok_bind,
    Segment.score_guarded_always, TreeModel.score_constant, Outcome.within_ok]

/-- Both trees of the selection have the target `y`, if the second one has. -/
theorem aligned_selection : (selection "y").Aligned := by
  refine .mining rfl (fun _ => ?_) fun _ => ?_
  · exact List.forall_mem_cons.2 ⟨rfl, List.forall_mem_singleton.2 rfl⟩
  · exact List.forall_mem_cons.2 ⟨.tree _, List.forall_mem_singleton.2 (.tree _)⟩

/-- The selected tree has the target of the ensemble, so the ensemble has its entry. -/
theorem primary_mem_outputs_selection :
    (selection "y").score ∅ = .ok (some (Record.single "y" (.text "a"))) ∧
      (selection "y").primary ∈ Record.single "y" (Value.text "a") :=
  ⟨score_selection "y" ∅, (primary_mem_outputs (score_selection "y" ∅)).2 aligned_selection⟩

/-- The selected tree has another target, and so there is no entry. -/
theorem exists_primary_not_mem_outputs :
    ¬ ∀ (model : Model) (row : Row) (outputs : Outputs),
      model.score row = .ok (some outputs) → model.primary ∈ outputs := fun h =>
  absurd (h (selection "z") ∅ _ (score_selection "z" ∅)) (by decide)

end Model

end Scoring
