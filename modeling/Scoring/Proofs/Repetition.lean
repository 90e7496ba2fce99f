import Scoring.Proofs.Shares

/-!
# Repeated predictions

The output fields that repeat a prediction are filled one after the other
(`Output.fillPredicted_append`). When its turn comes, a field

* repeats the prediction, if it has no target;
* repeats what the outputs hold under its target, if they hold something there.

The outputs hold something under a target if they did at first, or if a field that repeats a
prediction has this name and had its turn before. A field whose target is not there should have
nothing to repeat, and be left as it was. It repeats the prediction instead
(`Output.exists_filled_without_target`).

What is under no name of such a field is not touched, and each turn touches one name only
(`Output.fillPredicted_turns`).
-/

namespace Scoring

/-! ### One field -/

namespace OutputField

variable {outputs : Outputs} {predicted : Value} {field : OutputField} {target : String}

/-- A field has its target under its name, or the prediction if it has none there. -/
theorem get?_fill_self : (field.fill predicted outputs).get? field.name =
    some ((field.targetField.bind outputs.get?).getD predicted) := by
  rw [fill, Record.get?_insert, if_pos rfl]

/-- A field without a target has the prediction. -/
theorem get?_fill_of_untargeted (htarget : field.targetField = none) :
    (field.fill predicted outputs).get? field.name = some predicted := by
  rw [get?_fill_self, htarget]
  rfl

/-- A field has its target, if that is there. -/
theorem get?_fill_of_mem (htarget : field.targetField = some target) (hmem : target ∈ outputs) :
    (field.fill predicted outputs).get? field.name = outputs.get? target := by
  obtain ⟨v, hv⟩ := Record.mem_iff_exists.1 hmem
  rw [get?_fill_self, htarget, Option.bind_some, hv]
  rfl

/-- A field whose target is not there has the prediction. -/
theorem get?_fill_of_not_mem (htarget : field.targetField = some target)
    (hmem : target ∉ outputs) :
    (field.fill predicted outputs).get? field.name = some predicted := by
  rw [get?_fill_self, htarget, Option.bind_some, Record.get?_eq_none_iff.2 hmem]
  rfl

/-- A field leaves the outputs as they are if what it puts under its name is there already. -/
theorem fill_eq_self_iff :
    field.fill predicted outputs = outputs ↔
      outputs.get? field.name = (field.fill predicted outputs).get? field.name := by
  constructor
  · intro h
    rw [h]
  · intro h
    ext1 k
    by_cases hk : field.name = k
    · rw [← hk, h]
    · exact get?_fill_of_ne hk

/-- What the turn of a field makes of the outputs that it sees. -/
structure Turn (field : OutputField) (predicted : Value) (seen filled : Outputs) : Prop where
  /-- A field that does not repeat a prediction has no turn. -/
  unasked : field.isPredicted = false → filled = seen
  /-- Other names are left alone. -/
  frame : ∀ k, k ≠ field.name → filled.get? k = seen.get? k
  /-- Without a target, the prediction is repeated. -/
  untargeted : field.isPredicted → field.targetField = none →
    filled.get? field.name = some predicted
  /-- A target that is there is repeated. -/
  present : field.isPredicted → ∀ target ∈ field.targetField, target ∈ seen →
    filled.get? field.name = seen.get? target
  /-- In place of a target that is not there, the prediction is repeated. So the field is left
      as it was only if it held the prediction already. -/
  absent : field.isPredicted → ∀ target ∈ field.targetField, target ∉ seen →
    filled.get? field.name = some predicted ∧
      (filled = seen ↔ seen.get? field.name = some predicted)

end OutputField

/-! ### All fields -/

namespace Output

open OutputField

/-- Fields are filled in their order. -/
theorem fillPredicted_append (before after : List OutputField) (predicted : Value)
    (outputs : Outputs) :
    fillPredicted (some ⟨before ++ after⟩) predicted outputs =
      fillPredicted (some ⟨after⟩) predicted
        (fillPredicted (some ⟨before⟩) predicted outputs) := by
  simp only [fillPredicted, predictedFields, List.filter_append, List.foldl_append]

/-- Filling a single field is its turn. -/
theorem turn_fillPredicted (field : OutputField) (predicted : Value) (seen : Outputs) :
    field.Turn predicted seen (fillPredicted (some ⟨[field]⟩) predicted seen) := by
  cases hpredicted : field.isPredicted with
  -- The field is not among those that are filled.
  | false =>
    have hfilled : fillPredicted (some ⟨[field]⟩) predicted seen = seen := by
      rw [fillPredicted, predictedFields, List.filter_cons_of_neg (by simp [hpredicted])]
      rfl
    rw [hfilled]
    exact ⟨fun _ => rfl, fun _ _ => rfl, by simp [hpredicted], by simp [hpredicted],
      by simp [hpredicted]⟩
  | true =>
    have hfilled : fillPredicted (some ⟨[field]⟩) predicted seen = field.fill predicted seen := by
      rw [fillPredicted, predictedFields, List.filter_cons_of_pos hpredicted]
      rfl
    rw [hfilled]
    refine ⟨by simp [hpredicted], fun k hk => get?_fill_of_ne hk.symm,
      fun _ htarget => get?_fill_of_untargeted htarget,
      fun _ target htarget hmem => get?_fill_of_mem htarget hmem,
      fun _ target htarget hmem => ⟨get?_fill_of_not_mem htarget hmem, ?_⟩⟩
    rw [fill_eq_self_iff, get?_fill_of_not_mem htarget hmem]

/-- Only the names of fields that repeat a prediction are touched. Each of these has its turn in
    the outputs that the fields before have left, in which it sees what was there at first and
    the names of fields that had their turns. -/
theorem fillPredicted_turns (output : Option Output) (predicted : Value) (outputs : Outputs) :
    (∀ k, k ∉ predictedNames output →
      (fillPredicted output predicted outputs).get? k = outputs.get? k) ∧
    ∀ before field after, output = some ⟨before ++ field :: after⟩ → ∃ seen filled,
      seen = fillPredicted (some ⟨before⟩) predicted outputs ∧
      (∀ k, k ∈ seen ↔ k ∈ outputs ∨ k ∈ predictedNames (some ⟨before⟩)) ∧
      field.Turn predicted seen filled ∧
      fillPredicted output predicted outputs = fillPredicted (some ⟨after⟩) predicted filled := by
  refine ⟨fun k hk => get?_fillPredicted_of_not_mem hk, ?_⟩
  rintro before field after rfl
  refine ⟨_, _, rfl, fun k => mem_fillPredicted_iff, turn_fillPredicted field predicted _, ?_⟩
  -- The fields before it, the field itself, and those after it.
  rw [fillPredicted_append, ← List.singleton_append, fillPredicted_append]

/-- A field whose target is not there is not left as it was. -/
theorem exists_filled_without_target :
    ¬ ∀ (field : OutputField) (predicted : Value) (outputs : Outputs), field.isPredicted →
      (∃ target ∈ field.targetField, target ∉ outputs) →
      (fillPredicted (some ⟨[field]⟩) predicted outputs).get? field.name =
        outputs.get? field.name := by
  intro hall
  have h := hall ⟨"Out", none, none, .predictedValue, none, some "other", none⟩ (.number 1) ∅ rfl
    ⟨"other", rfl, by decide⟩
  cases h

end Output

end Scoring
