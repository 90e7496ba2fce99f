import Scoring.Proofs.Plain

/-!
# Selections

A selection asks segments in their order and ends with the first one that does not abstain. There
are three ways to abstain (`Segment.Abstains`): the guard does not hold, the guard is unknown, or
the guard holds and the model makes no prediction. A segment that fails does not abstain, so it ends
the selection as one with outputs does.

What is selected is therefore the outcome of one segment, which has only segments that abstain
before it (`Segment.select_eq_iff`). Nothing after it is asked, and so it does not matter what is
there (`MiningModel.combine_selectFirst`).
-/

namespace Scoring

namespace Segment

variable {segment : Segment} {segments before after : List Segment} {row : Row}

/-! ### Abstention -/

/-- The ways in which a segment abstains. -/
inductive Abstains (row : Row) (segment : Segment) : Prop
  | refused : Predicate.evalAll row segment.predicates = .ok .no → Abstains row segment
  | undecided : Predicate.evalAll row segment.predicates = .ok .unknown → Abstains row segment
  | noPrediction : Predicate.evalAll row segment.predicates = .ok .yes →
      segment.model.score row = .ok none → Abstains row segment

/-- A segment outputs nothing if and only if it abstains in one of the three ways. -/
theorem score_eq_none_iff : segment.score row = .ok none ↔ segment.Abstains row := by
  rw [score_eq, Outcome.within_eq_ok_iff, Outcome.bind_eq_ok_iff]
  constructor
  · rintro ⟨answer, hguard, h⟩
    cases answer with
    | yes => exact .noPrediction hguard h
    | no => exact .refused hguard
    | unknown => exact .undecided hguard
  · rintro (hguard | hguard | ⟨hguard, h⟩)
    · exact ⟨_, hguard, rfl⟩
    · exact ⟨_, hguard, rfl⟩
    · exact ⟨_, hguard, h⟩

/-! ### The first segment that does not abstain -/

/-- The outcome of the first segment that does not abstain. -/
def select (segments : List Segment) (row : Row) : Outcome (Option Outputs) :=
  Ensemble.selectFirst row (segments.map (·.member))

/-- The first segment is asked, and the others if it abstains. -/
theorem select_cons : select (segment :: segments) row = (do
    match ← segment.score row with
    | some outputs => .ok (some outputs)
    | none => select segments row) :=
  rfl

/-- A segment that abstains leaves the selection to the others. -/
theorem select_cons_of_abstains (h : segment.Abstains row) :
    select (segment :: segments) row = select segments row := by
  rw [select_cons, score_eq_none_iff.2 h, Outcome.ok_bind]

/-- A segment that does not abstain is selected, also if it fails. -/
theorem select_cons_of_not_abstains (h : ¬ segment.Abstains row) :
    select (segment :: segments) row = segment.score row := by
  rw [← score_eq_none_iff] at h
  rw [select_cons]
  rcases hscore : segment.score row with _ | _ | _
  · rfl
  · exact absurd hscore h
  · rfl

/-- Nothing is selected if and only if every segment abstains. -/
theorem select_eq_none_iff :
    select segments row = .ok none ↔ ∀ segment ∈ segments, segment.Abstains row := by
  induction segments with
  | nil => exact iff_of_true rfl nofun
  | cons first segments ih =>
    rw [List.forall_mem_cons]
    -- The first segment leaves it to the others, or its own outcome counts, which is not
    -- nothing.
    by_cases hfirst : first.Abstains row
    · rw [select_cons_of_abstains hfirst, ih, and_iff_right hfirst]
    · rw [select_cons_of_not_abstains hfirst, score_eq_none_iff]
      exact iff_of_false hfirst fun h => hfirst h.1

/-- An outcome that is selected is that of a segment which has only segments that abstain before
    it. -/
theorem select_eq_iff {result : Outcome (Option Outputs)} (hresult : result ≠ .ok none) :
    select segments row = result ↔ ∃ before segment after,
      segments = before ++ segment :: after ∧ (∀ passed ∈ before, passed.Abstains row) ∧
        segment.score row = result := by
  induction segments with
  | nil =>
    refine iff_of_false (fun h => hresult h.symm) ?_
    rintro ⟨before, segment, after, hsplit, _⟩
    cases before <;> cases hsplit
  | cons first segments ih =>
    by_cases hfirst : first.Abstains row
    · rw [select_cons_of_abstains hfirst, ih]
      constructor
      · rintro ⟨before, segment, after, rfl, hbefore, hscore⟩
        exact ⟨first :: before, segment, after, rfl, List.forall_mem_cons.2 ⟨hfirst, hbefore⟩,
          hscore⟩
      · rintro ⟨before, segment, after, hsplit, hbefore, hscore⟩
        cases before with
        | nil =>
          -- The first segment would be the one that is selected, and it abstains.
          obtain ⟨rfl, rfl⟩ := List.cons_eq_cons.1 hsplit
          exact absurd (hscore.symm.trans (score_eq_none_iff.2 hfirst)) hresult
        | cons _ before =>
          obtain ⟨rfl, rfl⟩ := List.cons_eq_cons.1 hsplit
          exact ⟨before, segment, after, rfl, (List.forall_mem_cons.1 hbefore).2, hscore⟩
    · rw [select_cons_of_not_abstains hfirst]
      constructor
      · -- No other segment is asked.
        exact fun h => ⟨[], first, segments, rfl, nofun, h⟩
      · rintro ⟨before, segment, after, hsplit, hbefore, hscore⟩
        cases before with
        | nil =>
          obtain ⟨rfl, rfl⟩ := List.cons_eq_cons.1 hsplit
          exact hscore
        | cons _ before =>
          obtain ⟨rfl, rfl⟩ := List.cons_eq_cons.1 hsplit
          exact absurd (hbefore first List.mem_cons_self) hfirst

/-- The selection ends with a segment that does not abstain, if it comes there at all. -/
theorem select_append_of_not_abstains (h : ¬ segment.Abstains row) (after' : List Segment) :
    select (before ++ segment :: after) row = select (before ++ segment :: after') row := by
  induction before with
  | nil =>
    rw [List.nil_append, List.nil_append, select_cons_of_not_abstains h,
      select_cons_of_not_abstains h]
  | cons first before ih =>
    rw [List.cons_append, List.cons_append]
    by_cases hfirst : first.Abstains row
    · rw [select_cons_of_abstains hfirst, select_cons_of_abstains hfirst, ih]
    · rw [select_cons_of_not_abstains hfirst, select_cons_of_not_abstains hfirst]

end Segment

/-! ### Ensembles that select -/

namespace MiningModel

/-- An ensemble that selects does so from its segments. -/
theorem combine_eq_select {model : MiningModel} (hmethod : model.method = .selectFirst)
    (row : Row) : model.combine row = Segment.select model.segments row := by
  rw [combine, hmethod]
  rfl

/-- A selection is the outcome of the first segment that does not abstain: its outputs if it has
    any, and its failure if it fails. There is nothing selected if and only if all segments abstain.
    Whatever comes after a segment that does not abstain can be replaced by any other segments, or
    left out, and the selection is the same. Segments have no outputs and do not fail if and only if
    their guard does not hold, or is unknown, or their model makes no prediction. -/
theorem combine_selectFirst {model : MiningModel} (hmethod : model.method = .selectFirst)
    (row : Row) :
    (∀ outputs, model.combine row = .ok (some outputs) ↔ ∃ before segment after,
      model.segments = before ++ segment :: after ∧ (∀ passed ∈ before, passed.Abstains row) ∧
        segment.score row = .ok (some outputs)) ∧
    (∀ e, model.combine row = .error e ↔ ∃ before segment after,
      model.segments = before ++ segment :: after ∧ (∀ passed ∈ before, passed.Abstains row) ∧
        segment.score row = .error e) ∧
    (model.combine row = .ok none ↔ ∀ segment ∈ model.segments, segment.Abstains row) ∧
    (∀ before segment after, model.segments = before ++ segment :: after →
      ¬ segment.Abstains row → ∀ after',
        { model with segments := before ++ segment :: after' }.combine row = model.combine row) ∧
    ∀ segment : Segment, segment.Abstains row ↔ segment.score row = .ok none := by
  rw [combine_eq_select hmethod]
  refine ⟨fun outputs => Segment.select_eq_iff nofun, fun e => Segment.select_eq_iff nofun,
    Segment.select_eq_none_iff, fun before segment after hsegments hsegment after' => ?_,
    fun segment => Segment.score_eq_none_iff.symm⟩
  rw [combine_eq_select (by exact hmethod), hsegments]
  exact Segment.select_append_of_not_abstains hsegment _

/-- One segment is refused, one has an unknown guard, and the model of one makes no prediction. The
    fourth is selected, and the last one, which would fail, is not asked. -/
theorem combine_selectFirst_fourth :
    let refused : Segment := .guarded .never (.tree (.constant "y" "a"))
    let undecided : Segment :=
      .guarded (.simple "size" .lessThan (some "2")) (.tree (.constant "y" "b"))
    let empty : Segment := .guarded .always (.mining (.plain .selectFirst []))
    let selected : Segment := .guarded .always (.tree (.constant "y" "c"))
    let failing : Segment := .guarded (.simple "size" .isIn none) (.tree (.constant "y" "d"))
    let model : MiningModel :=
      .plain .selectFirst [refused, undecided, empty, selected, failing]
    model.method = .selectFirst ∧
      model.combine ∅ = .ok (some (Record.single "y" (.text "c"))) ∧
      { model with segments := [refused, undecided, empty, selected] }.combine ∅ =
        model.combine ∅ := by
  intro refused undecided empty selected failing model
  have hscore : selected.score ∅ = .ok (some (Record.single "y" (.text "c"))) := by
    rw [Segment.score_guarded_always, TreeModel.score_constant]
    rfl
  have hpassed : ∀ passed ∈ [refused, undecided, empty], passed.Abstains ∅ := by
    simp only [List.forall_mem_cons]
    exact ⟨.refused rfl, .undecided rfl, .noPrediction rfl rfl, nofun⟩
  obtain ⟨houtputs, _, _, hafter, habstains⟩ :=
    combine_selectFirst (rfl : model.method = .selectFirst) ∅
  refine ⟨rfl, (houtputs _).2 ⟨_, selected, [failing], rfl, hpassed, hscore⟩, ?_⟩
  refine hafter [refused, undecided, empty] selected [failing] rfl ?_ []
  rw [habstains, hscore]
  exact nofun

end MiningModel

end Scoring
