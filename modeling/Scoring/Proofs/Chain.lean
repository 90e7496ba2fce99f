import Scoring.Proofs.Primary
import Scoring.Proofs.Turns

/-!
# Chains

A chain feeds forward: what its members output so far overrides the row that it was given,
and the next member is scored for that (`Ensemble.turns_chain_iff`). So a chain can be cut
anywhere. The second part is a chain of its own, for the row overridden by the outputs of
the first part, and what both parts output is merged (`Ensemble.chain_append`).

A chain gathers entries, and outputs nothing if it has gathered none. This comes to the same
as that all its members abstain (`Ensemble.chain_eq_none_iff`), provided that no member has
outputs without entries; and no model has (`Model.outputs_ne_empty`).
-/

namespace Scoring

/-! ### Outputs without entries -/

/-- Finishing moves outputs to other names, and takes none away altogether. -/
theorem Output.finish_ne_empty {output : Option Output} {primary : String} {results : Outputs}
    (h : results ≠ ∅) : finish output primary results ≠ ∅ := by
  obtain ⟨key, hkey⟩ := Record.ne_empty_iff.1 h
  exact Record.ne_empty_iff.2
    ⟨renamed output key, mem_finish_iff.2 (.inl (.inl ⟨key, hkey, rfl⟩))⟩

/-- What is combined has entries, if what the members output has; a chain sees to this by
    itself. -/
theorem Ensemble.ne_empty_of_combine {method : MultipleModelMethod} {primary : String}
    {target : Target} {members : List Member} {row : Row} {results : Outputs}
    (h : combine method primary target members row = .ok (some results))
    (hmembers : ∀ member ∈ members, ∀ seen, member.score seen ≠ .ok (some ∅)) :
    results ≠ ∅ := by
  -- Outputs that are handed on are those of members; otherwise there is a primary one.
  by_cases hhands : method.HandsOn
  · rintro rfl
    rcases hhands with rfl | rfl
    · obtain ⟨member, hmem, seen, hscore⟩ :=
        ((contributes_selectFirst_iff h).2 rfl).exists_member
      exact hmembers member hmem seen hscore
    · exact chain_ne_empty h
  · exact Record.ne_empty_iff.2
      ⟨primary, (primary_mem_combine_iff h).2 fun hhands' => absurd hhands' hhands⟩

/-- A model that predicts anything outputs something. -/
theorem Model.outputs_ne_empty {model : Model} {row : Row} {outputs : Outputs}
    (h : model.score row = .ok (some outputs)) : outputs ≠ ∅ := by
  induction model using Model.induction generalizing row outputs with
  -- A tree or a regression model outputs its prediction under the primary name.
  | tree model =>
    exact Record.ne_empty_iff.2 ⟨_, TreeModel.primary_mem_of_score (Outcome.inModel_eq_ok_iff.1 h)⟩
  | regression model =>
    have hscore := RegressionModel.score_of_score_model h
    exact Record.ne_empty_iff.2 ⟨_, RegressionModel.primary_mem_of_score hscore⟩
  | mining model ih =>
    obtain ⟨seen, results, _, hcombine, rfl⟩ :=
      MiningModel.exists_results_of_score (Outcome.inModel_eq_ok_iff.1 h)
    refine Output.finish_ne_empty (Ensemble.ne_empty_of_combine hcombine ?_)
    intro member hmem seen hscore
    obtain ⟨segment, hsegment, rfl⟩ := List.mem_map.1 hmem
    exact ih segment hsegment (Segment.score_model_of_score hscore) rfl

/-- A segment outputs what its model does, and so something if anything. -/
theorem Segment.score_ne_empty (segment : Segment) (row : Row) :
    segment.member.score row ≠ .ok (some ∅) :=
  fun hscore => Model.outputs_ne_empty (score_model_of_score hscore) rfl

/-! ### Parts of a chain -/

namespace Ensemble

open Relation

variable {members xs ys : List Member} {row seen : Row}

/-- What is gathered is unchanged by the test for entries, in a chain that ends or goes on. -/
theorem map_unlessEmpty_chain :
    (fun held => (held.getD ∅).unlessEmpty) <$> chain members row = chain members row := by
  rw [chain, Functor.map_map]
  exact congrArg (· <$> _) (funext fun gathered =>
    congrArg Record.unlessEmpty (Record.getD_unlessEmpty gathered))

/-- A chain of two parts is a chain of the first, and then one of the second for the row with
    what the first outputs. What both output is merged. -/
theorem chain_append (xs ys : List Member) (row : Row) : chain (xs ++ ys) row = (do
    let earlier ← chain xs row
    let later ← chain ys (row.merge (earlier.getD ∅))
    .ok ((earlier.getD ∅).merge (later.getD ∅)).unlessEmpty) := by
  induction xs generalizing row with
  | nil =>
    -- Nothing comes before, and what the second part outputs has already been tested for
    -- entries.
    change chain ys row = (do
      let later ← chain ys row
      .ok ((∅ : Outputs).merge (later.getD ∅)).unlessEmpty)
    refine map_unlessEmpty_chain.symm.trans ?_
    rcases chain ys row with _ | later
    · rfl
    · rw [Outcome.map_ok, Outcome.ok_bind, Record.empty_merge]
  | cons member xs ih =>
    rw [List.cons_append, chain_cons, chain_cons, bind_assoc]
    refine bind_congr fun outputs => ?_
    rw [ih, bind_assoc, bind_assoc]
    refine bind_congr fun earlier => ?_
    -- The row for the second part has the outputs of the member and of the rest of the first.
    rw [Outcome.ok_bind, Record.getD_unlessEmpty, ← Record.merge_assoc, bind_assoc]
    refine bind_congr fun later => ?_
    rw [Outcome.ok_bind, Record.getD_unlessEmpty, Record.merge_assoc]

/-- Coming to its second part, a chain has the row overridden by the outputs of the first. -/
theorem turns_chain_iff : Turns .modelChain (xs ++ ys, row) (ys, seen) ↔
    ∃ earlier, chain xs row = .ok earlier ∧ seen = row.merge (earlier.getD ∅) := by
  induction xs generalizing row with
  | nil => simp [turns_self_iff, chain, gather]
  | cons member xs ih =>
    -- The second part is shorter, so that its turn has not come at the first member.
    have hne : ys ≠ member :: (xs ++ ys) := fun h => by
      have hlength := congrArg List.length h
      simp at hlength
      omega
    rw [List.cons_append, turns_cons_iff hne, chain_cons, turn]
    rcases member.score row with _ | outputs
    · simp
    · simp only [Outcome.map_ok, Except.ok.injEq, Option.some.injEq, exists_eq_left', ih,
        Outcome.ok_bind, Outcome.bind_eq_ok_iff]
      constructor
      · rintro ⟨later, hlater, rfl⟩
        exact ⟨_, ⟨later, hlater, rfl⟩, by rw [Record.getD_unlessEmpty, Record.merge_assoc]⟩
      · rintro ⟨_, ⟨later, hlater, rfl⟩, rfl⟩
        exact ⟨later, hlater, by rw [Record.getD_unlessEmpty, Record.merge_assoc]⟩

/-- A chain outputs nothing if and only if each member abstains from the row that it is
    given, where no member has outputs without entries. -/
theorem chain_eq_none_iff
    (hmembers : ∀ member ∈ members, ∀ seen, member.score seen ≠ .ok (some ∅)) :
    chain members row = .ok none ↔ ∀ member rest seen,
      Turns .modelChain (members, row) (member :: rest, seen) → member.score seen = .ok none := by
  induction members generalizing row with
  | nil =>
    refine iff_of_true rfl fun member rest seen h => ?_
    obtain ⟨before, hbefore⟩ := h.exists_append
    cases before <;> cases hbefore
  | cons first members ih =>
    obtain ⟨hspeaks, hmembers⟩ := List.forall_mem_cons.1 hmembers
    rw [chain_cons]
    constructor
    · intro h
      obtain ⟨outputs, hfirst, h⟩ := Outcome.bind_eq_ok_iff.1 h
      obtain ⟨later, hlater, h⟩ := Outcome.bind_eq_ok_iff.1 h
      -- Nothing has been gathered, and so neither the first member nor the others have outputs.
      obtain ⟨hown, hrest⟩ :=
        Record.merge_eq_empty_iff.1 (Record.unlessEmpty_eq_none_iff.1 (Except.ok.inj h))
      have houtputs : outputs = none :=
        (Record.unlessEmpty_getD fun hempty => hspeaks row (hempty ▸ hfirst)).symm.trans
          (Record.unlessEmpty_eq_none_iff.2 hown)
      have hheld : later = none :=
        (Record.unlessEmpty_getD fun hempty => chain_ne_empty (hempty ▸ hlater)).symm.trans
          (Record.unlessEmpty_eq_none_iff.2 hrest)
      subst houtputs hheld
      intro member rest seen hturns
      rcases ReflTransGen.cases_head hturns with heq | ⟨_, ⟨hturn⟩, hturns⟩
      · cases heq
        exact hfirst
      · rw [turn, hfirst] at hturn
        cases hturn
        exact (ih hmembers).1 hlater member rest seen hturns
    · intro h
      -- The first member abstains, and leaves the row to the others as it is.
      have hfirst := h first members row .refl
      have hturn : turn .modelChain row first = .ok (some row) := by
        rw [turn, hfirst]
        rfl
      have hlater := (ih hmembers).2 fun member rest seen hturns =>
        h member rest seen (.head (.taken hturn) hturns)
      rw [hfirst, Outcome.ok_bind, Option.getD_none, Record.merge_empty, hlater]
      rfl

end Ensemble

/-! ### Chains of segments -/

namespace Segment

variable {segments : List Segment} {row : Row}

/-- The outputs of all segments, each scored for the row with the outputs of those before. -/
def chain (segments : List Segment) (row : Row) : Outcome (Option Outputs) :=
  Ensemble.chain (segments.map (·.member)) row

/-- Starting from a row, a chain comes from some segments to the ones after them, and then
    has the row `seen`. -/
def ChainsTo (row : Row) (before after : List Segment) (seen : Row) : Prop :=
  Ensemble.Turns .modelChain ((before ++ after).map (·.member), row) (after.map (·.member), seen)

/-- A chain of segments outputs nothing if and only if each of them abstains from its row. -/
theorem chain_eq_none_iff : chain segments row = .ok none ↔ ∀ before segment after seen,
    segments = before ++ segment :: after → ChainsTo row before (segment :: after) seen →
      segment.score seen = .ok none := by
  have hmembers : ∀ member ∈ segments.map (·.member), ∀ seen,
      member.score seen ≠ .ok (some ∅) := by
    intro member hmem seen
    obtain ⟨segment, _, rfl⟩ := List.mem_map.1 hmem
    exact segment.score_ne_empty seen
  rw [chain, Ensemble.chain_eq_none_iff hmembers]
  constructor
  · rintro h before segment after seen rfl hturns
    exact h _ _ _ hturns
  · intro h member rest seen hturns
    obtain ⟨before, segment, after, rfl, rfl, rfl⟩ := exists_of_turns hturns
    exact h before segment after seen rfl hturns

/-- A chain of two parts fails as the first part does, or else as the second does for the
    row with the outputs `earlier` of the first, and if neither fails, what the second part
    outputs overrides what the first does. The second part has exactly this row, so that
    each segment sees the row of the caller overridden by the outputs of all before it. The
    chain has no outputs if and only if every segment abstains from the row that it has. -/
theorem chain_append_eq_merge (xs ys : List Segment) (row : Row) :
    (chain (xs ++ ys) row = do
      let earlier ← chain xs row
      let later ← chain ys (row.merge (earlier.getD ∅))
      .ok ((earlier.getD ∅).merge (later.getD ∅)).unlessEmpty) ∧
    (∀ seen, ChainsTo row xs ys seen ↔
      ∃ earlier, chain xs row = .ok earlier ∧ seen = row.merge (earlier.getD ∅)) ∧
    (chain (xs ++ ys) row = .ok none ↔ ∀ before segment after seen,
      xs ++ ys = before ++ segment :: after → ChainsTo row before (segment :: after) seen →
        segment.score seen = .ok none) := by
  refine ⟨?_, fun seen => ?_, chain_eq_none_iff⟩
  · rw [chain, List.map_append]
    exact Ensemble.chain_append _ _ row
  · rw [ChainsTo, List.map_append]
    exact Ensemble.turns_chain_iff

end Segment

end Scoring
