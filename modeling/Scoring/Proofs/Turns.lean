import Mathlib.Logic.Relation
import Scoring.Proofs.Outcome
import Scoring.Proofs.Record

/-!
# The turns of an ensemble

The members of an ensemble take turns, in their order, and what the turn of a member
comes to (`Ensemble.turn`) says how a combination goes on:

* with the members after it, for a row; in a chain the row then has the outputs of the
  member, and otherwise it stays as it was;
* not at all, if a prediction is selected;
* in a failure, if the member fails, or has no number where numbers are added.

Turn by turn, a combination comes to members that are left and a row that they are asked
for (`Ensemble.Turns`). It fails if and only if it comes to a member whose turn fails, and
fails as that turn does (`Ensemble.combine_eq_error_iff`).
-/

namespace Scoring

open Relation

namespace MultipleModelMethod

/-- There is a combination by the method. -/
def isSupported : MultipleModelMethod → Bool
  | selectFirst | majorityVote | average | weightedAverage | sum | modelChain => true
  | weightedMajorityVote | median | max | selectAll => false

/-- The method adds up the numbers that are predicted. -/
def isSum : MultipleModelMethod → Bool
  | average | weightedAverage | sum => true
  | _ => false

end MultipleModelMethod

namespace Ensemble

/-- What the turn of a member comes to: the row for the members after it, if these have
    their turns as well. -/
def turn (method : MultipleModelMethod) (row : Row) (member : Member) : Outcome (Option Row) :=
  match method with
  | .selectFirst => (fun outputs => if outputs.isSome then none else some row) <$> member.score row
  | .modelChain => (fun outputs => some (row.merge (outputs.getD ∅))) <$> member.score row
  | .average | .weightedAverage | .sum => (fun _ => some row) <$> number? row member
  | .majorityVote | .weightedMajorityVote | .median | .max | .selectAll =>
    (fun _ => some row) <$> member.score row

/-- A turn is taken: the members after the first are left, with the row for them. -/
inductive Turn (method : MultipleModelMethod) : List Member × Row → List Member × Row → Prop
  | taken {member : Member} {members : List Member} {row next : Row} :
      turn method row member = .ok (some next) →
      Turn method (member :: members, row) (members, next)

/-- A combination comes from some members and a row to those that are left after some
    turns, and the row for these. -/
abbrev Turns (method : MultipleModelMethod) : List Member × Row → List Member × Row → Prop :=
  ReflTransGen (Turn method)

variable {method : MultipleModelMethod} {primary : String} {target : Target}
  {member : Member} {members rest : List Member} {row seen : Row} {e : Failure}

/-- Members that have had their turns are before those that are left. -/
theorem Turns.exists_append {start stop : List Member × Row} (h : Turns method start stop) :
    ∃ before, start.1 = before ++ stop.1 := by
  induction h using ReflTransGen.head_induction_on with
  | refl => exact ⟨[], rfl⟩
  | head hturn _ ih =>
    obtain ⟨before, hbefore⟩ := ih
    obtain ⟨_⟩ := hturn
    exact ⟨_ :: before, congrArg (_ :: ·) hbefore⟩

/-- The members come to later ones in the turn of the first. -/
theorem turns_cons_iff {stop : List Member × Row} (hne : stop.1 ≠ member :: members) :
    Turns method (member :: members, row) stop ↔
      ∃ next, turn method row member = .ok (some next) ∧ Turns method (members, next) stop := by
  constructor
  · intro h
    rcases ReflTransGen.cases_head h with rfl | ⟨_, ⟨hturn⟩, h⟩
    · exact absurd rfl hne
    · exact ⟨_, hturn, h⟩
  · rintro ⟨next, hturn, h⟩
    exact .head (.taken hturn) h

/-- Every turn leaves fewer members, so all of them are left only before the first. -/
theorem turns_self_iff : Turns method (members, row) (members, seen) ↔ seen = row := by
  constructor
  · intro h
    rcases ReflTransGen.cases_head h with heq | ⟨_, ⟨_⟩, h⟩
    · exact (Prod.mk.inj heq).2.symm
    · obtain ⟨before, hbefore⟩ := Turns.exists_append h
      have hlength := congrArg List.length hbefore
      simp at hlength
      omega
  · rintro rfl
    exact .refl

/-! ### Gathering -/

/-- A member that abstains is one with no entries to put in. -/
theorem gather_cons (gathered : Outputs) : gather gathered (member :: members) row = (do
    let outputs ← member.score row
    gather (gathered.merge (outputs.getD ∅)) members (row.merge (outputs.getD ∅))) := by
  rw [gather]
  -- Merging with nothing is doing nothing.
  rcases member.score row with _ | _ | outputs <;> rfl

/-- What has been gathered before is overridden by what the members output, and has no
    part in that. -/
theorem gather_eq (gathered : Outputs) :
    gather gathered members row = gathered.merge <$> gather ∅ members row := by
  induction members generalizing gathered row with
  | nil => rfl
  | cons member members ih =>
    rw [gather_cons, gather_cons, map_bind]
    refine bind_congr fun outputs => ?_
    -- Both sides start from the row with the outputs of the member, but from other entries.
    rw [ih (gathered.merge (outputs.getD ∅)), Record.empty_merge, ih (outputs.getD ∅),
      Functor.map_map]
    exact congrArg (· <$> _) (funext fun later => Record.merge_assoc _ _ _)

/-- No chain has outputs without entries. -/
theorem chain_ne_empty : chain members row ≠ .ok (some ∅) := fun h => by
  obtain ⟨gathered, _, h⟩ := Outcome.map_eq_ok_iff.1 h
  exact (Record.unlessEmpty_eq_some_iff.1 h).2 rfl

/-- A chain of a member and others: the outputs of the member, overridden by those of the
    others for the row with these outputs. -/
theorem chain_cons : chain (member :: members) row = (do
    let outputs ← member.score row
    let later ← chain members (row.merge (outputs.getD ∅))
    .ok ((outputs.getD ∅).merge (later.getD ∅)).unlessEmpty) := by
  rw [chain, gather_cons, map_bind]
  refine bind_congr fun outputs => ?_
  rw [Record.empty_merge, gather_eq, chain, Functor.map_map]
  rcases gather ∅ members (row.merge (outputs.getD ∅)) with _ | later
  · rfl
  · simp only [Outcome.map_ok, Outcome.ok_bind, Record.getD_unlessEmpty]

/-! ### Failing turns -/

theorem majorityVote_eq_error_iff :
    majorityVote primary members row = .error e ↔ ballots row members = .error e := by
  rw [majorityVote, Outcome.bind_eq_error_iff]
  refine or_iff_left ?_
  rintro ⟨votes, _, h⟩
  split at h <;> cases h

theorem combineNumbers_eq_error_iff {combination : List (Float × Float) → Float} :
    combineNumbers primary combination members row = .error e ↔
      numbers row members = .error e := by
  rw [combineNumbers, Outcome.bind_eq_error_iff]
  refine or_iff_left ?_
  rintro ⟨_ | _, _, h⟩ <;> cases h

/-- The methods that are not supported fail before any turn. -/
theorem combine_of_not_isSupported (hmethod : method.isSupported = false) :
    combine method primary target members row = .fail (.unsupportedMethod method) := by
  cases method with
  | weightedMajorityVote | median | max | selectAll => rfl
  | _ => cases hmethod

theorem combine_nil (hmethod : method.isSupported) :
    combine method primary target [] row = .ok none := by
  cases method with
  | weightedMajorityVote | median | max | selectAll => cases hmethod
  | _ => rfl

/-- A combination fails in its first turn or later. -/
theorem combine_cons_eq_error_iff (hmethod : method.isSupported) :
    combine method primary target (member :: members) row = .error e ↔
      turn method row member = .error e ∨
        ∃ next, turn method row member = .ok (some next) ∧
          combine method primary target members next = .error e := by
  cases method with
  | selectFirst =>
    rw [combine, selectFirst, turn]
    rcases member.score row with _ | _ | outputs <;> simp [combine]
  | modelChain =>
    rw [combine, chain_cons, turn]
    rcases member.score row with _ | outputs <;> simp [combine, Outcome.bind_eq_error_iff]
  | majorityVote =>
    rw [combine, majorityVote_eq_error_iff, ballots, vote?, turn]
    -- A member that votes, like one that abstains, leaves the row to the next as it is.
    rcases member.score row with _ | _ | outputs
    · simp
    · simp [combine, majorityVote_eq_error_iff]
    · simp only [Outcome.ok_bind]
      split <;> simp [combine, majorityVote_eq_error_iff]
  | average | weightedAverage | sum =>
    rw [combine, combineNumbers_eq_error_iff, numbers, turn]
    rcases number? row member with _ | _ | x <;> simp [combine, combineNumbers_eq_error_iff]
  | _ => cases hmethod

/-- A failure that a combination comes to is a failure of the combination. -/
theorem combine_eq_error_of_turns (hmethod : method.isSupported) {start stop : List Member × Row}
    (hturns : Turns method start stop)
    (h : combine method primary target stop.1 stop.2 = .error e) :
    combine method primary target start.1 start.2 = .error e := by
  induction hturns using ReflTransGen.head_induction_on with
  | refl => exact h
  | head hturn _ ih =>
    obtain ⟨hturn⟩ := hturn
    exact (combine_cons_eq_error_iff hmethod).2 (.inr ⟨_, hturn, ih⟩)

/-- A combination by a supported method fails if and only if it comes to a member whose
    turn fails, and with the same failure. -/
theorem combine_eq_error_iff (hmethod : method.isSupported) :
    combine method primary target members row = .error e ↔
      ∃ member rest seen, Turns method (members, row) (member :: rest, seen) ∧
        turn method seen member = .error e := by
  constructor
  · intro h
    induction members generalizing row with
    | nil => cases (combine_nil hmethod).symm.trans h
    | cons member members ih =>
      rcases (combine_cons_eq_error_iff hmethod).1 h with h | ⟨next, hturn, h⟩
      · exact ⟨member, members, row, .refl, h⟩
      · -- The first turn is put before those that lead to the failing one.
        obtain ⟨later, rest, seen, hturns, h⟩ := ih h
        exact ⟨later, rest, seen, .head (.taken hturn) hturns, h⟩
  · rintro ⟨member, rest, seen, hturns, h⟩
    exact combine_eq_error_of_turns hmethod hturns ((combine_cons_eq_error_iff hmethod).2 (.inl h))

/-- The number of a member fails as the member does, or where its prediction is not a number. -/
theorem number?_eq_error_iff : number? row member = .error e ↔ member.score row = .error e ∨
    ∃ outputs, member.score row = .ok (some outputs) ∧ outputs.value member.primary ≠ .absent ∧
      Outcome.within (.segment member.label) (outputs.value member.primary).toNumber =
        .error e := by
  rw [number?]
  rcases member.score row with _ | _ | outputs
  · simp
  · simp
  · simp only [Outcome.ok_bind, reduceCtorEq, false_or, Except.ok.injEq, Option.some.injEq,
      exists_eq_left']
    split
    · rename_i habsent
      simp [habsent]
    · rename_i hne
      rw [Outcome.map_eq_error_iff, and_iff_right hne]

/-- A failing turn is that of a member which fails, or whose prediction is no number where
    numbers are added up. -/
theorem turn_eq_error_iff : turn method row member = .error e ↔
    member.score row = .error e ∨
      method.isSum ∧ ∃ outputs, member.score row = .ok (some outputs) ∧
        outputs.value member.primary ≠ .absent ∧
        Outcome.within (.segment member.label) (outputs.value member.primary).toNumber =
          .error e := by
  cases method with
  | average | weightedAverage | sum =>
    simp only [turn, Outcome.map_eq_error_iff, number?_eq_error_iff, MultipleModelMethod.isSum,
      true_and]
  | _ => simp [turn, MultipleModelMethod.isSum]

end Ensemble

/-- Where the members stand for segments, the members that are left do so too. -/
theorem Segment.exists_of_turns {method : MultipleModelMethod} {segments : List Segment}
    {member : Member} {rest : List Member} {row seen : Row}
    (h : Ensemble.Turns method (segments.map (·.member), row) (member :: rest, seen)) :
    ∃ before segment after, segments = before ++ segment :: after ∧
      segment.member = member ∧ after.map (·.member) = rest := by
  obtain ⟨before, hsplit⟩ := h.exists_append
  obtain ⟨before, left, hsegments, _, hleft⟩ := List.map_eq_append_iff.1 hsplit
  obtain ⟨segment, after, rfl, hmember, hrest⟩ := List.map_eq_cons_iff.1 hleft
  exact ⟨before, segment, after, hsegments, hmember, hrest⟩

end Scoring
