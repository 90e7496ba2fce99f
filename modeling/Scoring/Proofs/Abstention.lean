import Scoring.Proofs.Plain
import Scoring.Proofs.Turns

/-!
# Abstention

A member that abstains in its turn is neutral: a combination goes on as if the member were
not there. This is shown once for whatever is computed turn by turn (`Ensemble.TurnByTurn`),
by induction on the members before the one that abstains, as the row for its turn is what
these have made of the first row. A selection, the ballots of a vote, the numbers of a sum
and a chain are computed in this way.

The one exception is an average, which is a total divided by the number of all members. The
total is still the same, but not the number (`MiningModel.combine_of_abstains`).
-/

namespace Scoring

namespace Ensemble

/-- What is computed from members is computed turn by turn. Where the first abstains, it is
    computed from the others; and of the others it matters only what is computed from them
    for the row that the turn of the first leaves to them, if they have their turns. -/
structure TurnByTurn {β : Type} (method : MultipleModelMethod)
    (gather : List Member → Row → Outcome β) : Prop where
  abstained {member : Member} {members : List Member} {row : Row} :
    member.score row = .ok none → gather (member :: members) row = gather members row
  congr {member : Member} {xs ys : List Member} {row : Row} :
    (∀ next, turn method row member = .ok (some next) → gather xs next = gather ys next) →
      gather (member :: xs) row = gather (member :: ys) row

/-- If a combination comes to the turn of a member, the member abstains from its row. -/
def Abstains (method : MultipleModelMethod) (before : List Member) (member : Member)
    (after : List Member) (row : Row) : Prop :=
  ∀ seen, Turns method (before ++ member :: after, row) (member :: after, seen) →
    member.score seen = .ok none

variable {method : MultipleModelMethod} {primary : String} {target : Target}
  {member : Member} {members before after : List Member} {row seen : Row}

/-- A member that abstains when its turn comes makes no difference: the members before it take
    their turns as they did, and leave the same row to what comes after. -/
theorem TurnByTurn.eq_of_abstains {β : Type} {gather : List Member → Row → Outcome β}
    (h : TurnByTurn method gather) (habstains : Abstains method before member after row) :
    gather (before ++ member :: after) row = gather (before ++ after) row := by
  induction before generalizing row with
  -- Its turn comes at once.
  | nil => exact h.abstained (habstains row .refl)
  | cons first before ih =>
    refine h.congr fun next hturn => ih fun seen hturns => ?_
    exact habstains seen (.head (.taken hturn) hturns)

/-! ### Turn by turn -/

/-- The first prediction is looked for turn by turn; a member that predicts ends the search. -/
theorem turnByTurn_selectFirst :
    TurnByTurn .selectFirst fun members row => selectFirst row members where
  abstained h := by rw [selectFirst, h, Outcome.ok_bind]
  congr {member _ _ row} h := by
    rw [selectFirst, selectFirst]
    cases hscore : member.score row with
    | error e => rfl
    | ok outputs =>
      cases outputs with
      -- The search ends here, and the others have no turn.
      | some outputs => rfl
      | none => exact h row (by rw [turn, hscore]; rfl)

/-- A chain is computed turn by turn, for the row as the members before have left it. -/
theorem turnByTurn_chain : TurnByTurn .modelChain chain where
  abstained h := by rw [chain, gather, h, Outcome.ok_bind, chain]
  congr {member _ _ row} h := by
    rw [chain_cons, chain_cons]
    cases hscore : member.score row with
    | error e => rfl
    | ok outputs => rw [Outcome.ok_bind, Outcome.ok_bind, h _ (by rw [turn, hscore]; rfl)]

/-- Votes are cast turn by turn, all for the same row. -/
theorem turnByTurn_ballots :
    TurnByTurn .majorityVote fun members row => ballots row members where
  abstained h := by rw [ballots, vote?, h, Outcome.ok_bind, Outcome.ok_bind]
  congr {member _ _ row} h := by
    rw [ballots, ballots, vote?]
    cases hscore : member.score row with
    | error e => rfl
    | ok outputs => rw [h row (by rw [turn, hscore]; rfl)]

/-- Predicted numbers are gathered turn by turn, all for the same row. -/
theorem turnByTurn_numbers (hsum : method.isSum) :
    TurnByTurn method fun members row => numbers row members where
  abstained h := by rw [numbers, number?, h, Outcome.ok_bind, Outcome.ok_bind]
  congr {member _ _ row} h := by
    -- For these methods a turn is over once the prediction is a number, or there is none.
    have hturn : turn method row member = (fun _ => some row) <$> number? row member := by
      cases method with
      | average | weightedAverage | sum => rfl
      | _ => cases hsum
    rw [numbers, numbers]
    cases hnumber : number? row member with
    | error e => rfl
    | ok x => rw [h row (by rw [hturn, hnumber]; rfl)]

/-! ### Combinations -/

/-- The numbers that are predicted, added up, if there are any. -/
def sum? (row : Row) (members : List Member) : Outcome (Option Float) :=
  (fun numbers => if numbers.isEmpty then none else some (total numbers)) <$> numbers row members

/-- A total divided by a number of members, as the prediction of a primary name. -/
def mean (primary : String) (members : Nat) (total : Float) : Outputs :=
  Record.single primary (.number (total / Float.ofNat members))

/-- The average is the sum, if there is one, divided by the number of all members. -/
theorem combine_average : combine .average primary target members row =
    (Option.map (mean primary members.length)) <$> sum? row members := by
  rw [combine, combineNumbers, sum?]
  rcases numbers row members with _ | _ | _ <;> rfl

/-- Except for an average, a combination stays the same without a member that abstains. -/
theorem combine_eq_of_abstains (hmethod : method ≠ .average)
    (h : Abstains method before member after row) :
    combine method primary target (before ++ member :: after) row =
      combine method primary target (before ++ after) row := by
  cases method with
  | selectFirst => exact turnByTurn_selectFirst.eq_of_abstains h
  | modelChain => exact turnByTurn_chain.eq_of_abstains h
  | majorityVote =>
    rw [combine, combine, majorityVote, turnByTurn_ballots.eq_of_abstains h]
    rfl
  | weightedAverage | sum =>
    rw [combine, combine, combineNumbers, (turnByTurn_numbers rfl).eq_of_abstains h]
    rfl
  | average => exact absurd rfl hmethod
  -- These methods are refused, whoever the members are.
  | weightedMajorityVote | median | max | selectAll => rfl

/-- The sum of the predictions is the same without a member that abstains. -/
theorem sum?_eq_of_abstains (hsum : method.isSum)
    (h : Abstains method before member after row) :
    sum? row (before ++ member :: after) = sum? row (before ++ after) := by
  rw [sum?, (turnByTurn_numbers hsum).eq_of_abstains h]
  rfl

/-- Only a chain changes the row from turn to turn. -/
theorem eq_of_turn (hmethod : method ≠ .modelChain) {next : Row}
    (h : turn method row member = .ok (some next)) : next = row := by
  cases method with
  | modelChain => exact absurd rfl hmethod
  | selectFirst =>
    obtain ⟨outputs, _, h⟩ := Outcome.map_eq_ok_iff.1 h
    cases outputs with
    | none => exact (Option.some.inj h).symm
    | some outputs => cases h
  | _ =>
    obtain ⟨_, _, h⟩ := Outcome.map_eq_ok_iff.1 h
    exact (Option.some.inj h).symm

theorem eq_of_turns (hmethod : method ≠ .modelChain)
    (h : Turns method (members, row) (member :: after, seen)) : seen = row := by
  suffices ∀ start stop : List Member × Row, Turns method start stop → stop.2 = start.2 from
    this _ _ h
  intro start stop hturns
  induction hturns with
  | refl => rfl
  | tail _ hturn ih =>
    obtain ⟨hturn⟩ := hturn
    exact (eq_of_turn hmethod hturn).trans ih

end Ensemble

/-! ### Segments -/

namespace MiningModel

/-- The primary name of an ensemble with a target is the target, whatever its segments are. -/
theorem primary_withSegments {model : MiningModel} (htarget : model.schema.target?.isSome)
    (segments : List Segment) : { model with segments := segments }.primary = model.primary := by
  obtain ⟨target, htarget⟩ := Option.isSome_iff_exists.1 htarget
  rw [primary_eq, primary_eq, htarget]
  rfl

/-- Without a segment that abstains in its turn, the segments of an ensemble with a target
    combine to the same outputs, or to none, or to the same failure. Only an average is then
    over one segment less, of the same total. -/
theorem combine_of_abstains {model : MiningModel} {before after : List Segment}
    {segment : Segment} {row : Row} (htarget : model.schema.target?.isSome)
    (hsegments : model.segments = before ++ segment :: after)
    (habstains : ∀ seen, Ensemble.Turns model.method (model.segments.map (·.member), row)
      ((segment :: after).map (·.member), seen) → segment.score seen = .ok none) :
    (model.method ≠ .average →
      model.combine row = { model with segments := before ++ after }.combine row) ∧
    (model.method = .average →
      model.combine row =
        Option.map (Ensemble.mean model.primary model.segments.length) <$>
          Ensemble.sum? row (model.segments.map (·.member)) ∧
      { model with segments := before ++ after }.combine row =
        Option.map (Ensemble.mean model.primary (model.segments.length - 1)) <$>
          Ensemble.sum? row (model.segments.map (·.member))) := by
  have hprimary := primary_withSegments htarget (before ++ after)
  have hmembers : model.segments.map (·.member) =
      before.map (·.member) ++ segment.member :: after.map (·.member) := by
    rw [hsegments, List.map_append, List.map_cons]
  have hrest : (before ++ after).map (·.member) =
      before.map Segment.member ++ after.map (·.member) := List.map_append
  have h : Ensemble.Abstains model.method (before.map (·.member)) segment.member
      (after.map (·.member)) row := by
    rw [hmembers] at habstains
    exact habstains
  constructor
  · intro hmethod
    rw [combine, combine, hprimary, hmembers, hrest]
    exact Ensemble.combine_eq_of_abstains hmethod h
  · intro hmethod
    have hsum : Ensemble.sum? row (model.segments.map (·.member)) =
        Ensemble.sum? row ((before ++ after).map (·.member)) := by
      rw [hmembers, hrest]
      exact Ensemble.sum?_eq_of_abstains (by rw [hmethod]; rfl) h
    have hlength : model.segments.length - 1 = ((before ++ after).map Segment.member).length := by
      rw [hsegments]
      simp
    constructor
    · rw [combine, hmethod, Ensemble.combine_average, List.length_map]
    · rw [combine, hprimary, hsum, hlength]
      simp only [hmethod, Ensemble.combine_average]

/-- The guard of the second segment asks for a field that the row does not have. The first
    segment predicts 4, which is divided by two segments, and then by one. -/
theorem combine_of_abstains_missing :
    let first : Segment := .guarded .always (.tree (.constant "y" "4"))
    let second : Segment :=
      .guarded (.simple "size" .equal (some "2")) (.tree (.constant "y" "6"))
    let model : MiningModel :=
      { MiningModel.plain .average [first, second] with
        schema := ⟨[⟨"y", .target, none, none⟩]⟩ }
    model.schema.target?.isSome ∧ second.score ∅ = .ok none ∧
      model.combine ∅ = .ok (some (Record.single "y" (.number 2))) ∧
      { model with segments := [first] }.combine ∅ =
        .ok (some (Record.single "y" (.number 4))) := by
  intro first second model
  have hsegments : model.segments = [first] ++ second :: [] := rfl
  have habstains : ∀ seen, Ensemble.Turns model.method (model.segments.map (·.member), ∅)
      ([second].map (·.member), seen) → second.score seen = .ok none := by
    intro seen hturns
    have hmethod : model.method ≠ .modelChain := by decide
    rw [Ensemble.eq_of_turns hmethod hturns]
    rfl
  obtain ⟨hmodel, hrest⟩ := (combine_of_abstains rfl hsegments habstains).2 rfl
  have hsum : Ensemble.sum? ∅ (model.segments.map (·.member)) = .ok (some 4) := by decide
  rw [hsum] at hmodel hrest
  exact ⟨rfl, rfl, hmodel.trans (by decide), hrest.trans (by decide)⟩

end MiningModel

end Scoring
