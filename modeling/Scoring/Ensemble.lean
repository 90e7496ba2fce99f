import Scoring.Output
import Scoring.Value.Coercion

/-!
# Ensembles

An ensemble combines the predictions of its members. To the ensemble a `Member` is
a function that scores a row, with the name of the output that carries its
prediction; how it comes to its prediction is its own matter. A member that makes
no prediction *abstains*, and the combination goes on without it. A member that
fails makes the combination fail, if it is asked at all.

The methods of combination:

* `selectFirst`: the outputs of the first member that does not abstain; the members
  after it are not asked;
* `majorityVote`: the prediction that most members make;
* `average`, `weightedAverage`, `sum`: a number made of the numbers predicted;
* `chain`: each member sees the outputs of those before it as part of its row, and
  the outputs of all are gathered.
-/

namespace Scoring

/-- How the number that an ensemble sums up is rescaled. -/
structure Target where
  field : Option String
  rescaleConstant : Float
  rescaleFactor : Float
  deriving DecidableEq

/-- The target that leaves the number as it is. -/
def Target.plain : Target := ⟨none, 0, 1⟩

/-- The number of an ensemble, rescaled: the constant is added, and then the factor
    multiplied, unless it is zero. -/
def Target.rescale (target : Target) (total : Float) : Float :=
  let total := total + target.rescaleConstant
  if target.rescaleFactor == 0 then total else total * target.rescaleFactor

/-- What an ensemble knows of one of its members. -/
structure Member where
  /-- How messages call the member. -/
  label : String
  weight : Float
  /-- The name of the output that carries the member's prediction. -/
  primary : String
  /-- The member's outputs for a row, unless it abstains. -/
  score : Row → Outcome (Option Outputs)

namespace Ensemble

/-! ### Selection -/

/-- The outputs of the first member that does not abstain. -/
def selectFirst (row : Row) : List Member → Outcome (Option Outputs)
  | [] => .ok none
  | member :: members => do
    match ← member.score row with
    | some outputs => .ok (some outputs)
    | none => selectFirst row members

/-! ### Votes -/

/-- The vote of a member for a row: the text of its prediction. -/
def vote? (row : Row) (member : Member) : Outcome (Option String) := do
  match ← member.score row with
  | none => .ok none
  | some outputs =>
    let prediction := outputs.value member.primary
    .ok (if prediction.isMissing then none else some prediction.display)

/-- The votes that are cast, in the order of the members. -/
def ballots (row : Row) : List Member → Outcome (List String)
  | [] => .ok []
  | member :: members => do
    match ← vote? row member with
    | some category => (category :: ·) <$> ballots row members
    | none => ballots row members

/-- One more vote for a category. Votes are counted in doubles, as they are put out. -/
def addVote (category : String) : List (String × Float) → List (String × Float)
  | [] => [(category, 1)]
  | (other, votes) :: rest =>
    if other = category then (other, votes + 1) :: rest
    else (other, votes) :: addVote category rest

/-- How many votes each category has, in the order of their first votes. -/
def tally (votes : List String) : List (String × Float) :=
  votes.foldl (fun counts category => addVote category counts) []

/-- The category with the most votes: `best`, unless a later one has more. -/
def winner (best : String × Float) : List (String × Float) → String
  | [] => best.1
  | next :: rest => if best.2 < next.2 then winner next rest else winner best rest

/-- The category with the most votes, the first of several, under the primary name,
    and the votes of each category under its own name, which comes last. -/
def majorityVote (primary : String) (members : List Member) (row : Row) :
    Outcome (Option Outputs) := do
  match tally (← ballots row members) with
  | [] => .ok none
  | first :: rest =>
    -- The prediction goes in first: a category of the same name replaces it by its votes.
    let prediction := (∅ : Outputs).insert primary (.text (winner first rest))
    .ok (some ((first :: rest).foldl
      (fun outputs (category, votes) => outputs.insert category (.number votes))
      prediction))

/-! ### Numbers -/

/-- The number that a member predicts for a row. -/
def number? (row : Row) (member : Member) : Outcome (Option Float) := do
  match ← member.score row with
  | none => .ok none
  | some outputs => match outputs.value member.primary with
    | .absent => .ok none
    | prediction => some <$> Outcome.within (.segment member.label) prediction.toNumber

/-- The numbers that are predicted, in the order of the members, each with the weight of
    its member. -/
def numbers (row : Row) : List Member → Outcome (List (Float × Float))
  | [] => .ok []
  | member :: members => do
    match ← number? row member with
    | some x => ((member.weight, x) :: ·) <$> numbers row members
    | none => numbers row members

/-- A number made of the numbers predicted, if there are any. -/
def combineNumbers (primary : String) (combination : List (Float × Float) → Float)
    (members : List Member) (row : Row) : Outcome (Option Outputs) := do
  match ← numbers row members with
  | [] => .ok none
  | first :: rest => .ok (some (Record.single primary (.number (combination (first :: rest)))))

/-- The numbers added up, from zero on. -/
def total (numbers : List (Float × Float)) : Float :=
  numbers.foldl (fun total (_, x) => total + x) 0

/-- The numbers added up, from zero on, each multiplied by its weight. -/
def weightedTotal (numbers : List (Float × Float)) : Float :=
  numbers.foldl (fun total (weight, x) => total + weight * x) 0

/-! ### Chains -/

/-- What the members output, put to what has been `gathered` from those before them. Each
    member is scored for the row with the outputs of the members before it. -/
def gather (gathered : Outputs) : List Member → Row → Outcome Outputs
  | [], _ => .ok gathered
  | member :: members, row => do
    match ← member.score row with
    | none => gather gathered members row
    | some outputs => gather (gathered.merge outputs) members (row.merge outputs)

/-- The outputs of all members, of which the last of one name remains. There are none if no
    entries have been gathered in the end. -/
def chain (members : List Member) (row : Row) : Outcome (Option Outputs) :=
  Record.unlessEmpty <$> gather ∅ members row

/-! ### Combination -/

/-- The combination of the members by a method. The average is taken over all members,
    also those that abstain; the weights of a weighted average are taken as they are. -/
def combine (method : MultipleModelMethod) (primary : String) (target : Target)
    (members : List Member) (row : Row) : Outcome (Option Outputs) :=
  match method with
  | .selectFirst => selectFirst row members
  | .majorityVote => majorityVote primary members row
  | .average =>
    combineNumbers primary (fun xs => total xs / Float.ofNat members.length) members row
  | .weightedAverage => combineNumbers primary weightedTotal members row
  | .sum => combineNumbers primary (fun xs => target.rescale (total xs)) members row
  | .modelChain => chain members row
  | method => .fail (.unsupportedMethod method)

end Ensemble

end Scoring
