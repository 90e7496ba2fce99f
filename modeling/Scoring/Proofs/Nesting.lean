import Scoring.Proofs.Compounds

/-!
# Nested compounds

A compound predicate joins the answers of its parts from the first one on. An answer may stop it
there (`BooleanOperator.stopsAt`). If it does not, it is combined with what the parts after it
come to (`BooleanOperator.combine`). One outcome before another is joined with it in this way
(`BooleanOperator.andThen`), and a list of outcomes is its first one before all others
(`BooleanOperator.join_cons`).

Combining is associative, and an answer made of two stops an operator if one of the two does. So
joining one outcome before another is associative as well, and

* the outcomes of two lists, one after the other, are joined by joining those of each list first
  (`BooleanOperator.join_append`);
* a part that is a compound by the same operator may be replaced by its own parts
  (`Predicate.eval_compound_nested`): they stop the evaluation at the same place, with the same
  answer or failure.
-/

namespace Scoring

/-- Whether an odd number of parts hold is asked of a number, and the answer is never unknown. -/
theorem Truth.exists_odd_eq (parts : List (Outcome Truth)) :
    ∃ outcome : Outcome Bool, odd parts = ofBool <$> outcome := by
  rw [odd_eq]
  cases hfind : parts.find? isFailure with
  | none => exact ⟨.ok _, rfl⟩
  | some part =>
    cases part with
    | error e => exact ⟨.error e, rfl⟩
    | ok answer => cases List.find?_some hfind

namespace BooleanOperator

/-- The answers of a part after which no further parts are asked. -/
def stopsAt : BooleanOperator → Truth → Bool
  | and, answer => answer = .no
  | or, answer => answer = .yes
  | xor, _ => false
  | surrogate, answer => answer ≠ .unknown

/-- The answer made of two answers, if both of them are asked for. -/
def combine : BooleanOperator → Truth → Truth → Truth
  | and, .no, _ | and, _, .no => .no
  | and, .yes, .yes => .yes
  | and, _, _ => .unknown
  | or, .yes, _ | or, _, .yes => .yes
  | or, .no, .no => .no
  | or, _, _ => .unknown
  | xor, a, b => .ofBool (decide (a = .yes) != decide (b = .yes))
  | surrogate, .unknown, b => b
  | surrogate, a, _ => a

/-- One outcome joined with another one after it, which is not asked for if the first stops the
    operator. -/
def andThen (operator : BooleanOperator) (first rest : Outcome Truth) : Outcome Truth := do
  let answer ← first
  if operator.stopsAt answer then .ok answer else operator.combine answer <$> rest

variable {operator : BooleanOperator} {a b c answer : Truth} {first rest : Outcome Truth}

/-! ### Two outcomes -/

/-- It makes no difference which two of three answers are combined first. -/
theorem combine_assoc :
    operator.combine (operator.combine a b) c = operator.combine a (operator.combine b c) := by
  cases operator <;> cases a <;> cases b <;> cases c <;> rfl

/-- A combined answer stops the operator if either of the two does. -/
theorem stopsAt_combine :
    operator.stopsAt (operator.combine a b) = (operator.stopsAt a || operator.stopsAt b) := by
  cases operator <;> cases a <;> cases b <;> rfl

/-- An answer that stops the operator is the outcome. -/
theorem andThen_of_stopsAt (h : operator.stopsAt answer) :
    operator.andThen (.ok answer) rest = .ok answer :=
  if_pos h

/-- Any other answer is combined with the rest. -/
theorem andThen_of_not_stopsAt (h : ¬ operator.stopsAt answer) :
    operator.andThen (.ok answer) rest = operator.combine answer <$> rest :=
  if_neg h

/-- Two outcomes fail as the first, or as the second if it is asked for. -/
theorem andThen_eq_error_iff {e : Failure} : operator.andThen first rest = .error e ↔
    first = .error e ∨ ∃ answer, first = .ok answer ∧ ¬ operator.stopsAt answer ∧
      rest = .error e := by
  rcases first with _ | answer
  · simp [andThen]
  by_cases h : operator.stopsAt answer
  · simp [andThen_of_stopsAt h, h]
  · simp [andThen_of_not_stopsAt h, h]

/-- It makes no difference which two of three outcomes are joined first, failures included. -/
theorem andThen_assoc (x y z : Outcome Truth) :
    operator.andThen (operator.andThen x y) z = operator.andThen x (operator.andThen y z) := by
  rcases x with e | a
  · rfl
  -- The first answer may stop the operator already, and nothing else is asked for.
  by_cases ha : operator.stopsAt a
  · rw [andThen_of_stopsAt ha, andThen_of_stopsAt ha, andThen_of_stopsAt ha]
  rw [andThen_of_not_stopsAt ha, andThen_of_not_stopsAt ha]
  rcases y with e | b
  · rfl
  rw [Outcome.map_ok]
  -- What is made of `a` and `b` stops the operator if and only if `b` does.
  by_cases hb : operator.stopsAt b
  · have hab : operator.stopsAt (operator.combine a b) := by
      rw [stopsAt_combine, hb, Bool.or_true]
    rw [andThen_of_stopsAt hab, andThen_of_stopsAt hb, Outcome.map_ok]
  · have hab : ¬ operator.stopsAt (operator.combine a b) := by
      rw [stopsAt_combine, Bool.or_eq_true]
      exact not_or.2 ⟨ha, hb⟩
    rw [andThen_of_not_stopsAt hab, andThen_of_not_stopsAt hb]
    rcases z with e | c
    · rfl
    · rw [Outcome.map_ok, Outcome.map_ok, Outcome.map_ok, combine_assoc]

/-! ### Lists of outcomes -/

variable {part : Outcome Truth} {parts : List (Outcome Truth)}

/-- Outcomes are joined from the first one on. -/
theorem join_cons :
    operator.join (part :: parts) = operator.andThen part (operator.join parts) := by
  rcases part with e | answer
  · cases operator <;> rfl
  cases operator with
  -- By the answer of the part, and the outcome of the rest where it is looked at.
  | and =>
    rw [join, Truth.all, Outcome.ok_bind, andThen, Outcome.ok_bind]
    rcases Truth.all parts with e | rest
    · cases answer <;> rfl
    · cases answer <;> cases rest <;> rfl
  | or =>
    rw [join, Truth.any, Outcome.ok_bind, andThen, Outcome.ok_bind]
    rcases Truth.any parts with e | rest
    · cases answer <;> rfl
    · cases answer <;> cases rest <;> rfl
  | xor =>
    rw [join, Truth.odd, Outcome.ok_bind, andThen, Outcome.ok_bind]
    -- Combining would make an unknown answer definite, but the rest never comes to one.
    obtain ⟨outcome, houtcome⟩ := Truth.exists_odd_eq parts
    rw [houtcome]
    rcases outcome with e | b
    · cases answer <;> rfl
    · cases answer <;> cases b <;> rfl
  | surrogate =>
    rw [join, Truth.surrogate, Outcome.ok_bind, andThen, Outcome.ok_bind]
    rcases Truth.surrogate parts with e | rest
    · cases answer <;> rfl
    · cases answer <;> rfl

/-- Without parts there is an answer that makes no difference to others. -/
theorem andThen_join_nil (parts : List (Outcome Truth)) :
    operator.andThen (operator.join []) (operator.join parts) = operator.join parts := by
  rw [← join_cons]
  cases operator <;> rfl

/-- Outcomes are joined in two parts as they are together. -/
theorem join_append (before after : List (Outcome Truth)) :
    operator.join (before ++ after) =
      operator.andThen (operator.join before) (operator.join after) := by
  induction before with
  | nil => rw [List.nil_append, andThen_join_nil]
  | cons part before ih => rw [List.cons_append, join_cons, ih, join_cons, andThen_assoc]

/-- What some outcomes come to is joined again as it is. -/
theorem join_singleton_join (parts : List (Outcome Truth)) :
    operator.join [operator.join parts] = operator.join parts := by
  rw [join_cons, ← join_append, List.append_nil]

/-- What is joined from outcomes by an operator may stand for them where they are joined by the
    same operator. -/
theorem join_nested (before parts after : List (Outcome Truth)) :
    operator.join (before ++ [operator.join parts] ++ after) =
      operator.join (before ++ parts ++ after) := by
  rw [join_append, join_append before, join_singleton_join, ← join_append, ← join_append]

end BooleanOperator

/-- A compound comes to the same, failures included, as with the parts of a compound by the same
    operator in place of that compound. -/
theorem Predicate.eval_compound_nested (row : Row) (operator : BooleanOperator)
    (before parts after : List Predicate) :
    eval row (.compound operator (before ++ [.compound operator parts] ++ after)) =
      eval row (.compound operator (before ++ parts ++ after)) :=
  calc eval row (.compound operator (before ++ [.compound operator parts] ++ after))
    _ = operator.join (before.map (eval row) ++ [operator.join (parts.map (eval row))] ++
          after.map (eval row)) := by
      rw [eval_compound, List.map_append, List.map_append, List.map_singleton, eval_compound]
    _ = operator.join (before.map (eval row) ++ parts.map (eval row) ++ after.map (eval row)) :=
      BooleanOperator.join_nested _ _ _
    _ = eval row (.compound operator (before ++ parts ++ after)) := by
      rw [eval_compound, List.map_append, List.map_append]

end Scoring
