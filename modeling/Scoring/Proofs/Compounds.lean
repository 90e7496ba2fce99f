import Mathlib.Algebra.Ring.Parity
import Scoring.Proofs.Outcome

/-!
# What compound predicates come to

A compound predicate goes through the answers of its parts in their order, and stops as
soon as they decide. Here its answer is told from the list of them all, as if every part
had been asked for itself.

* One answer decides a conjunction, `no`, and one a disjunction, `yes`. They come to the
  first part that has this answer or fails, and without such a part to `unknown`, or else
  to the opposite answer (`Truth.decided`).
* An exclusive disjunction comes to its first failure, and without one it asks whether the
  number of parts that hold is odd (`Truth.odd_eq`).
* A surrogate comes to the first part that is not `unknown` (`Truth.surrogate_eq`).

Hence a part with the answer that decides leaves nothing else open but the failure of an
earlier part (`Truth.decided_append_cons`), and where no part fails the order matters to
a surrogate only (`BooleanOperator.join_perm`).
-/

namespace Scoring

namespace Truth

/-- A part fails. -/
def isFailure : Outcome Truth → Bool
  | .ok _ => false
  | .error _ => true

/-- A part has the answer that decides, or fails. -/
def settles (decider : Truth) : Outcome Truth → Bool
  | .ok answer => answer = decider
  | .error _ => true

/-- What parts come to if one answer decides: the first part that has this answer or fails;
    without such a part `unknown`, if some part is, and otherwise the opposite answer. -/
def decided (decider : Truth) (parts : List (Outcome Truth)) : Outcome Truth :=
  (parts.find? (settles decider)).getD
    (if .ok .unknown ∈ parts then .ok .unknown else .ok decider.negate)

variable {decider : Truth} {part : Outcome Truth} {parts before after : List (Outcome Truth)}

/-- A part that settles the outcome has the answer that decides, or fails. -/
theorem eq_of_settles (h : settles decider part) :
    part = .ok decider ∨ ∃ e, part = .error e := by
  cases part with
  | ok answer => exact .inl (congrArg _ (of_decide_eq_true h))
  | error e => exact .inr ⟨e, rfl⟩

/-! ### Part by part -/

/-- What settles the outcome is the outcome, whatever comes after it. -/
theorem decided_cons_of_settles (h : settles decider part) :
    decided decider (part :: parts) = part := by
  rw [decided, List.find?_cons_of_pos h, Option.getD_some]

/-- A part with the opposite answer may be left out. -/
theorem decided_cons_negate (h : decider ≠ .unknown) :
    decided decider (.ok decider.negate :: parts) = decided decider parts := by
  have hsettles : ¬ settles decider (.ok decider.negate) := by
    cases decider <;> simp [settles, negate] at h ⊢
  have hmem : .ok .unknown ∈ .ok decider.negate :: parts ↔ .ok .unknown ∈ parts := by
    cases decider <;> simp [negate] at h ⊢
  simp only [decided, List.find?_cons_of_neg hsettles, hmem]

/-- After an unknown part, an answer is definite only if it is the one that decides. -/
theorem decided_cons_unknown (h : decider ≠ .unknown) :
    decided decider (.ok .unknown :: parts) =
      (fun answer => if answer = decider then decider else .unknown) <$> decided decider parts := by
  have hsettles : ¬ settles decider (.ok .unknown) := by
    simpa [settles] using h.symm
  rw [decided, decided, List.find?_cons_of_neg hsettles, if_pos List.mem_cons_self]
  cases hfind : parts.find? (settles decider) with
  | some part =>
    -- A later part settles the outcome, and if it has the deciding answer then this one stays
    -- definite.
    rcases eq_of_settles (List.find?_some hfind) with rfl | ⟨e, rfl⟩
    · simp
    · rfl
  | none =>
    rw [Option.getD_none, Option.getD_none]
    split
    · simp [h.symm]
    · cases decider <;> simp [negate] at h ⊢

/-- What a loop comes to that ends with a part which settles it, passes over one with the
    opposite answer, and goes on from an unknown one to look for the answer that decides. -/
theorem eq_decided {loop : List (Outcome Truth) → Outcome Truth} (h : decider ≠ .unknown)
    (hnil : loop [] = .ok decider.negate)
    (hsettles : ∀ part parts, settles decider part → loop (part :: parts) = part)
    (hnegate : ∀ parts, loop (.ok decider.negate :: parts) = loop parts)
    (hunknown : ∀ parts, loop (.ok .unknown :: parts) =
      (fun answer => if answer = decider then decider else .unknown) <$> loop parts)
    (parts : List (Outcome Truth)) : loop parts = decided decider parts := by
  induction parts with
  | nil => exact hnil
  | cons part parts ih =>
    -- There are three answers and the failures, and no part is anything else.
    have hpart : settles decider part ∨ part = .ok decider.negate ∨ part = .ok .unknown := by
      rcases part with e | answer
      · exact .inl rfl
      · cases decider <;> cases answer <;> simp [settles, negate] at h ⊢
    rcases hpart with hpart | rfl | rfl
    · rw [hsettles part parts hpart, decided_cons_of_settles hpart]
    · rw [hnegate, ih, decided_cons_negate h]
    · rw [hunknown, ih, decided_cons_unknown h]

/-- A conjunction is decided by `no`. -/
theorem all_eq (parts : List (Outcome Truth)) : all parts = decided .no parts := by
  refine eq_decided (by decide) rfl (fun part parts h => ?_) (fun _ => rfl) (fun parts => ?_) parts
  · rcases eq_of_settles h with rfl | ⟨e, rfl⟩ <;> rfl
  · rw [all, Outcome.ok_bind]
    rcases all parts with e | answer
    · rfl
    · cases answer <;> rfl

/-- A disjunction is decided by `yes`. -/
theorem any_eq (parts : List (Outcome Truth)) : any parts = decided .yes parts := by
  refine eq_decided (by decide) rfl (fun part parts h => ?_) (fun _ => rfl) (fun parts => ?_) parts
  · rcases eq_of_settles h with rfl | ⟨e, rfl⟩ <;> rfl
  · rw [any, Outcome.ok_bind]
    rcases any parts with e | answer
    · rfl
    · cases answer <;> rfl

/-- Negation of a definite answer is that of the boolean. -/
theorem negate_ofBool (b : Bool) : negate (ofBool b) = ofBool (!b) := by
  cases b <;> rfl

/-- An exclusive disjunction comes to the first failure, and otherwise counts the parts that
    hold; an unknown part counts as one that does not. -/
theorem odd_eq (parts : List (Outcome Truth)) :
    odd parts = (parts.find? isFailure).getD (.ok (ofBool (Odd (parts.count (.ok .yes))))) := by
  induction parts with
  | nil => rfl
  | cons part parts ih =>
    match part with
    | .error e => rfl
    | .ok .yes =>
      rw [odd, Outcome.ok_bind, ih, List.find?_cons_of_neg (by decide), List.count_cons_self]
      cases hfind : parts.find? isFailure with
      | none =>
        simp only [Option.getD_none, Outcome.map_ok, negate_ofBool, Nat.odd_add_one, decide_not]
      | some part =>
        -- What has been found is a failure, which is not negated.
        cases part with
        | error e => rfl
        | ok answer => cases List.find?_some hfind
    -- Neither changes what the loop has counted.
    | .ok .no | .ok .unknown =>
      rw [List.find?_cons_of_neg (by decide), List.count_cons_of_ne (by simp)]
      exact ih

/-- A surrogate comes to the first part that is known or fails. -/
theorem surrogate_eq (parts : List (Outcome Truth)) :
    surrogate parts = (parts.find? (· ≠ .ok .unknown)).getD (.ok .unknown) := by
  induction parts with
  | nil => rfl
  | cons part parts ih =>
    match part with
    | .error e => rfl
    | .ok .yes => rfl
    | .ok .no => rfl
    | .ok .unknown => exact ih

/-! ### A part that decides -/

/-- A part with the answer that decides is outdone only by a failure before it. -/
theorem decided_append_cons :
    decided decider (before ++ .ok decider :: after) = .ok decider ∨
      ∃ e, .error e ∈ before ∧ decided decider (before ++ .ok decider :: after) = .error e := by
  have hsettles : settles decider (.ok decider) := decide_eq_true rfl
  rw [decided, List.find?_append, List.find?_cons_of_pos hsettles]
  cases hfind : before.find? (settles decider) with
  | none => exact .inl rfl
  | some part =>
    -- An earlier part settles it: with the same answer, or with a failure.
    rcases eq_of_settles (List.find?_some hfind) with rfl | ⟨e, rfl⟩
    · exact .inl rfl
    · exact .inr ⟨e, List.mem_of_find?_eq_some hfind, rfl⟩

/-! ### The order of the parts -/

section

variable (hok : ∀ part ∈ parts, ∃ answer, part = .ok answer)
include hok

/-- Where no part fails, parts come to what there is among them. -/
theorem decided_of_ok : decided decider parts =
    if .ok decider ∈ parts then .ok decider
    else if .ok .unknown ∈ parts then .ok .unknown else .ok decider.negate := by
  rw [decided]
  cases hfind : parts.find? (settles decider) with
  | none =>
    have hmem : .ok decider ∉ parts := fun h =>
      List.find?_eq_none.1 hfind _ h (decide_eq_true rfl)
    rw [if_neg hmem, Option.getD_none]
  | some part =>
    have hmem := List.mem_of_find?_eq_some hfind
    rcases eq_of_settles (List.find?_some hfind) with rfl | ⟨e, rfl⟩
    · rw [if_pos hmem, Option.getD_some]
    · obtain ⟨_, h⟩ := hok _ hmem
      cases h

/-- Where no part fails, an exclusive disjunction counts those that hold. -/
theorem odd_of_ok : odd parts = .ok (ofBool (Odd (parts.count (.ok .yes)))) := by
  have hfind : parts.find? isFailure = none := List.find?_eq_none.2 fun part hpart => by
    obtain ⟨answer, rfl⟩ := hok part hpart
    exact Bool.false_ne_true
  rw [odd_eq, hfind, Option.getD_none]

end

end Truth

namespace BooleanOperator

/-- The operator `and` joins answers as what is decided by `no`. -/
theorem and_join (parts : List (Outcome Truth)) : and.join parts = Truth.decided .no parts :=
  Truth.all_eq parts

/-- The operator `or` joins answers as what is decided by `yes`. -/
theorem or_join (parts : List (Outcome Truth)) : or.join parts = Truth.decided .yes parts :=
  Truth.any_eq parts

/-- Answers may be joined in any order, except by a surrogate, as long as there is no failure
    among them. -/
theorem join_perm {operator : BooleanOperator} (hoperator : operator ≠ .surrogate)
    {parts parts' : List (Outcome Truth)} (h : parts.Perm parts')
    (hok : ∀ part ∈ parts, ∃ answer, part = .ok answer) :
    operator.join parts' = operator.join parts := by
  have hok' : ∀ part ∈ parts', ∃ answer, part = .ok answer := fun part hpart =>
    hok part (h.mem_iff.2 hpart)
  cases operator with
  -- Which answers occur does not depend on their order, and nor does how often they do.
  | and =>
    rw [and_join, and_join, Truth.decided_of_ok hok, Truth.decided_of_ok hok']
    simp only [h.mem_iff]
  | or =>
    rw [or_join, or_join, Truth.decided_of_ok hok, Truth.decided_of_ok hok']
    simp only [h.mem_iff]
  | xor => rw [join, Truth.odd_of_ok hok, Truth.odd_of_ok hok', h.count_eq]
  | surrogate => exact absurd rfl hoperator

end BooleanOperator

namespace Predicate

/-- The answer of a compound is joined from the answers of its parts. -/
theorem eval_compound (row : Row) (operator : BooleanOperator) (parts : List Predicate) :
    eval row (.compound operator parts) = operator.join (parts.map (eval row)) := by
  rw [eval, evalEach_eq_map]

/-- A guard made of several predicates asks what their conjunction does. -/
theorem evalAll_eq (row : Row) (parts : List Predicate) :
    evalAll row parts = eval row (.compound .and parts) :=
  (eval_compound row .and parts).symm

/-- A part with the answer that decides a compound settles it, unless a part before it
    fails. -/
theorem eval_compound_of_decider {row : Row} {operator : BooleanOperator} {decider : Truth}
    (hjoin : ∀ parts, operator.join parts = Truth.decided decider parts) {part : Predicate}
    (hpart : part.eval row = .ok decider) (before after : List Predicate) :
    eval row (.compound operator (before ++ part :: after)) = .ok decider ∨
      ∃ earlier ∈ before, ∃ e, earlier.eval row = .error e ∧
        eval row (.compound operator (before ++ part :: after)) = .error e := by
  rw [eval_compound, hjoin, List.map_append, List.map_cons, hpart]
  rcases Truth.decided_append_cons with hdecided | ⟨e, hmem, he⟩
  · exact .inl hdecided
  · obtain ⟨earlier, hearlier, hfails⟩ := List.mem_map.1 hmem
    exact .inr ⟨earlier, hearlier, e, hfails, he⟩

/-- The parts of a compound may come in any order, except for a surrogate, as long as none of
    them fails. -/
theorem eval_compound_perm {row : Row} {operator : BooleanOperator} {parts parts' : List Predicate}
    (hoperator : operator ≠ .surrogate) (h : parts.Perm parts')
    (hok : ∀ part ∈ parts, ∃ answer, part.eval row = .ok answer) :
    eval row (.compound operator parts') = eval row (.compound operator parts) := by
  rw [eval_compound, eval_compound]
  exact BooleanOperator.join_perm hoperator (h.map _) (List.forall_mem_map.2 hok)

/-- The logic of compound predicates, told from the answers of their parts.

    A conjunction, and likewise a guard made of several predicates, comes to the first part
    that does not hold or fails, otherwise to `unknown` if some part is, otherwise it holds;
    a disjunction does so with `yes` and `no` the other way round. An exclusive disjunction
    comes to the first failure, and otherwise holds if an odd number of parts do; a
    surrogate comes to the first part that is not `unknown`.

    So a part that does not hold makes a conjunction `no`, or the failure of an earlier
    part, and a part that holds does the like to a disjunction. If no part fails, the
    order of the parts matters to a surrogate only. -/
theorem eval_compound_eq (row : Row) (parts : List Predicate) :
    let answers := parts.map (eval row)
    evalAll row parts = Truth.decided .no answers ∧
    eval row (.compound .and parts) = Truth.decided .no answers ∧
    eval row (.compound .or parts) = Truth.decided .yes answers ∧
    eval row (.compound .xor parts) =
      (answers.find? Truth.isFailure).getD (.ok (.ofBool (Odd (answers.count (.ok .yes))))) ∧
    eval row (.compound .surrogate parts) =
      (answers.find? (· ≠ .ok .unknown)).getD (.ok .unknown) ∧
    (∀ before part after, parts = before ++ part :: after → part.eval row = .ok .no →
      eval row (.compound .and parts) = .ok .no ∨
        ∃ earlier ∈ before, ∃ e, earlier.eval row = .error e ∧
          eval row (.compound .and parts) = .error e) ∧
    (∀ before part after, parts = before ++ part :: after → part.eval row = .ok .yes →
      eval row (.compound .or parts) = .ok .yes ∨
        ∃ earlier ∈ before, ∃ e, earlier.eval row = .error e ∧
          eval row (.compound .or parts) = .error e) ∧
    (∀ operator parts', operator ≠ .surrogate → parts.Perm parts' →
      (∀ part ∈ parts, ∃ answer, part.eval row = .ok answer) →
      eval row (.compound operator parts') = eval row (.compound operator parts)) := by
  intro answers
  refine ⟨Truth.all_eq answers, ?_, ?_, ?_, ?_, ?_, ?_, fun operator parts' => eval_compound_perm⟩
  · exact (eval_compound row .and parts).trans (BooleanOperator.and_join answers)
  · exact (eval_compound row .or parts).trans (BooleanOperator.or_join answers)
  · exact (eval_compound row .xor parts).trans (Truth.odd_eq answers)
  · exact (eval_compound row .surrogate parts).trans (Truth.surrogate_eq answers)
  · rintro before part after rfl hpart
    exact eval_compound_of_decider BooleanOperator.and_join hpart before after
  · rintro before part after rfl hpart
    exact eval_compound_of_decider BooleanOperator.or_join hpart before after

/-- The weight is unknown, and a size is no number. The part that does not hold comes
    before the one that fails, and without the latter the parts may come in any order. -/
theorem eval_compound_eq_unknown_weight :
    let light : Predicate := .simple "weight" .lessThan (some "5")
    let broken : Predicate := .simple "size" .lessThan (some "tall")
    let row : Row := .single "size" (.number 3)
    light.eval row = .ok .unknown ∧
      broken.eval row = .error (.ofCause (.invalidLiteral "size" "tall")) ∧
      (eval row (.compound .and [light, .never, broken]) = .ok .no ∨
        ∃ earlier ∈ [light], ∃ e, earlier.eval row = .error e ∧
          eval row (.compound .and [light, .never, broken]) = .error e) ∧
      eval row (.compound .xor [.never, light, .always]) =
        eval row (.compound .xor [light, .never, .always]) := by
  intro light broken row
  have hlight : light.eval row = .ok .unknown := rfl
  have hbroken : broken.eval row = .error (.ofCause (.invalidLiteral "size" "tall")) := rfl
  have hok : ∀ part ∈ [light, .never, .always], ∃ answer, part.eval row = .ok answer :=
    List.forall_mem_cons.2 ⟨⟨_, hlight⟩, List.forall_mem_cons.2
      ⟨⟨.no, by rw [eval]⟩, List.forall_mem_singleton.2 ⟨.yes, by rw [eval]⟩⟩⟩
  obtain ⟨-, -, -, -, -, hand, -, -⟩ := eval_compound_eq row [light, .never, broken]
  obtain ⟨-, -, -, -, -, -, -, hperm⟩ := eval_compound_eq row [light, .never, .always]
  exact ⟨hlight, hbroken, hand [light] .never [broken] rfl (by rw [eval]),
    hperm .xor _ (by decide) (.swap _ _ _) hok⟩

end Predicate

end Scoring
