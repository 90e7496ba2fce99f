import Scoring.Proofs.Membership
import Scoring.Proofs.Misfits

/-!
# Membership and equality

Whether a field is one of some literals can be asked of a set predicate, or of a disjunction that
compares the field with each literal in its turn (`Predicate.equalsOneOf`). The two are not the
same: the disjunction ignores the case of texts, and fails where a boolean is compared with what is
no boolean word.

* What a literal matches as a member it equals (`Predicate.equalsLiteral_of_matchesLiteral`). So
  the disjunction holds of every member, unless it fails at a literal before the one that matches
  (`Predicate.eval_equalsOneOf_of_member`).
* A number equals the literals that match it, and no others
  (`Predicate.eval_equalsOneOf_of_number`).
* An absent value is unknown to both (`Predicate.eval_equalsOneOf_of_absent`).
-/

namespace Scoring

namespace Truth

/-- A disjunction of tests asks whether one of them succeeds. -/
theorem any_map_ofBool {α : Type} (p : α → Bool) (xs : List α) :
    any (xs.map fun x => .ok (ofBool (p x))) = .ok (ofBool (xs.any p)) := by
  induction xs with
  | nil => rfl
  | cons x xs ih =>
    rw [List.map_cons, any, Outcome.ok_bind, ih, List.any_cons]
    cases p x <;> rfl

end Truth

namespace Predicate

/-- The disjunction that compares a field with each of some literals, in their order. -/
def equalsOneOf (field : String) (literals : List String) : Predicate :=
  .compound .or (literals.map fun literal => .simple field .equal (some literal))

variable {row : Row} {field literal : String} {literals : List String} {v : Value}

/-- The disjunction comes to that of the equalities with each literal. -/
theorem eval_equalsOneOf (row : Row) (field : String) (literals : List String) :
    eval row (equalsOneOf field literals) = Truth.any (literals.map fun literal =>
      evalSimple field .equal (some literal) (row.value field)) := by
  rw [equalsOneOf, eval_compound, List.map_map]
  rfl

/-- A set predicate holds if a literal matches the value, and for no absent value. -/
theorem eval_isIn_eq_yes_iff : eval row (.set field .isIn literals) = .ok .yes ↔
    literals.any (row.value field).matchesLiteral = true := by
  rw [eval, Except.ok.injEq]
  by_cases hv : row.value field = .absent
  · rw [hv]
    refine iff_of_false (fun h => by cases h) ?_
    simp [Value.matchesLiteral]
  · rw [evalSet_eq hv, SetOperator.answer]
    cases literals.any _ <;> simp [Truth.ofBool]

/-! ### Members -/

/-- A literal that matches a value equals it, also by the rules of comparison. -/
theorem equalsLiteral_of_matchesLiteral (h : v.matchesLiteral literal = true) :
    equalsLiteral field literal v = .ok true := by
  cases v with
  | number x => exact congrArg Except.ok h
  -- The literal is the word for the boolean, as texts of booleans are written.
  | boolean b =>
    rw [Value.matchesLiteral, decide_eq_true_iff] at h
    rw [equalsLiteral, h]
    simp
  | text s =>
    rw [Value.matchesLiteral, Bool.or_eq_true, decide_eq_true_iff] at h
    rw [equalsLiteral]
    -- The same text, or a numeral for the same number.
    rcases h with rfl | h
    · simp [Text.equalIgnoringCase]
    · rw [h, Bool.or_true]
  | absent => cases h

/-- The equality with a literal that matches holds. -/
theorem eval_equal_of_matchesLiteral (h : (row.value field).matchesLiteral literal = true) :
    eval row (.simple field .equal (some literal)) = .ok .yes := by
  have hv : row.value field ≠ .absent := fun hv => by
    rw [hv] at h
    cases h
  rw [eval, evalSimple_of_compares rfl fun hkind => hv (Value.kind_eq_absent_iff.1 hkind)]
  simp only [compareWith, equalsLiteral_of_matchesLiteral h]
  rfl

/-- An equality fails only where a boolean is compared with what is no boolean word. -/
theorem eval_equal_eq_error_iff {e : Failure} :
    eval row (.simple field .equal (some literal)) = .error e ↔
      (row.value field).kind = .boolean ∧ Text.boolean? literal = none ∧
        e = .ofCause (.invalidLiteral field literal) := by
  rw [eval]
  by_cases hv : (row.value field).kind = .absent
  · rw [Value.kind_eq_absent_iff.1 hv]
    exact iff_of_false (fun h => by cases h) fun h => by cases h.1
  · rw [evalSimple_of_compares rfl hv]
    exact (compareWith_eq_error_iff_of_isEquality rfl).trans equalsLiteral_eq_error_iff

/-- With a literal that matches, the disjunction holds, or fails at a literal before it. -/
theorem eval_equalsOneOf_of_member (h : literals.any (row.value field).matchesLiteral = true) :
    eval row (equalsOneOf field literals) = .ok .yes ∨
      (row.value field).kind = .boolean ∧ ∃ literal ∈ literals, Text.boolean? literal = none ∧
        eval row (equalsOneOf field literals) =
          .error (.ofCause (.invalidLiteral field literal)) := by
  obtain ⟨literal, hliteral, hmatches⟩ := List.any_eq_true.1 h
  obtain ⟨before, after, rfl⟩ := List.append_of_mem hliteral
  rw [equalsOneOf, List.map_append, List.map_cons]
  rcases eval_compound_of_decider BooleanOperator.or_join (eval_equal_of_matchesLiteral hmatches)
    (before.map fun literal => .simple field .equal (some literal))
    (after.map fun literal => .simple field .equal (some literal)) with
    hyes | ⟨earlier, hearlier, e, he, hfails⟩
  · exact .inl hyes
  · -- Only an equality of a boolean fails, at a literal that is no boolean word.
    obtain ⟨wrong, hwrong, rfl⟩ := List.mem_map.1 hearlier
    obtain ⟨hkind, hword, rfl⟩ := eval_equal_eq_error_iff.1 he
    exact .inr ⟨hkind, wrong, List.mem_append_left _ hwrong, hword, hfails⟩

/-! ### Numbers and absent values -/

/-- For a number, equality is what membership asks for, and neither fails. -/
theorem eval_equalsOneOf_of_number {x : Float} (h : row.value field = .number x) :
    eval row (equalsOneOf field literals) = eval row (.set field .isIn literals) := by
  have hequal : (fun literal => evalSimple field .equal (some literal) (.number x)) =
      fun literal => .ok (Truth.ofBool ((Value.number x).matchesLiteral literal)) := by
    funext literal
    exact evalSimple_of_compares rfl nofun
  have hnumber : row.value field ≠ .absent := by simp [h]
  rw [eval_equalsOneOf, eval, evalSet_eq hnumber, h, hequal, Truth.any_map_ofBool]
  rfl

/-- For an absent value all equalities are unknown. -/
theorem eval_equalsOneOf_of_absent (h : row.value field = .absent) (hne : literals ≠ []) :
    eval row (equalsOneOf field literals) = .ok .unknown := by
  have hequal : (fun literal => evalSimple field .equal (some literal) .absent) =
      fun _ => .ok .unknown := rfl
  have hok : ∀ part ∈ literals.map fun _ => (.ok .unknown : Outcome Truth),
      ∃ answer, part = .ok answer := List.forall_mem_map.2 fun _ _ => ⟨_, rfl⟩
  rw [eval_equalsOneOf, h, hequal, Truth.any_eq, Truth.decided_of_ok hok]
  simp [hne]

/-- What is among literals equals one of them: where the set predicate holds, the disjunction of
    equalities holds as well, or fails, for a boolean only, at a literal that is no boolean word.
    For a number the two always come to the same, and for an absent value both are unknown, as
    long as there is a literal to compare it with. -/
theorem isIn_refines_equal (row : Row) (field : String) (literals : List String) :
    (eval row (.set field .isIn literals) = .ok .yes →
      eval row (equalsOneOf field literals) = .ok .yes ∨
        (row.value field).kind = .boolean ∧ ∃ literal ∈ literals, Text.boolean? literal = none ∧
          eval row (equalsOneOf field literals) =
            .error (.ofCause (.invalidLiteral field literal))) ∧
    ((row.value field).kind = .number →
      eval row (equalsOneOf field literals) = eval row (.set field .isIn literals)) ∧
    (row.value field = .absent → literals ≠ [] →
      eval row (.set field .isIn literals) = .ok .unknown ∧
        eval row (equalsOneOf field literals) = .ok .unknown) := by
  refine ⟨fun h => eval_equalsOneOf_of_member (eval_isIn_eq_yes_iff.1 h), fun hkind => ?_,
    fun habsent hne => ⟨?_, eval_equalsOneOf_of_absent habsent hne⟩⟩
  · cases hv : row.value field with
    | number x => exact eval_equalsOneOf_of_number hv
    | boolean | text | absent =>
      rw [hv] at hkind
      cases hkind
  · rw [eval, habsent]
    rfl

/-- The day is found by both under another numeral. Whether there is wind is a boolean, and a
    literal that is none makes the equalities fail; the weight is not known. -/
theorem isIn_refines_equal_windy :
    let row : Row := Record.ofList [("day", .number 3), ("windy", .boolean true)]
    let words := ["perhaps", "TRUE"]
    let days := ["first", "3.0"]
    eval row (.set "windy" .isIn words) = .ok .yes ∧
      (eval row (equalsOneOf "windy" words) = .ok .yes ∨
        (row.value "windy").kind = .boolean ∧ ∃ literal ∈ words, Text.boolean? literal = none ∧
          eval row (equalsOneOf "windy" words) =
            .error (.ofCause (.invalidLiteral "windy" literal))) ∧
      (row.value "day").kind = .number ∧
      eval row (equalsOneOf "day" days) = eval row (.set "day" .isIn days) ∧
      row.value "weight" = .absent ∧ days ≠ [] ∧
      eval row (.set "weight" .isIn days) = .ok .unknown ∧
      eval row (equalsOneOf "weight" days) = .ok .unknown := by
  intro row words days
  have hwindy : eval row (.set "windy" .isIn words) = .ok .yes := rfl
  exact ⟨hwindy, (isIn_refines_equal row "windy" words).1 hwindy, rfl,
    (isIn_refines_equal row "day" days).2.1 rfl, rfl, nofun,
    (isIn_refines_equal row "weight" days).2.2 rfl nofun⟩

end Predicate

end Scoring
