import Scoring.Proofs.Induction
import Scoring.Proofs.Mentions
import Scoring.Proofs.Nesting

/-!
# Predicates that do not fit

A predicate fails because of its form, not because of the data. A simple predicate is a *misfit*
for a field (`Predicate.Misfit`) if it has nothing to compare the field with, if its operator has
no meaning for values of this kind, or if its literal does not read as what the operator needs.
Whether it is one depends on the kind of the value only, so no value fails to be coerced, and an
absent value fits every predicate.

A compound asks its parts in their order, up to the first one with an answer that stops the
operator, so not all parts need be reached (`Predicate.Reaches`). A predicate fails if and only if
a misfit is reached, and fails for its cause (`Predicate.eval_eq_error_iff`).
-/

namespace Scoring

namespace Operator

/-- The operators that ask for the same value or for another one. -/
def isEquality : Operator → Bool
  | equal | notEqual => true
  | _ => false

/-- The operators that ask for the order of numbers. -/
def isOrdering : Operator → Bool
  | lessThan | lessOrEqual | greaterThan | greaterOrEqual => true
  | _ => false

/-- The operators that ask for a member, as set predicates do. -/
def isMembership : Operator → Bool
  | isIn | isNotIn => true
  | _ => false

/-- The operators that compare a value with a literal; the others ask whether it is missing. -/
def compares : Operator → Bool
  | isMissing | isNotMissing => false
  | _ => true

/-- Operators that do not ask for missing values compare. -/
theorem compares_of_ne {operator : Operator} (hmissing : operator ≠ .isMissing)
    (hpresent : operator ≠ .isNotMissing) : operator.compares := by
  cases operator with
  | isMissing | isNotMissing => contradiction
  | _ => rfl

/-- What is compared is equality, order or membership. -/
theorem compares_iff {operator : Operator} :
    operator.compares ↔ operator.isEquality ∨ operator.isOrdering ∨ operator.isMembership := by
  cases operator <;> decide

end Operator

/-- Only an absent value is of the absent kind. -/
theorem Value.kind_eq_absent_iff {v : Value} : v.kind = .absent ↔ v = .absent := by
  cases v <;> simp [kind]

namespace Predicate

/-! ### One field -/

/-- A simple predicate does not fit a field whose value is of a kind, and fails for a cause. -/
inductive Misfit (field : String) : Operator → Option String → ValueKind → Cause → Prop
  /-- There is no literal to compare the field with. -/
  | valueless {operator : Operator} {kind : ValueKind} : operator.compares → kind ≠ .absent →
      Misfit field operator none kind (.comparisonWithoutValue operator field)
  /-- Only set predicates ask for members. -/
  | membership {operator : Operator} {literal : String} {kind : ValueKind} :
      operator.isMembership → kind ≠ .absent →
      Misfit field operator (some literal) kind (.unsupportedOperator operator kind)
  /-- There is no order of booleans. -/
  | unordered {operator : Operator} {literal : String} : operator.isOrdering →
      Misfit field operator (some literal) .boolean (.unsupportedOperator operator .boolean)
  /-- A boolean is compared with what is no boolean word. -/
  | word {operator : Operator} {literal : String} : operator.isEquality →
      Text.boolean? literal = none →
      Misfit field operator (some literal) .boolean (.invalidLiteral field literal)
  /-- The bound for a number or a text does not read as a number. -/
  | bound {operator : Operator} {literal : String} {kind : ValueKind} : operator.isOrdering →
      kind = .number ∨ kind = .text → Number.read? literal = none →
      Misfit field operator (some literal) kind (.invalidLiteral field literal)

variable {field literal : String} {operator : Operator} {value : Option String} {v : Value}
  {cause : Cause} {e : Failure}

/-- Only a comparison can be a misfit. -/
theorem Misfit.compares {kind : ValueKind} (h : Misfit field operator value kind cause) :
    operator.compares := by
  cases h with
  | valueless h => exact h
  | membership h => exact Operator.compares_iff.2 (.inr (.inr h))
  | unordered h | bound h => exact Operator.compares_iff.2 (.inr (.inl h))
  | word h => exact Operator.compares_iff.2 (.inl h)

/-- Nothing is a misfit for an absent value. -/
theorem Misfit.ne_absent {kind : ValueKind} (h : Misfit field operator value kind cause) :
    kind ≠ .absent := by
  cases h with
  | valueless _ h | membership _ h => exact h
  | unordered | word => exact nofun
  | bound _ h => rcases h with rfl | rfl <;> exact nofun

/-- A misfit is a failure of the model. -/
theorem Misfit.kind_cause {kind : ValueKind} (h : Misfit field operator value kind cause) :
    cause.kind = .structural := by
  cases h <;> rfl

/-- An equality with a literal fails for a boolean and what is no boolean word. -/
theorem equalsLiteral_eq_error_iff : equalsLiteral field literal v = .error e ↔
    v.kind = .boolean ∧ Text.boolean? literal = none ∧
      e = .ofCause (.invalidLiteral field literal) := by
  cases v with
  | boolean b =>
    rw [equalsLiteral]
    cases Text.boolean? literal <;> simp [Value.kind, Outcome.fail, eq_comm]
  | _ => simp [equalsLiteral, Value.kind]

/-- A bound is refused for a boolean, and otherwise if it does not read as a number. -/
theorem compareWithBound_eq_error_iff {test : Float → Float → Bool} :
    compareWithBound field operator test literal v = .error e ↔
      v.kind = .boolean ∧ e = .ofCause (.unsupportedOperator operator .boolean) ∨
        v.kind ≠ .boolean ∧ Number.read? literal = none ∧
          e = .ofCause (.invalidLiteral field literal) := by
  rw [compareWithBound]
  by_cases hkind : v.kind = .boolean
  · simp [hkind, Outcome.fail, eq_comm]
  · cases Number.read? literal with
    | none => simp [hkind, Outcome.fail, eq_comm]
    | some bound => cases v.number? <;> simp [hkind]

/-- An equality and its opposite fail alike. -/
theorem compareWith_eq_error_iff_of_isEquality (h : operator.isEquality) :
    compareWith field operator literal v = .error e ↔ equalsLiteral field literal v = .error e := by
  cases operator with
  | equal | notEqual => exact Outcome.map_eq_error_iff
  | _ => cases h

/-- The operators of order test numbers against a bound, and differ only in the test. -/
theorem exists_compareWith_of_isOrdering (h : operator.isOrdering) :
    ∃ test, compareWith field operator literal v =
      compareWithBound field operator test literal v := by
  cases operator with
  | lessThan | lessOrEqual | greaterThan | greaterOrEqual => exact ⟨_, rfl⟩
  | _ => cases h

/-- The operators of membership are refused for a single literal. -/
theorem compareWith_of_isMembership (h : operator.isMembership) :
    compareWith field operator literal v = .fail (.unsupportedOperator operator v.kind) := by
  cases operator with
  | isIn | isNotIn => rfl
  | _ => cases h

/-- For a misfit, the comparison with a literal fails for its cause. -/
theorem Misfit.compareWith_eq (h : Misfit field operator (some literal) v.kind cause) :
    compareWith field operator literal v = .fail cause := by
  -- Of the value only its kind matters.
  generalize hkind : v.kind = kind at h
  cases h with
  | membership hoperator _ => rw [compareWith_of_isMembership hoperator, hkind]
  | word hoperator hword =>
    exact (compareWith_eq_error_iff_of_isEquality hoperator).2
      (equalsLiteral_eq_error_iff.2 ⟨hkind, hword, rfl⟩)
  | unordered hoperator =>
    obtain ⟨test, hcompare⟩ := exists_compareWith_of_isOrdering hoperator
    exact hcompare.trans (compareWithBound_eq_error_iff.2 (.inl ⟨hkind, rfl⟩))
  | bound hoperator hnumeric hbound =>
    have hne : v.kind ≠ .boolean := by rcases hnumeric with rfl | rfl <;> simp [hkind]
    obtain ⟨test, hcompare⟩ := exists_compareWith_of_isOrdering hoperator
    exact hcompare.trans (compareWithBound_eq_error_iff.2 (.inr ⟨hne, hbound, rfl⟩))

/-- A comparison with a literal fails only for a misfit. -/
theorem exists_misfit_of_compareWith (hoperator : operator.compares) (hv : v.kind ≠ .absent)
    (h : compareWith field operator literal v = .error e) :
    ∃ cause, Misfit field operator (some literal) v.kind cause ∧ e = .ofCause cause := by
  -- An equality, an order or a membership.
  rcases Operator.compares_iff.1 hoperator with hoperator | hoperator | hoperator
  · obtain ⟨hkind, hword, rfl⟩ :=
      equalsLiteral_eq_error_iff.1 ((compareWith_eq_error_iff_of_isEquality hoperator).1 h)
    exact ⟨_, hkind ▸ .word hoperator hword, rfl⟩
  · obtain ⟨test, hcompare⟩ := exists_compareWith_of_isOrdering hoperator
    rcases compareWithBound_eq_error_iff.1 (hcompare.symm.trans h) with
      ⟨hkind, rfl⟩ | ⟨hkind, hbound, rfl⟩
    · exact ⟨_, by rw [hkind]; exact .unordered hoperator, rfl⟩
    · have hnumeric : v.kind = .number ∨ v.kind = .text := by
        cases v <;> simp [Value.kind] at hkind hv ⊢
      exact ⟨_, .bound hoperator hnumeric hbound, rfl⟩
  · rw [compareWith_of_isMembership hoperator] at h
    exact ⟨_, .membership hoperator hv, (Except.error.inj h).symm⟩

/-- For a value that is there, a comparison needs a literal, and compares with it. -/
theorem evalSimple_of_compares (hoperator : operator.compares) (hv : v.kind ≠ .absent) :
    evalSimple field operator value v = match value with
      | none => .fail (.comparisonWithoutValue operator field)
      | some literal => compareWith field operator literal v := by
  rw [Ne, Value.kind_eq_absent_iff] at hv
  cases operator with
  | isMissing | isNotMissing => cases hoperator
  | _ => exact if_neg hv

/-- Nothing is known of how an absent value compares. -/
theorem evalSimple_absent (hoperator : operator.compares) :
    evalSimple field operator value .absent = .ok .unknown := by
  cases operator with
  | isMissing | isNotMissing => cases hoperator
  | _ => rfl

/-- There is an answer if the operator asks whether the value is missing, and if it is absent. -/
theorem exists_evalSimple_eq_ok (h : ¬ (operator.compares ∧ v.kind ≠ .absent)) :
    ∃ answer, evalSimple field operator value v = .ok answer := by
  cases operator with
  | isMissing | isNotMissing => exact ⟨_, rfl⟩
  | _ =>
    obtain rfl := Value.kind_eq_absent_iff.1 (Decidable.not_not.1 fun hv => h ⟨rfl, hv⟩)
    exact ⟨_, evalSimple_absent rfl⟩

/-- A simple predicate fails for the causes that it is a misfit for. -/
theorem evalSimple_eq_error_iff : evalSimple field operator value v = .error e ↔
    ∃ cause, Misfit field operator value v.kind cause ∧ e = .ofCause cause := by
  by_cases hcompares : operator.compares ∧ v.kind ≠ .absent
  · obtain ⟨hoperator, hv⟩ := hcompares
    rw [evalSimple_of_compares hoperator hv]
    cases value with
    | none =>
      constructor
      · exact fun h => ⟨_, .valueless hoperator hv, (Except.error.inj h).symm⟩
      · rintro ⟨_, ⟨_, _⟩, rfl⟩
        rfl
    | some literal =>
      constructor
      · exact exists_misfit_of_compareWith hoperator hv
      · rintro ⟨_, hmisfit, rfl⟩
        exact hmisfit.compareWith_eq
  · obtain ⟨answer, hanswer⟩ := exists_evalSimple_eq_ok hcompares
    rw [hanswer]
    refine iff_of_false nofun ?_
    rintro ⟨_, hmisfit, _⟩
    exact hcompares ⟨hmisfit.compares, hmisfit.ne_absent⟩

/-! ### Compounds -/

/-- The evaluation of a predicate for a row comes to another one: itself, or one that it comes to
    in a part, if no part before that one has an answer that stops the operator, or fails. -/
inductive Reaches (row : Row) : Predicate → Predicate → Prop
  | self (predicate : Predicate) : Reaches row predicate predicate
  | part {operator : BooleanOperator} {before after : List Predicate} {part reached : Predicate} :
      (∀ earlier ∈ before, ∃ answer, earlier.eval row = .ok answer ∧ ¬ operator.stopsAt answer) →
      Reaches row part reached → Reaches row (.compound operator (before ++ part :: after)) reached

variable {row : Row} {predicate reached : Predicate}

/-- What the evaluation comes to asks about fields that the predicate mentions. -/
theorem Reaches.mentions_subset (h : Reaches row predicate reached) :
    reached.mentions ⊆ predicate.mentions := by
  induction h with
  | self => exact List.Subset.refl _
  | part _ _ ih =>
    rw [mentions, mentionsEach_eq_flatMap]
    exact List.Subset.trans ih
      (subset_flatMap_of_mem (List.mem_append_right _ List.mem_cons_self))

/-- A compound fails as the first part does that fails, provided that no part before it stops the
    operator. -/
theorem eval_compound_eq_error_iff {join : BooleanOperator} {parts : List Predicate} :
    eval row (.compound join parts) = .error e ↔
      ∃ before part after, parts = before ++ part :: after ∧
        (∀ earlier ∈ before, ∃ answer, earlier.eval row = .ok answer ∧ ¬ join.stopsAt answer) ∧
        part.eval row = .error e := by
  induction parts with
  | nil =>
    refine iff_of_false (by cases join <;> exact nofun) ?_
    rintro ⟨before, part, after, hsplit, _⟩
    exact List.cons_ne_nil _ _ (List.append_eq_nil_iff.1 hsplit.symm).2
  | cons part parts ih =>
    rw [eval_compound] at ih ⊢
    rw [List.map_cons, BooleanOperator.join_cons, BooleanOperator.andThen_eq_error_iff, ih]
    constructor
    · -- The first part fails, or it has an answer with which the operator goes on to the others.
      rintro (hpart | ⟨answer, hpart, hstops, before, failing, after, rfl, hbefore, hfails⟩)
      · exact ⟨[], part, parts, rfl, nofun, hpart⟩
      · exact ⟨part :: before, failing, after, rfl,
          List.forall_mem_cons.2 ⟨⟨answer, hpart, hstops⟩, hbefore⟩, hfails⟩
    · rintro ⟨before, failing, after, hsplit, hbefore, hfails⟩
      rcases before with _ | ⟨first, before⟩
      · obtain ⟨rfl, rfl⟩ := List.cons_eq_cons.1 hsplit
        exact .inl hfails
      · obtain ⟨rfl, rfl⟩ := List.cons_eq_cons.1 hsplit
        obtain ⟨⟨answer, hpart, hstops⟩, hbefore⟩ := List.forall_mem_cons.1 hbefore
        exact .inr ⟨answer, hpart, hstops, before, failing, after, rfl, hbefore, hfails⟩

/-- A predicate fails if and only if its evaluation comes to a misfit, and for the cause of this
    one. -/
theorem eval_eq_error_iff : predicate.eval row = .error e ↔
    ∃ field operator value cause, Reaches row predicate (.simple field operator value) ∧
      Misfit field operator value (row.value field).kind cause ∧ e = .ofCause cause := by
  constructor
  · intro h
    induction predicate using Predicate.induction with
    | always => cases h
    | never => cases h
    | simple field operator value =>
      rw [eval, evalSimple_eq_error_iff] at h
      obtain ⟨cause, hmisfit, he⟩ := h
      exact ⟨field, operator, value, cause, .self _, hmisfit, he⟩
    | set field operator literals => cases h
    | compound join parts ih =>
      obtain ⟨before, part, after, rfl, hbefore, hpart⟩ := eval_compound_eq_error_iff.1 h
      obtain ⟨field, operator, value, cause, hreaches, hmisfit⟩ :=
        ih part (List.mem_append_right _ List.mem_cons_self) hpart
      exact ⟨field, operator, value, cause, .part hbefore hreaches, hmisfit⟩
  · rintro ⟨field, operator, value, cause, hreaches, hmisfit, rfl⟩
    -- By induction on how the simple predicate is reached.
    generalize hreached : Predicate.simple field operator value = reached at hreaches
    induction hreaches with
    | self =>
      subst hreached
      rw [eval, evalSimple_eq_error_iff]
      exact ⟨cause, hmisfit, rfl⟩
    | @part _ before after part _ hbefore _ ih =>
      exact eval_compound_eq_error_iff.2 ⟨before, part, after, rfl, hbefore, ih hreached⟩

/-- A predicate fails if and only if its evaluation, which goes through the parts of compounds in
    their order until an answer stops it, comes to a simple predicate that does not fit its field.
    The failure is that of the model, and not of a value; where all fields that are asked for are
    absent there is none. -/
theorem eval_eq_error_iff_reaches (row : Row) (predicate : Predicate) :
    (∀ e, predicate.eval row = .error e ↔
      ∃ field operator value cause, Reaches row predicate (.simple field operator value) ∧
        Misfit field operator value (row.value field).kind cause ∧ e = .ofCause cause) ∧
    (∀ e, predicate.eval row = .error e → e.kind = .structural) ∧
    ((∀ field ∈ predicate.mentions, row.value field = .absent) →
      ∃ answer, predicate.eval row = .ok answer) := by
  refine ⟨fun e => eval_eq_error_iff, fun e he => ?_, fun habsent => ?_⟩
  · obtain ⟨field, operator, value, cause, _, hmisfit, rfl⟩ := eval_eq_error_iff.1 he
    exact hmisfit.kind_cause
  · cases heval : predicate.eval row with
    | ok answer => exact ⟨answer, rfl⟩
    | error e =>
      obtain ⟨field, operator, value, cause, hreaches, hmisfit, _⟩ := eval_eq_error_iff.1 heval
      -- The misfit would be for a field that is absent.
      have hfield : field ∈ predicate.mentions := hreaches.mentions_subset List.mem_cons_self
      exact absurd (congrArg Value.kind (habsent field hfield)) hmisfit.ne_absent

/-- The last part is not reached, and the size is compared with what is no number. Without any
    data nothing is compared. -/
theorem eval_eq_error_iff_reaches_tall :
    let light : Predicate := .simple "weight" .lessThan (some "5")
    let small : Predicate := .simple "size" .lessThan (some "tall")
    let strange : Predicate := .simple "size" .isIn none
    let guard : Predicate := .compound .or [light, .never, small, strange]
    let row : Row := .single "size" (.number 3)
    let e : Failure := .ofCause (.invalidLiteral "size" "tall")
    guard.eval row = .error e ∧ e.kind = .structural ∧
      (∀ field ∈ guard.mentions, (∅ : Row).value field = .absent) ∧
      ∃ answer, guard.eval ∅ = .ok answer := by
  intro light small strange guard row e
  have hbefore : ∀ earlier ∈ [light, .never],
      ∃ answer, earlier.eval row = .ok answer ∧ ¬ BooleanOperator.or.stopsAt answer :=
    List.forall_mem_cons.2 ⟨⟨.unknown, rfl, nofun⟩,
      List.forall_mem_singleton.2 ⟨.no, by rw [eval], nofun⟩⟩
  have hreaches : Reaches row (.compound .or ([light, .never] ++ small :: [strange])) small :=
    .part hbefore (.self small)
  have hmisfit : Misfit "size" .lessThan (some "tall") .number (.invalidLiteral "size" "tall") :=
    .bound rfl (.inl rfl) rfl
  have hfails : guard.eval row = .error e := ((eval_eq_error_iff_reaches row guard).1 e).2
    ⟨"size", .lessThan, some "tall", _, hreaches, hmisfit, rfl⟩
  exact ⟨hfails, (eval_eq_error_iff_reaches row guard).2.1 e hfails, fun _ _ => rfl,
    (eval_eq_error_iff_reaches ∅ guard).2.2 fun _ _ => rfl⟩

end Predicate

end Scoring
