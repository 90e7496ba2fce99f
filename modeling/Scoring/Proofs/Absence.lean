import Scoring.Proofs.Causes
import Scoring.Proofs.Positions

/-!
# Where absence comes from

An expression may have an absent value, and absence has three sources (`Expression.MakesAbsent`): a
field that is absent and has no literal in its place, a constant that is absent, and a quotient by
zero. No coercion and no comparison makes a value absent. So if an expression is absent, it
contains one of the sources (`Expression.exists_source_of_absent`).

An expression may also fail, and then it is for one of two causes only. With this, all is said that
an evaluation can come to (`Expression.absence_and_failure`): it never looks for an argument where
there is none, nor is it asked to calculate with a function that is not an arithmetic one.
-/

namespace Scoring

/-! ### Coercions and fields -/

namespace Value

variable {v : Value}

/-- A literal of a document is a number or a text, and never absent. -/
theorem ofLiteral_ne_absent (literal : String) : ofLiteral literal ≠ .absent := by
  rw [ofLiteral]
  split
  · exact nofun
  · exact nofun

/-- A coercion neither makes a value absent nor gives an absent one a value. -/
theorem coerce_eq_absent_iff {dataType : DataType} :
    v.coerce dataType = .ok .absent ↔ v = .absent := by
  constructor
  · intro h
    -- Every data type makes a number, a text or a boolean of a value that is there.
    by_contra hv
    rw [coerce.eq_def, if_neg hv] at h
    cases dataType with
    | string => cases h
    | integer | float | double =>
      obtain ⟨_, _, h⟩ := Outcome.map_eq_ok_iff.1 h
      cases h
    | boolean =>
      cases hboolean : v.boolean? <;> simp [hboolean, Outcome.fail] at h
  · rintro rfl
    rfl

/-- The coercion to a number succeeds for the values that have one, and gives it. -/
theorem toNumber_eq_ok_iff {x : Float} : v.toNumber = .ok x ↔ v.number? = some x := by
  rw [toNumber]
  cases v.number? <;> simp [Outcome.fail]

/-- Coercing is as neutral about absence if no data type is declared. -/
theorem coerceTo_eq_absent_iff {dataType : Option DataType} :
    v.coerceTo dataType = .ok .absent ↔ v = .absent := by
  cases dataType with
  | none => rw [coerceTo, Except.ok.injEq]
  | some dataType => exact coerce_eq_absent_iff

end Value

/-- A reference is absent if its field is, and no literal is declared for that. The data type
    has no say in it. -/
theorem FieldRef.eval_eq_absent_iff {row : Row} {ref : FieldRef} :
    ref.eval row = .ok .absent ↔ row.value ref.field = .absent ∧ ref.mapMissingTo = none := by
  rw [eval, Value.coerceTo_eq_absent_iff]
  split
  · -- The literal stands in for the absent field.
    rename_i hvalue hliteral
    simp [hvalue, hliteral, Value.ofLiteral_ne_absent]
  · rename_i hliteral
    cases hmap : ref.mapMissingTo with
    | none => simp
    | some literal =>
      simp only [reduceCtorEq, and_false, iff_false]
      exact fun hvalue => hliteral literal hvalue hmap

/-! ### Functions -/

namespace Function

variable {function : Function} {arguments : List (Outcome Value)} {v w : Value}

/-- A function of one argument has a value for exactly one argument, if that has a value. -/
theorem unary_eq_ok_iff {f : Value → Outcome Value} :
    unary function f arguments = .ok v ↔ ∃ w, arguments = [.ok w] ∧ f w = .ok v := by
  rw [unary.eq_def]
  split
  · simp [Outcome.bind_eq_ok_iff]
  · rename_i hne
    refine iff_of_false (fun h => by cases h) ?_
    rintro ⟨w, rfl, _⟩
    exact hne _ rfl

/-- A function of two arguments has a value for exactly two arguments, if both have values. -/
theorem binary_eq_ok_iff {f : Value → Value → Outcome Value} {value : Value} :
    binary function f arguments = .ok value ↔
      ∃ v w, arguments = [.ok v, .ok w] ∧ f v w = .ok value := by
  rw [binary.eq_def]
  split
  · simp [Outcome.bind_eq_ok_iff, and_assoc]
  · rename_i hne
    refine iff_of_false (fun h => by cases h) ?_
    rintro ⟨v, w, rfl, _⟩
    exact hne _ _ rfl

/-- Arithmetic is absent for an absent operand, or for numbers that the operation is not defined
    for. -/
theorem arithmetic_eq_absent_iff {operation : Float → Float → Option Float} :
    arithmetic operation v w = .ok .absent ↔ v = .absent ∨ w = .absent ∨
      ∃ x y, v.number? = some x ∧ w.number? = some y ∧ operation x y = none := by
  rw [arithmetic, ← or_assoc]
  split
  · rename_i habsent
    exact iff_of_true rfl (.inl habsent)
  · rename_i hpresent
    simp only [Outcome.bind_eq_ok_iff, Value.toNumber_eq_ok_iff, or_iff_right hpresent]
    constructor
    · rintro ⟨x, hx, y, hy, h⟩
      refine ⟨x, y, hx, hy, ?_⟩
      cases hresult : operation x y with
      | none => rfl
      | some z => simp [hresult] at h
    · rintro ⟨x, y, hx, hy, hnone⟩
      exact ⟨x, hx, y, hy, by rw [hnone]⟩

/-- A comparison of values is absent if, and only if, one of them is. -/
theorem comparison_eq_absent_iff {answer : Bool} :
    comparison answer v w = .absent ↔ v = .absent ∨ w = .absent := by
  rw [comparison]
  split <;> simp_all

/-- A membership is absent for an absent needle only. The candidates are not looked at in this
    case, and may have failed. -/
theorem membership_eq_absent_iff {answer : Bool} :
    membership function answer arguments = .ok .absent ↔
      ∃ candidates, arguments = .ok .absent :: candidates := by
  cases arguments with
  | nil => exact iff_of_false nofun nofun
  | cons needle candidates =>
    rw [membership, Outcome.bind_eq_ok_iff]
    constructor
    · rintro ⟨v, rfl, h⟩
      split at h
      · rename_i hv
        exact ⟨candidates, by rw [hv]⟩
      · obtain ⟨found, _, h⟩ := Outcome.bind_eq_ok_iff.1 h
        cases h
    · rintro ⟨_, h⟩
      obtain ⟨rfl, rfl⟩ := List.cons_eq_cons.1 h
      exact ⟨.absent, rfl, if_pos rfl⟩

/-- A function is absent only if one of its arguments is, or as a quotient by zero. -/
theorem absent_of_apply (h : function.apply arguments = .ok .absent) :
    .ok .absent ∈ arguments ∨ function = .divide ∧
      ∃ v w x, arguments = [.ok v, .ok w] ∧ w.number? = some x ∧ x == 0 := by
  have hoperand : ∀ {v w : Value}, v = .absent ∨ w = .absent →
      .ok .absent ∈ ([.ok v, .ok w] : List (Outcome Value)) := by
    rintro v w (rfl | rfl) <;> simp
  cases function with
  -- These have a result for all numbers, so that an operand is absent.
  | add | subtract | multiply =>
    obtain ⟨v, w, rfl, hvalue⟩ := binary_eq_ok_iff.1 h
    rcases arithmetic_eq_absent_iff.1 hvalue with hv | hw | ⟨_, _, _, _, hnone⟩
    · exact .inl (hoperand (.inl hv))
    · exact .inl (hoperand (.inr hw))
    · cases hnone
  -- The one operation that is not defined for some numbers.
  | divide =>
    obtain ⟨v, w, rfl, hvalue⟩ := binary_eq_ok_iff.1 h
    rcases arithmetic_eq_absent_iff.1 hvalue with hv | hw | ⟨_, y, _, hnumber, hnone⟩
    · exact .inl (hoperand (.inl hv))
    · exact .inl (hoperand (.inr hw))
    · exact .inr ⟨rfl, v, w, y, rfl, hnumber, by simpa using hnone⟩
  -- Tests of absence have an answer for every value.
  | isMissing | isNotMissing =>
    obtain ⟨_, _, hvalue⟩ := unary_eq_ok_iff.1 h
    cases hvalue
  | equal | notEqual =>
    obtain ⟨v, w, rfl, hvalue⟩ := binary_eq_ok_iff.1 h
    exact .inl (hoperand (comparison_eq_absent_iff.1 (Except.ok.inj hvalue)))
  | isIn | isNotIn =>
    obtain ⟨candidates, rfl⟩ := membership_eq_absent_iff.1 h
    exact .inl List.mem_cons_self

end Function

/-! ### Expressions -/

namespace Expression

/-- An expression contains itself, and what its arguments contain. -/
inductive Contains : Expression → Expression → Prop
  | self (expression : Expression) : Contains expression expression
  | argument {function : Function} {arguments : List Expression} {argument part : Expression} :
      argument ∈ arguments → Contains argument part → Contains (.apply function arguments) part

/-- A source of absence. -/
inductive MakesAbsent (row : Row) : Expression → Prop
  /-- The field is absent, and there is no literal in its place. -/
  | field {ref : FieldRef} : row.value ref.field = .absent → ref.mapMissingTo = none →
      MakesAbsent row (.fieldRef ref)
  | constant {dataType : Option DataType} : MakesAbsent row (.constant .absent dataType)
  /-- The divisor has a value that is zero. -/
  | quotient {dividend divisor : Expression} {v : Value} {x : Float} :
      divisor.eval row = .ok v → v.number? = some x → x == 0 →
      MakesAbsent row (.apply .divide [dividend, divisor])

/-- Absence has a source: it passes from the argument of a function to the function, and a
    quotient by zero is a source itself. -/
theorem exists_source_of_absent {row : Row} {expression : Expression}
    (h : expression.eval row = .ok .absent) :
    ∃ part, Contains expression part ∧ MakesAbsent row part := by
  induction expression using Expression.induction with
  | fieldRef ref =>
    obtain ⟨hvalue, hliteral⟩ := FieldRef.eval_eq_absent_iff.1 h
    exact ⟨_, .self _, .field hvalue hliteral⟩
  | constant value dataType =>
    obtain rfl := Value.coerceTo_eq_absent_iff.1 h
    exact ⟨_, .self _, .constant⟩
  | apply function arguments ih =>
    rw [eval, evalEach_eq_map] at h
    rcases Function.absent_of_apply h with hmem | ⟨rfl, v, w, x, harguments, hnumber, hzero⟩
    · -- An absent argument has a source, which the whole expression contains too.
      obtain ⟨argument, hargument, habsent⟩ := List.mem_map.1 hmem
      obtain ⟨part, hcontains, hmakes⟩ := ih argument hargument habsent
      exact ⟨part, .argument hargument hcontains, hmakes⟩
    · obtain ⟨dividend, divisor, rfl, _, hdivisor⟩ : ∃ dividend divisor,
          arguments = [dividend, divisor] ∧ dividend.eval row = .ok v ∧
            divisor.eval row = .ok w := by
        simpa [List.map_eq_cons_iff, and_assoc] using harguments
      exact ⟨_, .self _, .quotient hdivisor hnumber hzero⟩

/-- What an expression comes to for a row.

    * If its value is absent, it contains a source of absence.
    * If it fails, it is because a function does not take as many arguments as it has, or because a
      value cannot be coerced.
    * Were it evaluated with all arguments looked for at their positions, it would come to the same:
      no argument is looked for that is not there, and arithmetic is asked of arithmetic functions
      only, however many arguments the functions have. -/
theorem absence_and_failure (row : Row) (expression : Expression) :
    (expression.eval row = .ok .absent →
      ∃ part, Contains expression part ∧ MakesAbsent row part) ∧
    (∀ e, expression.eval row = .error e →
      (∃ function expected actual, e = .ofCause (.invalidArity function expected actual)) ∨
      ∃ value dataType, e = .ofCause (.coercion value dataType)) ∧
    (∀ value, expression.evalAt row = .ok value ↔ expression.eval row = .ok value) ∧
    (∀ fault, expression.evalAt row = .error fault ↔
      ∃ e, fault = .failure e ∧ expression.eval row = .error e) := by
  rw [evalAt_eq]
  refine ⟨exists_source_of_absent, fun e he => ?_, fun value => Outcome.faultless_eq_ok_iff,
    fun fault => Outcome.faultless_eq_error_iff⟩
  · rcases expression.failsOnly_eval row e he with ⟨function, expected, actual⟩ | ⟨value, dataType⟩
    · exact .inl ⟨function, expected, actual, rfl⟩
    · exact .inr ⟨value, dataType, rfl⟩

/-- Nothing is missing, but what is compared with a quotient by zero has no answer. -/
example :
    let size : Expression := .fieldRef ⟨"size", none, none⟩
    let quotient : Expression := .apply .divide [size, .constant (.text "0.0") none]
    (Expression.apply .equal [size, quotient]).eval (.single "size" (.number 2)) = .ok .absent := by
  decide

end Expression

end Scoring
