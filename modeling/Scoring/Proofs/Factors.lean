import Scoring.Proofs.Outcome
import Scoring.Proofs.Whole

/-!
# Factors

A term multiplies the numbers of its factors in their order, up to the first factor that has
none (`Predictor.product_of_firstWithoutNumber?`). Two kinds of factors have no number. If the
factor is missing, there is no product, and the term contributes nothing; if its value is there
but reads as no number (`FieldRef.Unreadable`), the term fails. So a missing factor drops a term
only as long as it is not preceded by an unreadable one, and it does so in every order of the
factors only if none of them is unreadable (`Predictor.contribution_term_of_missing`).

A term with a single factor contributes what the value of the factor does
(`Predictor.contribution_single`). That is the value which an expression has for the same
reference, unless the field holds an empty text and the reference has a literal for what is
missing: a term puts the literal in place of every missing value, and an expression only in
place of an absent one (`Predictor.contribution_single_iff_eval`).
-/

namespace Scoring

namespace Value

variable {v : Value}

/-- What a value contributes with a coefficient: nothing if it is missing, and otherwise the
    multiple of its number. -/
def contribution (coefficient : Float) (v : Value) : Outcome Float :=
  if v.isMissing then .ok 0 else (coefficient * ·) <$> v.toNumber

/-- A missing value has no number: it is absent, or an empty text. -/
theorem number?_of_isMissing (h : v.isMissing) : v.number? = none := by
  cases v with
  | number x => cases h
  | boolean b => cases h
  | text s =>
    obtain rfl : s = "" := of_decide_eq_true h
    decide
  | absent => rfl

/-- A value with a number is not missing. -/
theorem isMissing_of_number? {x : Float} (h : v.number? = some x) : v.isMissing = false := by
  rw [Bool.eq_false_iff]
  intro hmissing
  rw [number?_of_isMissing hmissing] at h
  cases h

end Value

/-- A factor is there, but its value reads as no number. -/
def FieldRef.Unreadable (row : Row) (ref : FieldRef) : Prop :=
  (ref.factor row).isMissing = false ∧ (ref.factor row).number? = none

namespace Predictor

variable {row : Row} {ref : FieldRef} {factors : List FieldRef} {acc coefficient : Float}
  {name : Option String}

/-! ### Products -/

/-- A missing factor ends the product, and there is none. -/
theorem product_cons_of_missing (h : (ref.factor row).isMissing) :
    product row acc (ref :: factors) = .ok none := by
  rw [product]
  exact if_pos h

/-- A factor with a number is multiplied in. -/
theorem product_cons_of_number {x : Float} (h : (ref.factor row).number? = some x) :
    product row acc (ref :: factors) = product row (acc * x) factors := by
  have hthere : (ref.factor row).isMissing = false := Value.isMissing_of_number? h
  rw [product]
  simp only [hthere, Value.toNumber, h]
  rfl

/-- A factor that is there without a number is where the product fails. -/
theorem product_cons_of_unreadable (h : ref.Unreadable row) :
    product row acc (ref :: factors) = .fail (.coercion (ref.factor row) .double) := by
  rw [product]
  simp only [h.1, Value.toNumber, h.2]
  rfl

/-- The first factor that has no number. -/
def firstWithoutNumber? (row : Row) (factors : List FieldRef) : Option FieldRef :=
  factors.find? fun ref => (ref.factor row).number?.isNone

/-- Where a factor is missing, there is a first one without a number, which need not be it. -/
theorem exists_firstWithoutNumber? (h : ∃ ref ∈ factors, (ref.factor row).isMissing) :
    ∃ ref, firstWithoutNumber? row factors = some ref := by
  obtain ⟨ref, href, hmissing⟩ := h
  refine Option.isSome_iff_exists.1 (List.find?_isSome.2 ⟨ref, href, ?_⟩)
  rw [Value.number?_of_isMissing hmissing]
  rfl

/-- A product ends at the first factor without a number, in one way or the other. -/
theorem product_of_firstWithoutNumber? (h : firstWithoutNumber? row factors = some ref) :
    product row acc factors =
      if (ref.factor row).isMissing then .ok none
      else .fail (.coercion (ref.factor row) .double) := by
  induction factors generalizing acc with
  | nil => cases h
  | cons first rest ih =>
    rw [firstWithoutNumber?, List.find?_cons] at h
    cases hnumber : (first.factor row).number? with
    | none =>
      obtain rfl : first = ref := by simpa [hnumber] using h
      cases hmissing : (first.factor row).isMissing with
      | true => exact product_cons_of_missing hmissing
      | false => exact product_cons_of_unreadable ⟨hmissing, hnumber⟩
    | some x =>
      -- The first factor is multiplied in, and another one is the first without a number.
      rw [hnumber] at h
      rw [product_cons_of_number hnumber, ih h]

/-! ### Terms -/

/-- A term contributes nothing or fails, as its first factor without a number is missing or not. -/
theorem contribution_of_firstWithoutNumber? (h : firstWithoutNumber? row factors = some ref) :
    (term name coefficient factors).contribution row =
      if (ref.factor row).isMissing then .ok 0
      else .fail (.coercion (ref.factor row) .double) := by
  rw [contribution, product_of_firstWithoutNumber? h]
  split <;> rfl

/-- The first factor without a number decides what becomes of a term that has a missing factor.
    The term contributes nothing in every order of its factors if and only if none of them is
    unreadable. -/
theorem contribution_term_of_missing (hmissing : ∃ ref ∈ factors, (ref.factor row).isMissing) :
    (∃ ref, firstWithoutNumber? row factors = some ref ∧
      (term name coefficient factors).contribution row =
        if (ref.factor row).isMissing then .ok 0
        else .fail (.coercion (ref.factor row) .double)) ∧
    ((∀ permuted : List FieldRef, permuted.Perm factors →
        (term name coefficient permuted).contribution row = .ok 0) ↔
      ∀ ref ∈ factors, ¬ ref.Unreadable row) := by
  refine ⟨?_, ?_, ?_⟩
  · obtain ⟨ref, hfirst⟩ := exists_firstWithoutNumber? hmissing
    exact ⟨ref, hfirst, contribution_of_firstWithoutNumber? hfirst⟩
  · rintro hall ref href hunreadable
    obtain ⟨before, after, rfl⟩ := List.append_of_mem href
    -- With the unreadable factor in front, the term fails.
    have h := hall (ref :: (before ++ after)) List.perm_middle.symm
    rw [contribution, product_cons_of_unreadable hunreadable] at h
    cases h
  · intro hreadable permuted hperm
    obtain ⟨missing, hmem, hmissing⟩ := hmissing
    obtain ⟨ref, hfirst⟩ := exists_firstWithoutNumber? ⟨missing, hperm.mem_iff.2 hmem, hmissing⟩
    have href : ref ∈ factors := hperm.mem_iff.1 (List.mem_of_find?_eq_some hfirst)
    have hnumber : (ref.factor row).number? = none := by
      simpa using List.find?_some hfirst
    -- It has no number and can be read, so that it is missing.
    rw [contribution_of_firstWithoutNumber? hfirst, if_pos]
    by_contra hthere
    exact hreadable ref href ⟨Bool.not_eq_true _ ▸ hthere, hnumber⟩

/-- A missing weight drops the term, as it comes before a size that is no number. -/
theorem contribution_term_of_missing_weight :
    let weight : FieldRef := ⟨"weight", none, none⟩
    let size : FieldRef := ⟨"size", none, none⟩
    let row : Row := .single "size" (.text "large")
    (∃ ref ∈ [weight, size], (ref.factor row).isMissing) ∧
      (∃ ref, firstWithoutNumber? row [weight, size] = some ref ∧
        (term none 2 [weight, size]).contribution row =
          if (ref.factor row).isMissing then .ok 0
          else .fail (.coercion (ref.factor row) .double)) ∧
      ((∀ permuted : List FieldRef, permuted.Perm [weight, size] →
          (term none 2 permuted).contribution row = .ok 0) ↔
        ∀ ref ∈ [weight, size], ¬ ref.Unreadable row) := by
  intro weight size row
  have hmissing : ∃ ref ∈ [weight, size], (ref.factor row).isMissing :=
    ⟨weight, List.mem_cons_self, rfl⟩
  exact ⟨hmissing, contribution_term_of_missing hmissing⟩

/-- A size that is no number makes the term fail before it comes to the missing weight. -/
theorem exists_unreadable_before_missing :
    ¬ ∀ (row : Row) (name : Option String) (coefficient : Float) (factors : List FieldRef),
      (∃ ref ∈ factors, (ref.factor row).isMissing) →
      (term name coefficient factors).contribution row = .ok 0 := by
  intro hall
  have h := hall (.single "size" (.text "large")) none 2
    [⟨"size", none, none⟩, ⟨"weight", none, none⟩] (by decide)
  revert h
  decide

/-! ### Single factors -/

/-- A term with one factor contributes what the value of this factor does. -/
theorem contribution_single (row : Row) (name : Option String) (coefficient : Float)
    (ref : FieldRef) :
    (term name coefficient [ref]).contribution row = (ref.factor row).contribution coefficient := by
  cases hnumber : (ref.factor row).number? with
  | some x =>
    have hthere : (ref.factor row).isMissing = false := Value.isMissing_of_number? hnumber
    have hproduct : product row 1 [ref] = .ok (some x) := by
      rw [product_cons_of_number hnumber, product, Double.one_mul]
    rw [contribution, hproduct, Value.contribution, hthere, Value.toNumber, hnumber]
    rfl
  | none =>
    have hfirst : firstWithoutNumber? row [ref] = some ref := by
      rw [firstWithoutNumber?, List.find?_cons, hnumber]
      rfl
    rw [contribution_of_firstWithoutNumber? hfirst, Value.contribution, Value.toNumber, hnumber]
    split <;> rfl

end Predictor

/-- Unless the literal is empty, it contributes something with some coefficient, or fails. -/
theorem Value.exists_contribution_ofLiteral_ne {literal : String} (h : literal ≠ "") :
    ∃ coefficient, (ofLiteral literal).contribution coefficient ≠ .ok 0 := by
  rw [ofLiteral]
  cases hread : Number.read? literal with
  | none =>
    refine ⟨0, ?_⟩
    rw [contribution, isMissing, decide_eq_false h, toNumber, number?, hread]
    nofun
  | some x =>
    have hcontribution : ∀ c : Float, (number x).contribution c = .ok (c * x) := fun _ => rfl
    -- A zero is multiplied to a negative zero, which is another double.
    by_cases hx : x = 0
    · refine ⟨-1, ?_⟩
      rw [hcontribution, hx]
      decide
    · refine ⟨1, ?_⟩
      rw [hcontribution, Double.one_mul]
      exact fun h => hx (Except.ok.inj h)

namespace FieldRef

variable {row : Row} {field : String} {replacement : Option String}

/-- A reference to an empty text has it as its value: no literal takes its place. -/
theorem eval_of_empty (h : row.value field = .text "") :
    eval row ⟨field, none, replacement⟩ = .ok (.text "") := by
  rw [eval, h]
  rfl

/-- As a factor, an empty text is replaced with the literal. -/
theorem factor_of_empty {literal : String} (h : row.value field = .text "") :
    factor row ⟨field, none, some literal⟩ = .ofLiteral literal := by
  rw [factor, h]
  rfl

/-- Without a data type the factor is the value of the reference, unless a literal takes the
    place of an empty text. -/
theorem eval_eq_factor
    (h : ¬ (row.value field = .text "" ∧ ∃ literal ∈ replacement, literal ≠ "")) :
    eval row ⟨field, none, replacement⟩ = .ok (factor row ⟨field, none, replacement⟩) := by
  rw [eval, factor]
  cases replacement with
  | none => cases row.value field <;> rfl
  | some literal =>
    cases hvalue : row.value field with
    | number x => rfl
    | boolean b => rfl
    | absent => rfl
    | text s =>
      -- Of the texts only the empty one counts as missing for a factor.
      by_cases hs : s = ""
      · obtain rfl : literal = "" := by_contra fun hne => h ⟨by rw [hvalue, hs], literal, rfl, hne⟩
        rw [hs]
        rfl
      · have hthere : (Value.text s).isMissing = false := decide_eq_false hs
        simp only [hthere]
        rfl

end FieldRef

namespace Predictor

variable {row : Row} {field : String} {replacement : Option String}

/-- A term with a single factor contributes what the value of its reference does in an
    expression, whatever the coefficient, if and only if no literal takes the place of an empty
    text. -/
theorem contribution_single_iff_eval :
    ∃ v, FieldRef.eval row ⟨field, none, replacement⟩ = .ok v ∧
      ((∀ name coefficient, (term name coefficient [⟨field, none, replacement⟩]).contribution row =
          v.contribution coefficient) ↔
        ¬ (row.value field = .text "" ∧ ∃ literal ∈ replacement, literal ≠ "")) := by
  by_cases hempty : row.value field = .text "" ∧ ∃ literal ∈ replacement, literal ≠ ""
  · obtain ⟨hvalue, literal, rfl, hliteral⟩ := hempty
    -- The expression has the empty text, which contributes nothing with any coefficient.
    obtain ⟨coefficient, hne⟩ := Value.exists_contribution_ofLiteral_ne hliteral
    refine ⟨_, FieldRef.eval_of_empty hvalue, iff_of_false (fun hall => hne ?_) ?_⟩
    · rw [← FieldRef.factor_of_empty hvalue, ← contribution_single row none]
      exact hall none coefficient
    · exact not_not.2 ⟨hvalue, literal, rfl, hliteral⟩
  · refine ⟨_, FieldRef.eval_eq_factor hempty, iff_of_true (fun name coefficient => ?_) hempty⟩
    exact contribution_single row name coefficient _

/-- The term puts the literal in place of an empty text, and the expression does not. -/
theorem exists_replaced_in_term :
    ¬ ∀ (row : Row) (field : String) (replacement : Option String) (name : Option String)
        (coefficient : Float) (v : Value),
      FieldRef.eval row ⟨field, none, replacement⟩ = .ok v →
      (term name coefficient [⟨field, none, replacement⟩]).contribution row =
        v.contribution coefficient := by
  intro hall
  have h := hall (.single "size" (.text "")) "size" (some "5") none 2 (.text "") rfl
  revert h
  decide

end Predictor

end Scoring
