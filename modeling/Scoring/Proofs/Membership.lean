import Mathlib
import Scoring.Expression
import Scoring.Predicate
import Scoring.Proofs.Numerals
import Scoring.Proofs.Outcome

/-!
# Membership tests

Whether the value of a field is among some literals can be asked of a set predicate and of
an expression (`Expression.membership`). The predicate looks for a literal that the value
matches (`Value.matchesLiteral`), and the expression for a text that it equals
(`Value.equals`). These are the same for a number, as its own text is a numeral
(`Number.isSome_read?_text`) and never decides, and for a boolean. They are the same for a
text as well, except that a text matches itself even where it reads as what is not a number,
and hence equals nothing.

So the two tests differ on such a text among its literals, and on nothing else
(`Expression.eval_membership_eq_iff`).

In an expression the candidates may be any expressions, and each may also be compared by
`equal`. A value is among candidates if it equals one of them; but a candidate that is absent
equals nothing, whereas it is among the candidates for the text that absence is displayed as
(`Expression.isIn_iff_exists_equal`).
-/

namespace Scoring

/-- The text reads as a number that is not a number, and so does not equal itself. -/
def Number.ReadsNaN (s : String) : Prop := ∃ x ∈ read? s, x.isNaN

/-- Equality of doubles is symmetric, also where one is not a number. -/
theorem Double.beq_comm (x y : Float) : (x == y) = (y == x) := by
  rw [Bool.eq_iff_iff, Float.beq_iff_ne_nan_and_eq, Float.beq_iff_ne_nan_and_eq]
  grind

/-! ### Values -/

namespace Value

open Number

variable {v : Value} {s literal : String}

/-- A number equals the texts that match it as literals: numerals of the same number. -/
theorem equals_text_of_number (x : Float) (literal : String) :
    (number x).equals (.text literal) = (number x).matchesLiteral literal := by
  rw [equals, if_neg (by simp [kind]), matchesLiteral, number?, number?]
  cases hread : read? literal with
  | some y => exact Double.beq_comm x y
  | none =>
    -- A literal that is no numeral is not the text of a number.
    have hne : Number.text x ≠ literal := fun h => by
      have hnumeral := isSome_read?_text x
      rw [h, hread] at hnumeral
      cases hnumeral
    exact decide_eq_false hne

/-- A boolean equals the texts that match it as literals: the words for it. -/
theorem equals_text_of_boolean (b : Bool) (literal : String) :
    (boolean b).equals (.text literal) = (boolean b).matchesLiteral literal := by
  rw [equals, if_pos (.inl rfl), matchesLiteral, boolean?, boolean?]
  cases Text.boolean? literal with
  | none => rfl
  | some c => simp [eq_comm]

/-- A text equals other texts as it matches them: by the numbers that both read as. -/
theorem equals_text_of_ne (hne : s ≠ literal) :
    (text s).equals (.text literal) = (text s).matchesLiteral literal := by
  rw [equals, if_neg (by simp [kind]), matchesLiteral, decide_eq_false hne, Bool.false_or,
    sameNumber, number?, number?]
  cases read? s with
  | none => exact decide_eq_false hne
  -- The text is a numeral, so that numbers are compared if the literal is one as well.
  | some x =>
    cases read? literal with
    | none => exact decide_eq_false hne
    | some y => rfl

/-- A text equals itself, unless it reads as what is not a number. -/
theorem equals_self_of_not_readsNaN (h : ¬ ReadsNaN s) : (text s).equals (.text s) = true := by
  rw [equals, if_neg (by simp [kind]), number?]
  cases hread : read? s with
  | none => exact decide_eq_true rfl
  | some x =>
    -- The number equals itself, as it is one.
    have hx : x ≠ Float.nan := fun hx => h ⟨x, hread, by simp [hx]⟩
    exact Float.beq_self_iff.2 hx

/-- What reads as what is not a number equals no text. -/
theorem equals_text_of_readsNaN (h : ReadsNaN s) (literal : String) :
    (text s).equals (.text literal) = false := by
  obtain ⟨x, hread, hx⟩ := h
  rw [Float.isNaN_eq_decide_eq_nan, decide_eq_true_iff] at hx
  rw [equals, if_neg (by simp [kind]), number?, number?, hread, hx]
  cases hliteral : read? literal with
  | none =>
    have hne : s ≠ literal := fun h => by
      rw [h, hliteral] at hread
      cases hread
    exact decide_eq_false hne
  | some y => exact Float.nan_beq_eq_false y

/-- A text matches itself as a literal, whatever it reads as. -/
theorem matchesLiteral_self (s : String) : (text s).matchesLiteral s = true := by
  rw [matchesLiteral, decide_eq_true rfl, Bool.true_or]

/-- A value equals the texts that it matches as literals, unless it is one of them that does
    not equal itself. -/
theorem equals_text_eq_matchesLiteral (hv : v ≠ .absent)
    (h : v = .text literal → ¬ ReadsNaN literal) :
    v.equals (.text literal) = v.matchesLiteral literal := by
  cases v with
  | number x => exact equals_text_of_number x literal
  | boolean b => exact equals_text_of_boolean b literal
  | text s =>
    by_cases hs : s = literal
    · subst hs
      rw [equals_self_of_not_readsNaN (h rfl), matchesLiteral_self]
    · exact equals_text_of_ne hs
  | absent => exact absurd rfl hv

/-- Some text equals a value if and only if some literal matches it, unless one does that is
    the value and does not equal itself. -/
theorem any_equals_eq_any_iff {literals : List String} (hv : v ≠ .absent) :
    literals.any (fun literal => v.equals (.text literal)) = literals.any v.matchesLiteral ↔
      ¬ ∃ literal ∈ literals, v = .text literal ∧ ReadsNaN literal := by
  constructor
  · rintro heq ⟨s, hs, rfl, hnan⟩
    -- It matches itself, and equals nothing.
    have hequals : literals.any (fun literal => (text s).equals (.text literal)) = false :=
      List.any_eq_false.2 fun literal _ =>
        Bool.not_eq_true _ ▸ equals_text_of_readsNaN hnan literal
    have hmatches : literals.any (text s).matchesLiteral = true :=
      List.any_eq_true.2 ⟨s, hs, matchesLiteral_self s⟩
    rw [hequals, hmatches] at heq
    cases heq
  · intro h
    rw [Bool.eq_iff_iff, List.any_eq_true, List.any_eq_true]
    refine exists_congr fun literal => and_congr_right fun hmem => ?_
    rw [equals_text_eq_matchesLiteral hv fun htext hnan => h ⟨literal, hmem, htext, hnan⟩]

end Value

/-! ### Tests -/

/-- The value that an expression gives for an answer. -/
def Truth.toValue : Truth → Value
  | yes => .boolean true
  | no => .boolean false
  | unknown => .absent

namespace SetOperator

/-- The function that asks what a set predicate does. -/
def function : SetOperator → Function
  | isIn => .isIn
  | isNotIn => .isNotIn

/-- The answer of a set predicate, from whether the value is among its literals. -/
def answer : SetOperator → Bool → Truth
  | isIn, member => .ofBool member
  | isNotIn, member => .ofBool (!member)

/-- A set predicate answers differently for a member and for what is none. -/
theorem toValue_answer_inj {operator : SetOperator} {b c : Bool} :
    (operator.answer b).toValue = (operator.answer c).toValue ↔ b = c := by
  cases operator <;> cases b <;> cases c <;> decide

end SetOperator

variable {row : Row} {field : String} {operator : SetOperator} {literals : List String}

/-- For a value that is there, a set predicate asks whether some literal matches it. -/
theorem Predicate.evalSet_eq {v : Value} (hv : v ≠ .absent) :
    evalSet operator literals v = operator.answer (literals.any v.matchesLiteral) := by
  rw [evalSet, if_neg hv]
  cases operator <;> rfl

namespace Function

/-- Candidates with values are looked through for one that is equal. -/
theorem memberOf_values (v : Value) (values : List Value) :
    memberOf v (values.map .ok) = .ok (values.any v.equals) := by
  induction values with
  | nil => rfl
  | cons w values ih =>
    rw [List.map_cons, memberOf, Outcome.ok_bind, ih, List.any_cons]
    cases v.equals w <;> rfl

/-- For a value that is there, a membership function asks whether some candidate equals it. -/
theorem membership_values {v : Value} (hv : v ≠ .absent) (function : Function) (answer : Bool)
    (values : List Value) :
    membership function answer (.ok v :: values.map .ok) =
      .ok (.boolean (values.any v.equals = answer)) := by
  rw [membership, Outcome.ok_bind, if_neg hv, memberOf_values, Outcome.ok_bind]

end Function

namespace Expression

/-- The expression that asks whether a field is, or is not, among literals. -/
def membership (field : String) (operator : SetOperator) (literals : List String) : Expression :=
  .apply operator.function
    (.fieldRef ⟨field, none, none⟩ :: literals.map fun literal => .constant (.text literal) none)

/-- The arguments are the value of the field and the literals as texts. -/
theorem evalEach_membership :
    evalEach row (.fieldRef ⟨field, none, none⟩ ::
        literals.map fun literal => .constant (.text literal) none) =
      .ok (row.value field) :: (literals.map Value.text).map .ok := by
  have hfield : eval row (.fieldRef ⟨field, none, none⟩) = .ok (row.value field) := by
    rw [eval, FieldRef.eval]
    cases row.value field <;> rfl
  rw [evalEach_eq_map, List.map_cons, List.map_map, List.map_map, hfield]
  rfl

/-- For an absent value, the expression is absent. -/
theorem eval_membership_of_absent (hv : row.value field = .absent) :
    (membership field operator literals).eval row = .ok .absent := by
  rw [membership, eval, evalEach_membership, hv]
  cases operator <;> rfl

/-- The expression answers whether the value equals a text. -/
theorem eval_membership (hv : row.value field ≠ .absent) :
    (membership field operator literals).eval row = .ok (operator.answer
      (literals.any fun literal => (row.value field).equals (.text literal))).toValue := by
  have hany : (literals.map Value.text).any (row.value field).equals =
      literals.any fun literal => (row.value field).equals (.text literal) := List.any_map
  rw [membership, eval, evalEach_membership]
  cases operator with
  | isIn =>
    refine (Function.membership_values hv .isIn true _).trans ?_
    rw [hany]
    cases literals.any _ <;> rfl
  | isNotIn =>
    refine (Function.membership_values hv .isNotIn false _).trans ?_
    rw [hany]
    cases literals.any _ <;> rfl

/-- The two membership tests agree, unless the value of the field is a text among the
    literals that reads as what is not a number. -/
theorem eval_membership_eq_iff :
    (membership field operator literals).eval row =
        Truth.toValue <$> Predicate.eval row (.set field operator literals) ↔
      ¬ ∃ literal ∈ literals, row.value field = .text literal ∧ Number.ReadsNaN literal := by
  rw [Predicate.eval, Outcome.map_ok]
  by_cases hv : row.value field = .absent
  · rw [eval_membership_of_absent hv, hv]
    refine iff_of_true rfl ?_
    rintro ⟨_, _, htext, _⟩
    cases htext
  · rw [eval_membership hv, Predicate.evalSet_eq hv, Except.ok.injEq,
      SetOperator.toValue_answer_inj, Value.any_equals_eq_any_iff hv]

/-- A text that is no number is among literals for the predicate, and not for the
    expression. -/
theorem exists_eval_membership_ne :
    ¬ ∀ (row : Row) (field : String) (operator : SetOperator) (literals : List String),
      (membership field operator literals).eval row =
        Truth.toValue <$> Predicate.eval row (.set field operator literals) := by
  intro hall
  have h := hall (Record.single "x" (.text "NaN")) "x" .isIn ["NaN"]
  revert h
  decide

end Expression

/-! ### Candidates -/

/-- Only the text that absence is displayed as equals an absent value. -/
theorem Value.equals_absent_iff {v : Value} (hv : v ≠ .absent) :
    v.equals .absent = true ↔ v = .text "<absent>" := by
  have hdisplay : v.kind ≠ .boolean → v.equals .absent = decide (v.display = "<absent>") := by
    intro hkind
    rw [equals, if_neg (not_or.2 ⟨hkind, nofun⟩)]
    cases v.number? <;> rfl
  cases v with
  | number x =>
    -- The text of a number is a numeral, and the text of absence is not.
    have hne : Number.text x ≠ "<absent>" := fun h => by
      have hnumeral := Number.isSome_read?_text x
      rw [h] at hnumeral
      revert hnumeral
      decide
    rw [hdisplay nofun, decide_eq_true_iff]
    exact iff_of_false hne nofun
  | boolean b => exact iff_of_false nofun nofun
  | text s =>
    rw [hdisplay nofun, decide_eq_true_iff, display, text.injEq]
  | absent => exact absurd rfl hv

/-- A value is found among others if it equals one that is there, or is the display of absence
    and one is absent. -/
theorem Value.any_equals_iff {v : Value} (hv : v ≠ .absent) (values : List Value) :
    values.any v.equals = true ↔
      (∃ w ∈ values, w ≠ .absent ∧ v.equals w = true) ∨
        v = .text "<absent>" ∧ ∃ w ∈ values, w = .absent := by
  rw [List.any_eq_true, ← equals_absent_iff hv]
  constructor
  · rintro ⟨w, hw, hequals⟩
    by_cases habsent : w = .absent
    · exact .inr ⟨habsent ▸ hequals, w, hw, habsent⟩
    · exact .inl ⟨w, hw, habsent, hequals⟩
  · rintro (⟨w, hw, _, hequals⟩ | ⟨hequals, w, hw, rfl⟩)
    · exact ⟨w, hw, hequals⟩
    · exact ⟨.absent, hw, hequals⟩

/-- Only values that are not absent are found equal. -/
theorem Function.apply_equal_eq_true_iff {v w : Value} (hv : v ≠ .absent) :
    apply .equal [.ok v, .ok w] = .ok (.boolean true) ↔ w ≠ .absent ∧ v.equals w = true := by
  change Except.ok (comparison true v w) = _ ↔ _
  rw [comparison]
  by_cases hw : w = .absent
  · simp [hw]
  · simp [hv, hw]

namespace Outcome

variable {α β : Type} {f : α → Outcome β} {xs : List α} {ys : List β}

/-- Evaluations that all succeed have a list of values. -/
theorem exists_map_eq_map_ok (h : ∀ x ∈ xs, ∃ y, f x = .ok y) :
    ∃ ys : List β, xs.map f = ys.map .ok := by
  have hrange : xs.map f ∈ Set.range (List.map (Except.ok : β → Outcome β)) := by
    rw [Set.range_list_map]
    exact List.forall_mem_map.2 fun x hx => (h x hx).imp fun _ => Eq.symm
  obtain ⟨ys, hys⟩ := hrange
  exact ⟨ys, hys.symm⟩

/-- What some evaluation comes to is what some of the values is. -/
theorem exists_mem_iff (h : xs.map f = ys.map .ok) (p : Outcome β → Prop) :
    (∃ x ∈ xs, p (f x)) ↔ ∃ y ∈ ys, p (.ok y) :=
  calc (∃ x ∈ xs, p (f x))
    _ ↔ ∃ outcome ∈ xs.map f, p outcome := by simp
    _ ↔ ∃ outcome ∈ ys.map .ok, p outcome := by rw [h]
    _ ↔ ∃ y ∈ ys, p (.ok y) := by simp

end Outcome

namespace Expression

variable {x : Expression} {candidates : List Expression} {v : Value}

/-- What is found among candidates: a value that equals one of theirs, or, if it is the text
    that absence is displayed as, one of them that is absent. -/
theorem isIn_iff_exists_equal (hx : x.eval row = .ok v) (hv : v ≠ .absent)
    (hcandidates : ∀ c ∈ candidates, ∃ w, c.eval row = .ok w) :
    ∃ member : Bool,
      (apply .isIn (x :: candidates)).eval row = .ok (.boolean member) ∧
      (apply .isNotIn (x :: candidates)).eval row = .ok (.boolean !member) ∧
      (member = true ↔
        (∃ c ∈ candidates, (apply .equal [x, c]).eval row = .ok (.boolean true)) ∨
          v = .text "<absent>" ∧ ∃ c ∈ candidates, c.eval row = .ok .absent) := by
  -- All candidates have values, and so it is these that are looked through.
  obtain ⟨values, hvalues⟩ := Outcome.exists_map_eq_map_ok hcandidates
  have harguments : evalEach row (x :: candidates) = .ok v :: values.map .ok := by
    rw [evalEach_eq_map, List.map_cons, hx, hvalues]
  have hequal : (∃ c ∈ candidates, (apply .equal [x, c]).eval row = .ok (.boolean true)) ↔
      ∃ w ∈ values, w ≠ .absent ∧ v.equals w = true := by
    simp only [eval, evalEach, hx]
    rw [Outcome.exists_mem_iff hvalues fun w => Function.apply .equal [.ok v, w] = _]
    simp only [Function.apply_equal_eq_true_iff hv]
  have habsent : (∃ c ∈ candidates, c.eval row = .ok .absent) ↔ ∃ w ∈ values, w = .absent := by
    rw [Outcome.exists_mem_iff hvalues (· = .ok .absent)]
    simp only [Except.ok.injEq]
  refine ⟨values.any v.equals, ?_, ?_, ?_⟩
  · rw [eval, harguments]
    refine (Function.membership_values hv .isIn true values).trans ?_
    cases values.any v.equals <;> rfl
  · rw [eval, harguments]
    refine (Function.membership_values hv .isNotIn false values).trans ?_
    cases values.any v.equals <;> rfl
  · rw [hequal, habsent]
    exact Value.any_equals_iff hv values

/-- A text is among candidates one of which is a number that it reads as. That the other one is
    absent plays no part. -/
theorem isIn_iff_exists_equal_numeral :
    let row : Row := .single "size" (.text "1.0")
    let x : Expression := .fieldRef ⟨"size", none, none⟩
    let candidates : List Expression :=
      [.fieldRef ⟨"color", none, none⟩, .constant (.number 1) none]
    x.eval row = .ok (.text "1.0") ∧ Value.text "1.0" ≠ .absent ∧
      (∀ c ∈ candidates, ∃ w, c.eval row = .ok w) ∧
      ∃ member : Bool,
        (apply .isIn (x :: candidates)).eval row = .ok (.boolean member) ∧
        (apply .isNotIn (x :: candidates)).eval row = .ok (.boolean !member) ∧
        (member = true ↔
          (∃ c ∈ candidates, (apply .equal [x, c]).eval row = .ok (.boolean true)) ∨
            Value.text "1.0" = .text "<absent>" ∧ ∃ c ∈ candidates, c.eval row = .ok .absent) := by
  intro row x candidates
  have hx : x.eval row = .ok (.text "1.0") := rfl
  have hcandidates : ∀ c ∈ candidates, ∃ w, c.eval row = .ok w :=
    List.forall_mem_cons.2 ⟨⟨_, rfl⟩, List.forall_mem_singleton.2 ⟨_, rfl⟩⟩
  exact ⟨hx, nofun, hcandidates, isIn_iff_exists_equal hx nofun hcandidates⟩

/-- The text that absence is displayed as is found among candidates that are absent, although
    it equals none of them. -/
theorem exists_isIn_of_absent :
    ¬ ∀ (row : Row) (x : Expression) (candidates : List Expression) (v : Value),
      x.eval row = .ok v → v ≠ .absent → (∀ c ∈ candidates, ∃ w, c.eval row = .ok w) →
      ((apply .isIn (x :: candidates)).eval row = .ok (.boolean true) ↔
        ∃ c ∈ candidates, (apply .equal [x, c]).eval row = .ok (.boolean true)) ∧
      ((apply .isNotIn (x :: candidates)).eval row = .ok (.boolean true) ↔
        ¬ ∃ c ∈ candidates, (apply .equal [x, c]).eval row = .ok (.boolean true)) := by
  intro hall
  have h := hall ∅ (.constant (.text "<absent>") none) [.fieldRef ⟨"size", none, none⟩]
    (.text "<absent>") rfl nofun (List.forall_mem_singleton.2 ⟨_, rfl⟩)
  revert h
  decide

end Expression

end Scoring
