import Scoring.Proofs.Causes
import Scoring.Proofs.Record

/-!
# Deriving fields

A row is extended by derived fields one at a time. Each is evaluated for the row that those before
it have left, and its value is put under its name, unless it is absent (`DerivedField.Run`). This
goes on to the first field that has no value, if there is one: the row stays as it is by then, and
the failure is that of the field, with its name around it (`DerivedField.extend_up_to_failure`).

So extending a row by some fields and then by others is extending it by all
(`DerivedField.extend_append`), and nothing is changed but what stands under the names of the
fields.

Where only the row after all fields is wanted (`DerivedField.apply`), a failure leaves nothing of
it.
-/

namespace Scoring

namespace DerivedField

variable {fields : List DerivedField} {field : DerivedField} {row seen result : Row}
  {value : Value} {name : String} {e : Failure}

/-- A derived field fails with the cause its expression or the coercion of its value fails with,
    within the name of the field and nothing else. -/
theorem eval_eq_error_iff : field.eval row = .error e ↔
    ∃ cause, (do (← field.expression.eval row).coerceTo field.dataType) = .fail cause ∧
      e = .within (.derivedField field.name) (.ofCause cause) := by
  have hbare : Outcome.FailsOnly Failure.Bare
      (do (← field.expression.eval row).coerceTo field.dataType) :=
    ((field.expression.failsOnly_eval row).bind fun v => v.failsOnly_coerceTo _).mono
      fun _ => Failure.OfExpression.bare
  rw [eval, Outcome.within_eq_error_iff]
  constructor
  · rintro ⟨e', he, rfl⟩
    -- No context has been put around the failure so far.
    obtain ⟨cause, rfl⟩ := (hbare e' he).exists_ofCause
    exact ⟨cause, he, rfl⟩
  · rintro ⟨cause, he, rfl⟩
    exact ⟨.ofCause cause, he, rfl⟩

/-! ### One field after another -/

/-- Derived fields take a row to another one: each has a value for the row that those before it
    have left. -/
inductive Run : Row → List DerivedField → Row → Prop
  | nil (row : Row) : Run row [] row
  /-- An absent value leaves the row as it is. -/
  | absent {row result : Row} {field : DerivedField} {fields : List DerivedField} :
      field.eval row = .ok .absent → Run row fields result → Run row (field :: fields) result
  /-- Any other value is put into the row. -/
  | present {row result : Row} {field : DerivedField} {fields : List DerivedField}
      {value : Value} : field.eval row = .ok value → value ≠ .absent →
      Run (row.insert field.name value) fields result → Run row (field :: fields) result

/-- Without fields, a row stays as it is. -/
theorem run_nil_iff : Run row [] result ↔ row = result := by
  constructor
  · rintro ⟨⟩
    rfl
  · rintro rfl
    exact .nil row

/-- The first field has a value, which is put into the row for the others. -/
theorem run_cons_iff : Run row (field :: fields) result ↔
    ∃ value, field.eval row = .ok value ∧ Run (put row field.name value) fields result := by
  constructor
  · rintro (_ | ⟨h, hrest⟩ | ⟨h, hvalue, hrest⟩)
    · exact ⟨.absent, h, hrest⟩
    · exact ⟨_, h, by rwa [put, if_neg hvalue]⟩
  · rintro ⟨value, h, hrest⟩
    rw [put] at hrest
    split at hrest
    · rename_i hvalue
      exact .absent (hvalue ▸ h) hrest
    · rename_i hvalue
      exact .present h hvalue hrest

/-- Nothing changes but what stands under the names of the fields. -/
theorem Run.get?_of_not_mem (h : Run row fields result) (hname : name ∉ fields.map (·.name)) :
    result.get? name = row.get? name := by
  induction h with
  | nil => rfl
  | absent _ _ ih => exact ih (List.not_mem_of_not_mem_cons hname)
  | present _ _ _ ih =>
    rw [ih (List.not_mem_of_not_mem_cons hname), Record.get?_insert,
      if_neg (List.ne_of_not_mem_cons hname).symm]

/-- What stands in the row afterwards stood there before, or is what a field of that name came to,
    which is not absent. -/
theorem Run.get?_eq_some (h : Run row fields result) (hvalue : result.get? name = some value) :
    row.get? name = some value ∨ value ≠ .absent ∧ ∃ before field after seen,
      fields = before ++ field :: after ∧ field.name = name ∧ Run row before seen ∧
        field.eval seen = .ok value := by
  induction h with
  | nil => exact .inl hvalue
  | @absent row _ field _ heval _ ih =>
    refine (ih hvalue).imp_right fun ⟨hpresent, before, later, after, seen, hfields, hlater⟩ => ?_
    exact ⟨hpresent, field :: before, later, after, seen, congrArg (field :: ·) hfields,
      hlater.imp_right fun h => h.imp_left (.absent heval)⟩
  | @present row _ field fields inserted heval hinserted _ ih =>
    -- It was there before, or comes from a field after this one. In the first case it may have
    -- been put in by this field.
    rcases ih hvalue with hold | ⟨hpresent, before, later, after, seen, hfields, hlater⟩
    · rw [Record.get?_insert] at hold
      split at hold
      · rename_i hname
        obtain rfl := Option.some.inj hold
        exact .inr ⟨hinserted, [], field, fields, row, rfl, hname, .nil row, heval⟩
      · exact .inl hold
    · exact .inr ⟨hpresent, field :: before, later, after, seen, congrArg (field :: ·) hfields,
        hlater.imp_right fun h => h.imp_left (.present heval hinserted)⟩

/-! ### As far as the fields have values -/

/-- A field with a value is put into the row, and the others go on from there. -/
theorem extend_cons_of_ok (h : field.eval row = .ok value) :
    extend row (field :: fields) = extend (put row field.name value) fields := by
  rw [extend, h]

/-- A field without a value stops everything. -/
theorem extend_cons_of_error (h : field.eval row = .error e) :
    extend row (field :: fields) = (row, some e) := by
  rw [extend, h]

/-- Fields are applied in two parts as they are together: a failure in the first part stops the
    second. -/
theorem extend_append (row : Row) (before fields : List DerivedField) :
    extend row (before ++ fields) = match extend row before with
      | (seen, none) => extend seen fields
      | stopped => stopped := by
  induction before generalizing row with
  | nil => rfl
  | cons field before ih =>
    rw [List.cons_append]
    cases h : field.eval row with
    | error e => rw [extend_cons_of_error h, extend_cons_of_error h]
    | ok value => rw [extend_cons_of_ok h, extend_cons_of_ok h, ih]

/-- No field fails if and only if the fields take the row all the way. -/
theorem extend_eq_none_iff : extend row fields = (result, none) ↔ Run row fields result := by
  induction fields generalizing row with
  | nil => rw [run_nil_iff, extend, Prod.mk.injEq, eq_self, and_true]
  | cons field fields ih =>
    rw [run_cons_iff]
    cases h : field.eval row with
    | error e => simp [extend_cons_of_error h]
    | ok value => simp [extend_cons_of_ok h, ih]

/-- The first field without a value stops the row where it is. -/
theorem extend_eq_some_iff : extend row fields = (seen, some e) ↔
    ∃ before field after, fields = before ++ field :: after ∧
      Run row before seen ∧ field.eval seen = .error e := by
  constructor
  · intro h
    induction fields generalizing row with
    | nil => cases h
    | cons field fields ih =>
      cases hvalue : field.eval row with
      -- This field is the first to fail, and nothing has been put in since.
      | error e' =>
        rw [extend_cons_of_error hvalue, Prod.mk.injEq, Option.some.injEq] at h
        obtain ⟨rfl, rfl⟩ := h
        exact ⟨[], field, fields, rfl, .nil row, hvalue⟩
      -- The failing field is one of the others.
      | ok value =>
        rw [extend_cons_of_ok hvalue] at h
        obtain ⟨before, failing, after, rfl, hbefore, hfails⟩ := ih h
        have hrun := run_cons_iff.2 ⟨value, hvalue, hbefore⟩
        exact ⟨field :: before, failing, after, rfl, hrun, hfails⟩
  · rintro ⟨before, field, after, rfl, hbefore, hfails⟩
    rw [extend_append, extend_eq_none_iff.2 hbefore]
    exact extend_cons_of_error hfails

/-- Wherever it stops, the row is what some fields from the beginning on have made of it. -/
theorem exists_run_extend (row : Row) (fields : List DerivedField) :
    ∃ before after, fields = before ++ after ∧ Run row before (extend row fields).1 := by
  cases h : extend row fields with
  | mk seen stopped =>
    cases stopped with
    | none => exact ⟨fields, [], (List.append_nil _).symm, extend_eq_none_iff.1 h⟩
    | some e =>
      obtain ⟨before, field, after, hfields, hbefore, _⟩ := extend_eq_some_iff.1 h
      exact ⟨before, field :: after, hfields, hbefore⟩

/-- Derived fields are applied in their order, to the last or to the first that has no value.

    * If all have one, the row is what they make of it one after another.
    * Otherwise it is what the fields before the first failing one make of it, and the failure is
      that of its expression, or of the coercion of its value, within the name of the field.
    * Fields are applied together as they are in two parts.
    * Under names that no field has, nothing changes.
    * What stands under a name, and did not before, is the value of a field of that name at its
      turn, and is not absent.
    * A field whose value is absent changes nothing. -/
theorem extend_up_to_failure (row : Row) (fields : List DerivedField) :
    (∀ result, extend row fields = (result, none) ↔ Run row fields result) ∧
    (∀ result e, extend row fields = (result, some e) ↔
      ∃ before field after cause, fields = before ++ field :: after ∧ Run row before result ∧
        (do (← field.expression.eval result).coerceTo field.dataType) = .fail cause ∧
        e = .within (.derivedField field.name) (.ofCause cause)) ∧
    (∀ later, extend row (fields ++ later) = match extend row fields with
      | (seen, none) => extend seen later
      | stopped => stopped) ∧
    (∀ name ∉ fields.map (·.name), (extend row fields).1.get? name = row.get? name) ∧
    (∀ name value, (extend row fields).1.get? name = some value →
      row.get? name = some value ∨ value ≠ .absent ∧ ∃ before field after seen,
        fields = before ++ field :: after ∧ field.name = name ∧ Run row before seen ∧
          field.eval seen = .ok value) ∧
    (∀ before field after seen, fields = before ++ field :: after → Run row before seen →
      field.eval seen = .ok .absent → extend row (before ++ [field]) = (seen, none)) := by
  obtain ⟨applied, rest, hsplit, hrun⟩ := exists_run_extend row fields
  refine ⟨fun result => extend_eq_none_iff, fun result e => ?_, extend_append row fields,
    fun name hname => ?_, fun name value hvalue => ?_,
    fun before field _ seen _ hbefore heval => ?_⟩
  · simp only [extend_eq_some_iff, eval_eq_error_iff, exists_and_left]
  · refine hrun.get?_of_not_mem fun hmem => hname ?_
    rw [hsplit, List.map_append]
    exact List.mem_append_left _ hmem
  · refine (hrun.get?_eq_some hvalue).imp_right fun ⟨hpresent, before, field, after, seen, h⟩ => ?_
    obtain ⟨rfl, hfield⟩ := h
    refine ⟨hpresent, before, field, after ++ rest, seen, ?_, hfield⟩
    rw [hsplit, List.append_assoc, List.cons_append]
  · rw [extend_append, extend_eq_none_iff.2 hbefore]
    exact extend_cons_of_ok heval

/-- The size stays, as its new value is absent, and the row keeps the area, although the field after
    it fails. -/
example :
    let size : Expression := .fieldRef ⟨"size", none, none⟩
    let fields : List DerivedField :=
      [⟨"area", none, none, .apply .multiply [size, size]⟩,
        ⟨"size", none, none, .fieldRef ⟨"length", none, none⟩⟩,
        ⟨"large", none, some .boolean, size⟩, ⟨"half", none, none, .apply .divide [size, size]⟩]
    extend (.single "size" (.number 2)) fields =
      (Record.ofList [("area", .number 4), ("size", .number 2)],
        some (.within (.derivedField "large") (.ofCause (.coercion (.number 2) .boolean)))) := by
  decide +kernel

/-! ### All fields or none -/

/-- All fields are applied if and only if they take the row all the way. -/
theorem apply_eq_ok_iff : apply fields row = .ok result ↔ Run row fields result := by
  rw [← extend_eq_none_iff, apply]
  rcases extend row fields with ⟨seen, _ | e⟩ <;> simp

/-- Without fields, nothing is applied. -/
theorem apply_nil : apply [] row = .ok row := rfl

/-- The first field is applied, and then the others. -/
theorem apply_cons : apply (field :: fields) row = (do
    let value ← field.eval row
    apply fields (put row field.name value)) := by
  rw [apply, extend]
  rcases field.eval row with _ | value
  · rfl
  · rfl

/-- Fields are applied in two parts as they are together. -/
theorem apply_append (before : List DerivedField) :
    apply (before ++ fields) row = apply before row >>= apply fields := by
  rw [apply, extend_append, apply]
  rcases extend row before with ⟨seen, _ | e⟩
  · rfl
  · rfl

/-- Fields fail as the first that has no value for the row that those before it have left. -/
theorem apply_eq_error_iff : apply fields row = .error e ↔
    ∃ before field after seen, fields = before ++ field :: after ∧
      apply before row = .ok seen ∧ field.eval seen = .error e := by
  have hextend : apply fields row = .error e ↔ ∃ seen, extend row fields = (seen, some e) := by
    rw [apply]
    rcases extend row fields with ⟨seen, _ | e⟩ <;> simp
  rw [hextend]
  constructor
  · rintro ⟨seen, h⟩
    obtain ⟨before, field, after, hfields, hbefore, h⟩ := extend_eq_some_iff.1 h
    exact ⟨before, field, after, seen, hfields, apply_eq_ok_iff.2 hbefore, h⟩
  · rintro ⟨before, field, after, seen, hfields, hbefore, h⟩
    exact ⟨seen, extend_eq_some_iff.2
      ⟨before, field, after, hfields, apply_eq_ok_iff.1 hbefore, h⟩⟩

end DerivedField

end Scoring
