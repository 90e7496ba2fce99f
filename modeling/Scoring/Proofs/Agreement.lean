import Scoring.Proofs.Induction
import Scoring.Proofs.Mentions
import Scoring.Proofs.Outcome
import Scoring.Proofs.Record

/-!
# Rows in agreement

Two rows agree on some fields (`AgreeOn`) if these have the same values in both. A
function of rows that does not tell such rows apart *reads only* the fields
(`ReadsOnly`): a predicate reads only the fields that it mentions
(`Predicate.readsOnly_eval`), and so does an expression
(`Expression.readsOnly_eval`).

What is done to a row before it is scored keeps rows in agreement:

* replacing missing values writes the same literal into both (`AgreeOn.replaceMissing`);
* a derived field has the same value in both (`AgreeOn.extend`);
* the outputs that a chain merges into them are the same (`AgreeOn.merge`).
-/

namespace Scoring

/-- Two rows have the same values in some fields. A field that a row does not have
    counts as absent in it. -/
def AgreeOn (fields : List String) (r s : Row) : Prop :=
  ∀ field ∈ fields, r.value field = s.value field

instance (fields : List String) (r s : Row) : Decidable (AgreeOn fields r s) :=
  inferInstanceAs (Decidable (∀ field ∈ fields, r.value field = s.value field))

/-- A function of rows reads only some fields: it does not tell rows apart that agree
    on these. -/
def ReadsOnly {α : Type} (fields : List String) (f : Row → α) : Prop :=
  ∀ ⦃r s : Row⦄, AgreeOn fields r s → f r = f s

/-! ### What keeps rows in agreement -/

namespace AgreeOn

variable {fields : List String} {r s : Row}

/-- Rows that agree on some fields agree on any of these. -/
theorem mono {fewer : List String} (h : AgreeOn fields r s) (hsub : fewer ⊆ fields) :
    AgreeOn fewer r s :=
  fun field hf => h field (hsub hf)

/-- Agreement survives that both rows get the same value in a field. -/
theorem insert (h : AgreeOn fields r s) (k : String) (v : Value) :
    AgreeOn fields (r.insert k v) (s.insert k v) := fun field hf => by
  rw [Record.value_insert, Record.value_insert, h field hf]

/-- Agreement survives that the same outputs are put into both rows. -/
theorem merge (h : AgreeOn fields r s) (outputs : Outputs) :
    AgreeOn fields (r.merge outputs) (s.merge outputs) := fun field hf => by
  have := h field hf
  rw [Record.value_merge, Record.value_merge]
  cases outputs.get? field with
  | none => exact this
  | some v => rfl

/-- Agreement survives a derived value, also where the value is absent and nothing is put in. -/
theorem put (h : AgreeOn fields r s) (name : String) (v : Value) :
    AgreeOn fields (DerivedField.put r name v) (DerivedField.put s name v) := by
  rw [DerivedField.put, DerivedField.put]
  split
  · exact h
  · exact h.insert name v

/-- A field is replaced in both rows or in neither, if it is one that they agree on. -/
theorem replaceMissing_field (h : AgreeOn fields r s) {field : MiningField}
    (hf : field.missingValueReplacement.isSome → field.name ∈ fields) :
    AgreeOn fields (field.replaceMissing r) (field.replaceMissing s) := by
  rw [MiningField.replaceMissing, MiningField.replaceMissing]
  cases hr : field.missingValueReplacement with
  | none => exact h
  | some literal =>
    have hv : r.value field.name = s.value field.name := h _ (hf (by rw [hr]; rfl))
    -- Whether the field is missing is the same question in both rows.
    simp only [hv]
    split
    · exact h.insert _ _
    · exact h

/-- Agreement survives the replacements of a schema, if the rows agree on all fields that it has
    a replacement for. -/
theorem replaceMissing (h : AgreeOn fields r s) {schema : MiningSchema}
    (hsub : schema.replaced ⊆ fields) :
    AgreeOn fields (schema.replaceMissing r) (schema.replaceMissing s) := by
  rw [MiningSchema.replaceMissing, MiningSchema.replaceMissing]
  have hmem : ∀ field ∈ schema.fields,
      field.missingValueReplacement.isSome → field.name ∈ fields := fun field hf hr =>
    hsub (List.mem_map.2 ⟨field, List.mem_filter.2 ⟨hf, hr⟩, rfl⟩)
  revert hmem
  induction schema.fields generalizing r s with
  | nil => exact fun _ => h
  | cons field rest ih =>
    intro hmem
    -- Once the first field is replaced in both, the rows still agree.
    exact ih (h.replaceMissing_field (hmem field List.mem_cons_self))
      fun field hf => hmem field (List.mem_cons_of_mem _ hf)

end AgreeOn

namespace ReadsOnly

variable {α : Type} {fields : List String} {f : Row → α}

/-- What reads only some fields reads only these and others. -/
theorem mono {fewer : List String} (h : ReadsOnly fewer f) (hsub : fewer ⊆ fields) :
    ReadsOnly fields f :=
  fun _ _ hrs => h (hrs.mono hsub)

/-- What reads only some fields, mapped over a list of parts. -/
theorem map {β : Type} {fields : List String} {f : Row → β → α} {parts : List β}
    (h : ∀ part ∈ parts, ReadsOnly fields (f · part)) :
    ReadsOnly fields fun row => parts.map (f row) :=
  fun _ _ hrs => List.map_congr_left fun part hp => h part hp hrs

end ReadsOnly

/-! ### Predicates and expressions -/

/-- A predicate reads only the fields it mentions, at any depth. -/
theorem Predicate.readsOnly_eval (predicate : Predicate) :
    ReadsOnly predicate.mentions (fun row => predicate.eval row) := by
  induction predicate using Predicate.induction with
  | always => exact fun _ _ _ => rfl
  | never => exact fun _ _ _ => rfl
  | simple field operator literal =>
    intro r s h
    simp only [eval, h field (by simp [mentions])]
  | set field operator literals =>
    intro r s h
    simp only [eval, h field (by simp [mentions])]
  | compound operator parts ih =>
    intro r s h
    simp only [eval, evalEach_eq_map]
    -- The answers of the parts are the same in both rows, and are joined in the same way.
    refine congrArg operator.join (ReadsOnly.map (fun part hp => ?_) h)
    refine (ih part hp).mono ?_
    rw [mentions, mentionsEach_eq_flatMap]
    exact subset_flatMap_of_mem hp

/-- A conjunction reads only the fields that its parts mention. -/
theorem Predicate.readsOnly_evalAll {fields : List String} {parts : List Predicate}
    (hsub : parts.flatMap (·.mentions) ⊆ fields) :
    ReadsOnly fields (fun row => evalAll row parts) := fun r s h => by
  have hparts : ∀ part ∈ parts, ReadsOnly fields (fun row => part.eval row) := fun part hp =>
    part.readsOnly_eval.mono (List.Subset.trans (subset_flatMap_of_mem hp) hsub)
  exact congrArg Truth.all (ReadsOnly.map hparts h)

/-- A reference reads only the field it refers to. -/
theorem FieldRef.readsOnly_eval (ref : FieldRef) :
    ReadsOnly [ref.field] (fun row => ref.eval row) := fun r s h => by
  simp only [eval, h ref.field List.mem_cons_self]

/-- An expression reads only the fields it mentions, at any depth. -/
theorem Expression.readsOnly_eval (expression : Expression) :
    ReadsOnly expression.mentions (fun row => expression.eval row) := by
  induction expression using Expression.induction with
  | fieldRef ref => exact ref.readsOnly_eval
  | constant value dataType => exact fun _ _ _ => rfl
  | apply function arguments ih =>
    intro r s h
    simp only [eval, evalEach_eq_map]
    refine congrArg function.apply (ReadsOnly.map (fun argument ha => ?_) h)
    refine (ih argument ha).mono ?_
    rw [mentions, mentionsEach_eq_flatMap]
    exact subset_flatMap_of_mem ha

/-- A derived field reads only what its expression mentions. -/
theorem DerivedField.readsOnly_eval {fields : List String} {field : DerivedField}
    (hsub : field.expression.mentions ⊆ fields) :
    ReadsOnly fields (fun row => field.eval row) := fun r s h => by
  simp only [eval, (field.expression.readsOnly_eval.mono hsub) h]

/-- Rows in agreement come equally far with derived fields, meet the same failure, and
    still agree. -/
theorem AgreeOn.extend {fields : List String} {r s : Row} (h : AgreeOn fields r s)
    {derived : List DerivedField}
    (hsub : ∀ field ∈ derived, field.expression.mentions ⊆ fields) :
    AgreeOn fields (DerivedField.extend r derived).1 (DerivedField.extend s derived).1 ∧
      (DerivedField.extend r derived).2 = (DerivedField.extend s derived).2 := by
  induction derived generalizing r s with
  | nil => exact ⟨h, rfl⟩
  | cons field rest ih =>
    have heval : field.eval r = field.eval s :=
      DerivedField.readsOnly_eval (hsub field List.mem_cons_self) h
    rw [DerivedField.extend, DerivedField.extend, heval]
    cases field.eval s with
    | error e => exact ⟨h, rfl⟩
    | ok v => exact ih (h.put _ _) fun field hf => hsub field (List.mem_cons_of_mem _ hf)

/-- What reads only the fields that rows agree on is not affected by extending the rows
    by derived fields first. -/
theorem ReadsOnly.after_apply {α : Type} {fields : List String} {f : Row → Outcome α}
    (hf : ReadsOnly fields f) {derived : List DerivedField}
    (hsub : ∀ field ∈ derived, field.expression.mentions ⊆ fields) :
    ReadsOnly fields (fun row => DerivedField.apply derived row >>= f) := fun r s h => by
  obtain ⟨hrow, hfail⟩ := h.extend hsub
  simp only [DerivedField.apply]
  generalize DerivedField.extend r derived = x at *
  generalize DerivedField.extend s derived = y at *
  obtain ⟨r', e⟩ := x
  obtain ⟨s', e'⟩ := y
  -- Both fail alike, or go on with rows that agree.
  obtain rfl : e = e' := hfail
  cases e with
  | none => exact hf hrow
  | some e => rfl

end Scoring
