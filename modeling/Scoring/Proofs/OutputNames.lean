import Scoring.Output
import Scoring.Proofs.Record

/-!
# The names of outputs

Which names the results of an ensemble are reported under. Output fields that stand
for classes move these one after the other, so what is held under a name may move
several times (`Output.renamed`). In the end

* a name is held if something held before has moved there (`Output.mem_moved_iff`);
* the fields that report probabilities have their names in any case;
* repeating a prediction takes no name away (`Output.mem_fillPredicted`), and only
  outputs that have the prediction repeat it.

Together these say when a name is reported (`Output.mem_finish_primary_iff`).
-/

namespace Scoring

/-! ### One field -/

namespace OutputField

/-- The name under which a field leaves what it finds under a key. -/
def renamed (key : String) (field : OutputField) : String :=
  if field.value = some key then field.name else key

variable {results : Outputs} {total : Float} {field : OutputField} {k : String}

/-- A field takes what stands under its class over to its name. -/
theorem move_of_get?_eq_some {key : String} {v : Value} (hfield : field.value = some key)
    (hv : results.get? key = some v) :
    (field.move (results, total)).1 = (results.erase key).insert field.name v := by
  simp [move, hfield, hv]

/-- A field whose class has no entry changes nothing. -/
theorem move_of_not_mem (h : ∀ key ∈ results, field.value ≠ some key) :
    (field.move (results, total)).1 = results := by
  cases hfield : field.value with
  | none => simp [move, hfield]
  | some key =>
    -- The class is not a key, so that nothing is found there.
    have hkey : results.get? key = none :=
      Record.get?_eq_none_iff.2 fun hmem => h key hmem hfield
    simp [move, hfield, hkey]

/-- A field leaves everything somewhere, and puts nothing else in. -/
theorem mem_move_iff :
    k ∈ (field.move (results, total)).1 ↔ ∃ key ∈ results, field.renamed key = k := by
  by_cases htakes : ∃ key ∈ results, field.value = some key
  · obtain ⟨key, hkey, hfield⟩ := htakes
    obtain ⟨v, hv⟩ := Record.mem_iff_exists.1 hkey
    rw [move_of_get?_eq_some hfield hv, Record.mem_insert, Record.mem_erase]
    -- One entry has moved from its key to the name of the field; the others stay.
    constructor
    · rintro (rfl | ⟨hne, hk⟩)
      · exact ⟨key, hkey, by rw [renamed, if_pos hfield]⟩
      · exact ⟨k, hk, if_neg fun hk => hne (Option.some.inj (hfield.symm.trans hk))⟩
    · rintro ⟨key', hkey', rfl⟩
      by_cases hkeys : key = key'
      · exact .inl (by rw [renamed, if_pos (hkeys ▸ hfield)])
      · rw [renamed, if_neg fun hk => hkeys (Option.some.inj (hfield.symm.trans hk))]
        exact .inr ⟨hkeys, hkey'⟩
  · have hnot : ∀ key ∈ results, field.value ≠ some key := fun key hkey hfield =>
      htakes ⟨key, hkey, hfield⟩
    rw [move_of_not_mem hnot]
    constructor
    · exact fun hk => ⟨k, hk, if_neg (hnot k hk)⟩
    · rintro ⟨key, hkey, rfl⟩
      rwa [renamed, if_neg (hnot key hkey)]

end OutputField

/-! ### All fields -/

namespace Output

/-- The name under which the output fields of a model leave what they find under a key,
    each going on from where the one before has left it. -/
def renamed : Option Output → String → String
  | none, key => key
  | some output, key => output.fields.foldl OutputField.renamed key

/-- The names of the output fields that report probabilities. -/
def probabilityNames (output : Option Output) : List String :=
  (output.elim [] probabilityFields).map (·.name)

/-- The names of the output fields that repeat a prediction. -/
def predictedNames (output : Option Output) : List String :=
  (output.elim [] predictedFields).map (·.name)

/-- The output fields report a name: something in the results has moved there, or it is
    a field for a probability. -/
def Reports (output : Option Output) (results : Outputs) (name : String) : Prop :=
  (∃ key ∈ results, renamed output key = name) ∨ name ∈ probabilityNames output

variable {output : Option Output} {results : Outputs} {primary k : String}

/-- Fields leave everything somewhere, one after the other, and put nothing else in. -/
theorem mem_moved_iff {fields : List OutputField} {total : Float} :
    k ∈ (fields.foldl OutputField.move (results, total)).1 ↔
      ∃ key ∈ results, fields.foldl OutputField.renamed key = k := by
  induction fields generalizing results total with
  | nil => simp
  | cons field fields ih =>
    -- The other fields go on from where the first has left each entry.
    rw [List.foldl_cons, ih]
    constructor
    · rintro ⟨moved, hmoved, rfl⟩
      obtain ⟨key, hkey, rfl⟩ := OutputField.mem_move_iff.1 hmoved
      exact ⟨key, hkey, rfl⟩
    · rintro ⟨key, hkey, rfl⟩
      exact ⟨field.renamed key, OutputField.mem_move_iff.2 ⟨key, hkey, rfl⟩, rfl⟩

/-- Fields for probabilities add their names. -/
theorem mem_shared_iff {fields : List OutputField} {total : Float} :
    k ∈ fields.foldl (OutputField.share total) results ↔ k ∈ results ∨ k ∈ fields.map (·.name) :=
  Record.mem_foldl_insert fun _ _ => ⟨_, rfl⟩

/-- Fields that repeat the prediction add their names. -/
theorem mem_fillPredicted_iff {predicted : Value} :
    k ∈ fillPredicted output predicted results ↔ k ∈ results ∨ k ∈ predictedNames output := by
  cases output with
  | none => simp [fillPredicted, predictedNames]
  | some declared => exact Record.mem_foldl_insert fun _ _ => ⟨_, rfl⟩

/-- The names in the end: those that the fields report, and those that repeat the
    prediction, provided that its own name is reported. -/
theorem mem_finish_iff : k ∈ finish output primary results ↔
    Reports output results k ∨ Reports output results primary ∧ k ∈ predictedNames output := by
  cases output with
  | none => simp [finish, Reports, renamed, probabilityNames, predictedNames]
  | some declared =>
    generalize hmoved : declared.fields.foldl OutputField.move (results, 0) = moved
    generalize hshared :
      declared.probabilityFields.foldl (OutputField.share moved.2) moved.1 = shared
    have hreports : ∀ name, Reports (some declared) results name ↔ name ∈ shared := fun name => by
      rw [← hshared, mem_shared_iff, ← hmoved, mem_moved_iff]
      rfl
    rw [hreports, hreports, finish]
    simp only [hmoved, hshared]
    -- What is left is to repeat the prediction, if it is still found under its name.
    cases hprimary : shared.get? primary with
    | none =>
      have hnot : primary ∉ shared := Record.get?_eq_none_iff.1 hprimary
      exact ⟨.inl, fun h => h.resolve_right fun h => hnot h.1⟩
    | some predicted =>
      have hmem : primary ∈ shared := Record.mem_iff_exists.2 ⟨predicted, hprimary⟩
      rw [mem_fillPredicted_iff, and_iff_right hmem]

/-- The prediction of an ensemble is reported under its primary name if that name is
    reported at all. -/
theorem mem_finish_primary_iff :
    primary ∈ finish output primary results ↔ Reports output results primary := by
  rw [mem_finish_iff]
  exact ⟨fun h => h.elim id And.left, .inl⟩

end Output

end Scoring
