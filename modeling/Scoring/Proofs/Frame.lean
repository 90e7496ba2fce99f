import Scoring.Proofs.Shares

/-!
# What output fields leave alone

The output fields of an ensemble go over its results three times: they move classes, divide
probabilities and repeat the prediction (`Output.finish`). Under which names they do so is up to
the model, and a name may be given to several fields, or be the class of another one. Still

* what is neither the name nor the class of a field is left as it was
  (`Output.get?_finish_of_ne`), as every single field leaves it;
* what has moved is either where it was or under the name of a field
  (`Output.foldl_renamed_eq_or_mem_names`), so no other names come up;
* a class that gives no field its name has been moved away (`Output.foldl_renamed_ne_of_value`).
-/

namespace Scoring

namespace OutputField

variable {field : OutputField} {key k : String}

/-- A field moves its class to its name and leaves all else where it is. -/
theorem renamed_eq_or (key : String) (field : OutputField) :
    field.value = some key ∧ field.renamed key = field.name ∨
      field.value ≠ some key ∧ field.renamed key = key := by
  by_cases h : field.value = some key
  · exact .inl ⟨h, if_pos h⟩
  · exact .inr ⟨h, if_neg h⟩

/-- A field leaves nothing at its class, unless its name is the same. -/
theorem renamed_ne_of_value (hvalue : field.value = some k) (hname : field.name ≠ k) :
    field.renamed key ≠ k := by
  rcases renamed_eq_or key field with ⟨_, h⟩ | ⟨hne, h⟩
  · rwa [h]
  · rw [h]
    exact fun hk => hne (hk ▸ hvalue)

end OutputField

namespace Output

open OutputField

/-- The output fields that a model declares, if any. -/
def declared (output : Option Output) : List OutputField := output.elim [] Output.fields

variable {output : Option Output} {fields : List OutputField} {field : OutputField}
  {results : Outputs} {primary key k : String}

/-! ### Values -/

/-- A name that is neither the name nor the class of a field keeps its value through all three
    stages. -/
theorem get?_finish_of_ne (h : ∀ field ∈ declared output, field.name ≠ k ∧ field.value ≠ some k) :
    (finish output primary results).get? k = results.get? k := by
  cases output with
  | none => rfl
  | some output =>
    have hshares : ∀ field ∈ output.probabilityFields, field.name ≠ k := fun field hfield =>
      (h field (List.mem_filter.1 hfield).1).1
    have hrepeated : k ∉ predictedNames (some output) := fun hmem => by
      obtain ⟨field, hfield, hname⟩ := List.mem_map.1 hmem
      exact (h field (List.mem_filter.1 hfield).1).1 hname
    have hmoved : (output.fields.foldl OutputField.move (results, 0)).1.get? k = results.get? k :=
      get?_foldl_move_of_ne h
    -- The primary output may be there or not to be repeated; the name is none of those for
    -- that.
    rw [finish]
    generalize output.fields.foldl OutputField.move (results, 0) = moved at *
    have hshared : (output.probabilityFields.foldl (OutputField.share moved.2) moved.1).get? k =
        results.get? k := (get?_foldl_share_of_ne hshares).trans hmoved
    simp only
    split
    · exact hshared
    · exact (get?_fillPredicted_of_not_mem hrepeated).trans hshared

/-! ### Names -/

/-- What has moved in the end is where it was, or under the name of a field. -/
theorem foldl_renamed_eq_or_mem_names (fields : List OutputField) (key : String) :
    fields.foldl OutputField.renamed key = key ∨
      ∃ field ∈ fields, field.name = fields.foldl OutputField.renamed key := by
  induction fields generalizing key with
  | nil => exact .inl rfl
  | cons field fields ih =>
    rw [List.foldl_cons]
    rcases ih (field.renamed key) with hsame | ⟨later, hlater, hname⟩
    · rw [hsame]
      rcases renamed_eq_or key field with ⟨_, hmoved⟩ | ⟨_, hkept⟩
      · exact .inr ⟨field, List.mem_cons_self, hmoved.symm⟩
      · exact .inl hkept
    · exact .inr ⟨later, List.mem_cons_of_mem _ hlater, hname⟩

/-- Nothing moves to the class of a field, unless there is a field of that name: what passes
    there is taken on. -/
theorem foldl_renamed_ne_of_value (hfield : field ∈ fields) (hvalue : field.value = some k)
    (hnames : ∀ other ∈ fields, other.name ≠ k) : fields.foldl OutputField.renamed key ≠ k := by
  obtain ⟨before, after, rfl⟩ := List.append_of_mem hfield
  obtain ⟨hname, hafter⟩ := List.forall_mem_cons.1 (List.forall_mem_append.1 hnames).2
  rw [List.foldl_append, List.foldl_cons]
  -- Wherever it is by now, the field takes it away from its class, and no later field brings
  -- it back.
  generalize before.foldl OutputField.renamed key = moved
  rcases foldl_renamed_eq_or_mem_names after (field.renamed moved) with
    hsame | ⟨later, hlater, hlast⟩
  · rw [hsame]
    exact renamed_ne_of_value hvalue hname
  · rw [← hlast]
    exact hafter later hlater

/-- The names for probabilities and those that repeat a prediction are names of fields. -/
theorem exists_declared_of_mem_names (h : k ∈ probabilityNames output ∨ k ∈ predictedNames output) :
    ∃ field ∈ declared output, field.name = k := by
  rcases output with _ | output
  · simp [probabilityNames, predictedNames] at h
  · have hfields : ∀ p, (output.fields.filter p).map (·.name) ⊆ output.fields.map (·.name) :=
      fun _ => List.map_subset _ (List.filter_subset_self _)
    exact List.mem_map.1 (h.elim (hfields _ ·) (hfields _ ·))

/-- Where an output moves in the end is decided by one field after the other. -/
theorem renamed_eq_foldl (output : Option Output) (key : String) :
    renamed output key = (declared output).foldl OutputField.renamed key := by
  cases output <;> rfl

/-- What is reported in the end is something that has moved, or under the name of a field that is
    not about moving. -/
theorem exists_renamed_of_mem_finish (h : k ∈ finish output primary results) :
    (∃ key ∈ results, (declared output).foldl OutputField.renamed key = k) ∨
      k ∈ probabilityNames output ∨ k ∈ predictedNames output := by
  rcases mem_finish_iff.1 h with (⟨key, hkey, hmoved⟩ | hprobability) | ⟨_, hpredicted⟩
  · exact .inl ⟨key, hkey, renamed_eq_foldl output key ▸ hmoved⟩
  · exact .inr (.inl hprobability)
  · exact .inr (.inr hpredicted)

/-- What the output fields of an ensemble do to its results under each name. A name that is neither
    the name nor the class of a field keeps its value, or has none as before. The names of fields
    for probabilities are there in the end, and no names but those of the results and of fields.
    A class that no field has the name of is not there. -/
theorem finish_frame (output : Option Output) (primary : String) (results : Outputs) :
    (∀ k, (∀ field ∈ declared output, field.name ≠ k ∧ field.value ≠ some k) →
      (finish output primary results).get? k = results.get? k) ∧
    (∀ field ∈ declared output, field.isProbability → field.name ∈ finish output primary results) ∧
    (∀ k ∈ finish output primary results,
      k ∈ results ∨ ∃ field ∈ declared output, field.name = k) ∧
    (∀ field ∈ declared output, ∀ key ∈ field.value,
      (∀ other ∈ declared output, other.name ≠ key) → key ∉ finish output primary results) := by
  refine ⟨fun k => get?_finish_of_ne, fun field hfield hprobability => ?_, fun k hk => ?_,
    fun field hfield key hvalue hnames hmem => ?_⟩
  · cases output with
    | none => cases hfield
    | some output =>
      have hname : field.name ∈ probabilityNames (some output) :=
        List.mem_map.2 ⟨field, List.mem_filter.2 ⟨hfield, hprobability⟩, rfl⟩
      exact mem_finish_iff.2 (.inl (.inr hname))
  · -- It has moved from a name of the results, or is reported under the name of a field.
    rcases exists_renamed_of_mem_finish hk with ⟨key, hkey, rfl⟩ | hname
    · rcases foldl_renamed_eq_or_mem_names (declared output) key with hsame | hname
      · exact .inl (by rwa [hsame])
      · exact .inr hname
    · exact .inr (exists_declared_of_mem_names hname)
  · rcases exists_renamed_of_mem_finish hmem with ⟨origin, _, hmoved⟩ | hname
    · exact foldl_renamed_ne_of_value hfield hvalue hnames hmoved
    · obtain ⟨other, hother, hname⟩ := exists_declared_of_mem_names hname
      exact hnames other hother hname

/-- The first field takes its class to that of the second, which takes it on. The size is no
    concern of theirs; the third field has a probability of what was never counted. -/
theorem finish_frame_taken_on :
    let first := probabilityField "b" "a"
    let third := probabilityField "ProbC" "c"
    let output : Output := ⟨[first, probabilityField "ProbB" "b", third]⟩
    let results := Record.ofList [("a", .number 1), ("b", .number 3), ("size", .number 2)]
    (∀ field ∈ declared (some output), field.name ≠ "size" ∧ field.value ≠ some "size") ∧
      (finish (some output) "y" results).get? "size" = results.get? "size" ∧
      third ∈ declared (some output) ∧ third.isProbability ∧
      "ProbC" ∈ finish (some output) "y" results ∧
      ("ProbC" ∈ results ∨ ∃ field ∈ declared (some output), field.name = "ProbC") ∧
      first ∈ declared (some output) ∧ "a" ∈ first.value ∧
      (∀ other ∈ declared (some output), other.name ≠ "a") ∧
      "a" ∉ finish (some output) "y" results := by
  intro first third output results
  obtain ⟨hkept, hprobability, hnames, hgone⟩ := finish_frame (some output) "y" results
  have hsize : ∀ field ∈ declared (some output),
      field.name ≠ "size" ∧ field.value ≠ some "size" := by decide
  have ha : ∀ other ∈ declared (some output), other.name ≠ "a" := by decide
  have hfirst : first ∈ declared (some output) := List.mem_cons_self
  have hthird : third ∈ declared (some output) := by decide
  have hreported : "ProbC" ∈ finish (some output) "y" results := hprobability third hthird rfl
  exact ⟨hsize, hkept "size" hsize, hthird, rfl, hreported, hnames "ProbC" hreported,
    hfirst, rfl, ha, hgone first hfirst "a" rfl ha⟩

end Output

end Scoring
