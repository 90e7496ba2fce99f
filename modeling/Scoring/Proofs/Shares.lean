import Mathlib.Data.List.Basic
import Scoring.Proofs.OutputNames

/-!
# Shares

The output fields of an ensemble report each class under the name of a field, and
probabilities as shares of a total (`Output.finish`). The classes move one after the other.
As long as no field looks for a class under a name that an earlier field has taken it from
or has left another class under (`Output.Apart`), it does not matter that they move in this
way:

* each field finds what the results held for its class at first
  (`Output.Apart.get?_move`), and the total is that of these numbers
  (`Output.total_moved`);
* a probability is the share of its own class (`Output.get?_finish_of_apart`).

Fields that are not apart take the classes of others (`Output.exists_share_taken`).
-/

namespace Scoring

namespace OutputField

variable {results : Outputs} {total : Float} {field : OutputField} {k : String}

/-- A field leaves alone what is neither under its name nor under its class. -/
theorem get?_move_of_ne (hname : field.name ≠ k) (hvalue : field.value ≠ some k) :
    (field.move (results, total)).1.get? k = results.get? k := by
  by_cases htakes : ∃ key ∈ results, field.value = some key
  · obtain ⟨key, hkey, hfield⟩ := htakes
    obtain ⟨v, hv⟩ := Record.mem_iff_exists.1 hkey
    have hne : key ≠ k := fun h => hvalue (hfield.trans (congrArg some h))
    rw [move_of_get?_eq_some hfield hv, Record.get?_insert, if_neg hname, Record.get?_erase,
      if_neg hne]
  · rw [move_of_not_mem fun key hkey hfield => htakes ⟨key, hkey, hfield⟩]

/-- A field for a probability does not repeat the prediction. -/
theorem not_isPredicted (h : field.isProbability) : ¬ field.isPredicted := by
  rw [isProbability, decide_eq_true_iff] at h
  simp [isPredicted, h]

/-- A share goes under the name of its field, and nothing else changes. -/
theorem get?_share_of_ne (hname : field.name ≠ k) :
    (field.share total results).get? k = results.get? k := by
  rw [share, Record.get?_insert, if_neg hname]

/-- A repeated prediction goes under the name of its field, and nothing else changes. -/
theorem get?_fill_of_ne {predicted : Value} (hname : field.name ≠ k) :
    (field.fill predicted results).get? k = results.get? k := by
  rw [fill, Record.get?_insert, if_neg hname]

/-- The total after a field, of the numbers that the results hold for the classes of
    continuous fields. What is not a number counts as zero. -/
def addTo (results : Outputs) (total : Float) (field : OutputField) : Float :=
  match field.value.bind results.get? with
  | none => total
  | some value => if field.isContinuous then total + value.number?.getD 0 else total

/-- A field adds to the total what stands under its class. -/
theorem total_move : (field.move (results, total)).2 = field.addTo results total := by
  rw [move, addTo]
  cases field.value with
  | none => rfl
  | some key =>
    simp only [Option.bind_some]
    cases results.get? key <;> rfl

end OutputField

namespace Output

open OutputField

/-- No field stands for a class that an earlier field has taken, or for a name that an
    earlier field has left its class under. -/
def Apart (results : Outputs) (fields : List OutputField) : Prop :=
  fields.Pairwise fun earlier later => ∀ key ∈ earlier.value, key ∈ results →
    later.value ≠ some key ∧ later.value ≠ some earlier.name

instance (results : Outputs) (fields : List OutputField) : Decidable (Apart results fields) :=
  inferInstanceAs (Decidable (fields.Pairwise _))

/-- The total of the numbers for the classes of continuous fields, in the order of the
    fields. -/
def total (results : Outputs) (fields : List OutputField) : Float :=
  fields.foldl (addTo results) 0

variable {results : Outputs} {fields before after : List OutputField} {field : OutputField}
  {primary k : String} {start : Float}

/-- Fields that are apart do not touch the classes of later ones. -/
theorem Apart.get?_move (hapart : Apart results (field :: fields)) {later : OutputField}
    (hlater : later ∈ fields) (hvalue : later.value = some k) :
    (field.move (results, start)).1.get? k = results.get? k := by
  by_cases htakes : ∃ key ∈ results, field.value = some key
  · obtain ⟨key, hkey, hfield⟩ := htakes
    obtain ⟨hclass, hname⟩ := (List.pairwise_cons.1 hapart).1 later hlater key hfield hkey
    rw [hvalue] at hclass hname
    refine get?_move_of_ne (fun h => hname (congrArg some h.symm)) fun h => ?_
    exact hclass (h.symm.trans hfield)
  · rw [move_of_not_mem fun key hkey hfield => htakes ⟨key, hkey, hfield⟩]

/-- Fields that are apart are still so when the first of them has moved its class. -/
theorem Apart.move (hapart : Apart results (field :: fields)) :
    Apart (field.move (results, start)).1 fields := by
  refine (List.pairwise_cons.1 hapart).2.imp_of_mem fun hearlier _ h key hvalue hkey => ?_
  refine h key hvalue ?_
  rwa [Record.mem_iff, hapart.get?_move hearlier hvalue, ← Record.mem_iff] at hkey

/-- The total of fields that are apart is that of what the results held at first. -/
theorem total_moved (hapart : Apart results fields) :
    (fields.foldl OutputField.move (results, start)).2 = fields.foldl (addTo results) start := by
  induction fields generalizing results start with
  | nil => rfl
  | cons field fields ih =>
    rw [List.foldl_cons, List.foldl_cons, ← Prod.eta (field.move (results, start)),
      ih hapart.move, total_move]
    -- What counts toward the total is the same before and after the field.
    refine List.foldl_ext _ _ _ fun sum later hlater => ?_
    rw [addTo, addTo]
    cases hvalue : later.value with
    | none => rfl
    | some key => rw [Option.bind_some, Option.bind_some, hapart.get?_move hlater hvalue]

/-- What is neither under a name nor under a class of the fields stays. -/
theorem get?_foldl_move_of_ne (h : ∀ field ∈ fields, field.name ≠ k ∧ field.value ≠ some k) :
    (fields.foldl OutputField.move (results, start)).1.get? k = results.get? k := by
  induction fields generalizing results start with
  | nil => rfl
  | cons field fields ih =>
    obtain ⟨⟨hname, hvalue⟩, hfields⟩ := List.forall_mem_cons.1 h
    rw [List.foldl_cons, ← Prod.eta (field.move (results, start)), ih hfields,
      get?_move_of_ne hname hvalue]

/-- In the end a field has what the results held for its class. -/
theorem get?_moved {v : String} {value : Value} (hvalue : field.value = some v)
    (hv : results.get? v = some value) (hname : ∀ later ∈ after, later.name ≠ field.name)
    (hapart : Apart results (before ++ field :: after)) :
    ((before ++ field :: after).foldl OutputField.move (results, start)).1.get? field.name =
      some value := by
  induction before generalizing results start with
  | nil =>
    have hmem : v ∈ results := Record.mem_iff_exists.2 ⟨value, hv⟩
    -- The field has just moved its class to its name, and no later field takes it from there.
    have hafter : ∀ later ∈ after, later.name ≠ field.name ∧ later.value ≠ some field.name :=
      fun later hlater => ⟨hname later hlater,
        ((List.pairwise_cons.1 hapart).1 later hlater v hvalue hmem).2⟩
    rw [List.nil_append, List.foldl_cons, ← Prod.eta (field.move (results, start)),
      get?_foldl_move_of_ne hafter, move_of_get?_eq_some hvalue hv, Record.get?_insert, if_pos rfl]
  | cons first before ih =>
    rw [List.cons_append, List.foldl_cons, ← Prod.eta (first.move (results, start))]
    refine ih ?_ hapart.move
    rwa [hapart.get?_move (List.mem_append_right before List.mem_cons_self) hvalue]

/-- Shares leave alone what is under none of their names. -/
theorem get?_foldl_share_of_ne {total : Float} (h : ∀ field ∈ fields, field.name ≠ k) :
    (fields.foldl (OutputField.share total) results).get? k = results.get? k :=
  Record.get?_foldl_of_ne (fun _ _ => get?_share_of_ne) h

/-- Repeated predictions leave alone what is under none of their names. -/
theorem get?_fillPredicted_of_not_mem {output : Option Output} {predicted : Value}
    (h : k ∉ predictedNames output) :
    (fillPredicted output predicted results).get? k = results.get? k := by
  cases output with
  | none => rfl
  | some output =>
    exact Record.get?_foldl_of_ne (fun _ _ => get?_fill_of_ne) fun field hfield hname =>
      h (List.mem_map.2 ⟨field, hfield, hname⟩)

/-- The name of a field for a probability is not that of a repeated prediction, if no other
    field has it. -/
theorem name_not_mem_predictedNames (hprobability : field.isProbability)
    (hname : ∀ other ∈ before ++ after, other.name ≠ field.name) :
    field.name ∉ predictedNames (some ⟨before ++ field :: after⟩) := by
  intro hmem
  obtain ⟨other, hother, hsame⟩ := List.mem_map.1 hmem
  obtain ⟨hother, hpredicted⟩ := List.mem_filter.1 hother
  -- It would be another field of this name, or the field itself, which is for a probability.
  rcases List.mem_append.1 hother with hbefore | hfield
  · exact hname other (List.mem_append_left _ hbefore) hsame
  · rcases List.mem_cons.1 hfield with rfl | hafter
    · exact not_isPredicted hprobability hpredicted
    · exact hname other (List.mem_append_right _ hafter) hsame

/-- A field for a probability is left with the share of the number under its name. -/
theorem get?_shared {total x : Float} {value : Value} (hprobability : field.isProbability)
    (hname : ∀ other ∈ before ++ after, other.name ≠ field.name)
    (hv : results.get? field.name = some value) (hx : value.number? = some x) :
    ((probabilityFields ⟨before ++ field :: after⟩).foldl
      (OutputField.share total) results).get? field.name =
        some (.number (if 0 < total then x / total else x)) := by
  obtain ⟨hbefore, hafter⟩ := List.forall_mem_append.1 hname
  have hshares : probabilityFields ⟨before ++ field :: after⟩ =
      before.filter (·.isProbability) ++ field :: after.filter (·.isProbability) := by
    rw [probabilityFields, List.filter_append, List.filter_cons_of_pos hprobability]
  rw [hshares, List.foldl_append, List.foldl_cons,
    get?_foldl_share_of_ne fun other hother => hafter other (List.mem_filter.1 hother).1,
    share, Record.get?_insert, if_pos rfl,
    get?_foldl_share_of_ne fun other hother => hbefore other (List.mem_filter.1 hother).1,
    hv, Option.bind_some, hx, Option.getD_some]

/-- A field for the probability of a class reports the share of this class, if no other
    field has its name and the fields are apart. -/
theorem get?_finish_of_apart {v : String} {value : Value} {x : Float}
    (hprobability : field.isProbability) (hvalue : field.value = some v)
    (hv : results.get? v = some value) (hx : value.number? = some x)
    (hname : ∀ other ∈ before ++ after, other.name ≠ field.name)
    (hapart : Apart results (before ++ field :: after)) :
    (finish (some ⟨before ++ field :: after⟩) primary results).get? field.name =
      some (.number (if 0 < total results (before ++ field :: after)
        then x / total results (before ++ field :: after) else x)) := by
  have htotal : ((before ++ field :: after).foldl OutputField.move (results, 0)).2 =
      total results (before ++ field :: after) := total_moved hapart
  have hmoved : ((before ++ field :: after).foldl OutputField.move (results, 0)).1.get? field.name =
      some value := get?_moved hvalue hv (List.forall_mem_append.1 hname).2 hapart
  rw [finish]
  generalize (before ++ field :: after).foldl OutputField.move (results, 0) = moved at *
  rw [← htotal, ← get?_shared hprobability hname hmoved hx]
  simp only
  -- Repeating the prediction does not change the share.
  split
  · rfl
  · exact get?_fillPredicted_of_not_mem (name_not_mem_predictedNames hprobability hname)

/-- A field for the probability of a class, which counts toward the total. -/
def probabilityField (name category : String) : OutputField where
  name := name
  opType := none
  dataType := some .double
  feature := .probability
  value := some category
  targetField := none
  segmentId := none

/-- Of two classes with the numbers one and three, the first has a share of one fourth. -/
theorem get?_finish_of_apart_fourth :
    (finish (some ⟨[probabilityField "ProbA" "a", probabilityField "ProbB" "b"]⟩) "y"
      (Record.ofList [("a", .number 1), ("b", .number 3)])).get? "ProbA" =
        some (.number (1 / 4)) := by
  have htotal : total (Record.ofList [("a", .number 1), ("b", .number 3)])
      [probabilityField "ProbA" "a", probabilityField "ProbB" "b"] = 4 := by decide
  have hname : ∀ other ∈ [] ++ [probabilityField "ProbB" "b"],
    other.name ≠ (probabilityField "ProbA" "a").name := by decide
  have hapart : Apart (Record.ofList [("a", .number 1), ("b", .number 3)])
    ([] ++ probabilityField "ProbA" "a" :: [probabilityField "ProbB" "b"]) := by decide
  refine (get?_finish_of_apart rfl rfl rfl rfl hname hapart).trans ?_
  rw [List.nil_append, htotal, if_pos (by decide)]

/-- Of two fields with the names of each other's classes, the second takes the share of the
    first. -/
theorem exists_share_taken :
    ¬ ∀ (output : Output) (primary : String) (results : Outputs) (field : OutputField)
        (v : String) (value : Value) (x : Float), field ∈ output.fields → field.isProbability →
      field.value = some v → results.get? v = some value → value.number? = some x →
      (∀ other ∈ output.fields, other.isPredicted → other.name ≠ field.name) →
      (finish (some output) primary results).get? field.name =
        some (.number (if 0 < total results output.fields
          then x / total results output.fields else x)) := by
  intro hall
  have h := hall ⟨[probabilityField "b" "a", probabilityField "a" "b"]⟩ "y"
    (Record.ofList [("a", .number 1), ("b", .number 3)]) (probabilityField "b" "a") "a"
    (.number 1) 1 (by decide) rfl rfl rfl rfl (by decide)
  revert h
  decide

end Output

end Scoring
