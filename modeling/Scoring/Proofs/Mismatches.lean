import Scoring.Check

/-!
# Mismatches

A check holds the result of each row against the number that is expected of it. A result meets the
expectation if an output reads as a number that is close enough to it (`Check.Meets`), and there are
four reasons why it may not, of which a mismatch names the one that there is (`Mismatch.Explains`).
A result meets the expectation or has one of the four (`Check.meets_or_exists_explains`), and that
decides what is found for it (`Check.mismatch?_eq_none_iff`, `Check.mismatch?_eq_some_iff`).

The mismatches are those of the results in their order, each with the index of its row
(`Check.mismatches_eq_filterMap`), and so a check lists exactly the rows that do not match
(`check_lists_mismatches`).
-/

namespace Scoring

/-- An output reads as a number, which a text may do as well. -/
def Record.Reads (outputs : Outputs) (output : String) (x : Float) : Prop :=
  ∃ v, outputs.get? output = some v ∧ v.number? = some x

/-- A result meets what is expected of an output: the difference is small, and so it is a number. -/
def Check.Meets (output : String) (expected : Float) (result : Outcome (Option Outputs)) : Prop :=
  ∃ outputs actual, result = .ok (some outputs) ∧ outputs.Reads output actual ∧
    (actual - expected).abs ≤ 1e-8

/-- Why a result does not meet what is expected of an output. -/
inductive Mismatch.Explains (output : String) (expected : Float) :
    Outcome (Option Outputs) → Mismatch → Prop
  /-- The row failed, and what is reported is the kind and the wording of its failure. -/
  | failed {failure : Failure} {report : FailureReport} : report.kind = failure.kind →
      report.message = failure.message →
      Explains output expected (.error failure) (.failed expected report)
  | noResult : Explains output expected (.ok none) (.noResult expected)
  /-- The output has no entry, or one that is no number. -/
  | notNumeric {outputs : Outputs} : (∀ x, ¬ outputs.Reads output x) →
      Explains output expected (.ok (some outputs)) (.notNumeric expected)
  /-- The difference is greater than it may be, or no number at all. -/
  | differs {outputs : Outputs} {actual : Float} : outputs.Reads output actual →
      ¬ (actual - expected).abs ≤ 1e-8 →
      Explains output expected (.ok (some outputs)) (.differs expected actual)

/-- An output reads as a number if its entry has one. -/
theorem Record.reads_iff {outputs : Outputs} {output : String} {x : Float} :
    outputs.Reads output x ↔ (outputs.get? output).bind Value.number? = some x :=
  Option.bind_eq_some_iff.symm

namespace Check

variable {output : String} {wanted : Float} {result : Outcome (Option Outputs)}
  {mismatch : Mismatch}

/-! ### One result -/

section

variable {outputs : Outputs} {actual : Float}

/-- An output that reads as a number is compared with what is expected of it. -/
theorem mismatch?_of_reads (h : outputs.Reads output actual) :
    mismatch? output wanted (.ok (some outputs)) =
      if (actual - wanted).abs ≤ 1e-8 then none else some (.differs wanted actual) := by
  have hclose : matchesExpected wanted actual ↔ (actual - wanted).abs ≤ 1e-8 := decide_eq_true_iff
  simp only [mismatch?, Record.reads_iff.1 h, hclose]

/-- An output that reads as no number is reported as such. -/
theorem mismatch?_of_forall_not_reads (h : ∀ x, ¬ outputs.Reads output x) :
    mismatch? output wanted (.ok (some outputs)) = some (.notNumeric wanted) := by
  have hnone : (outputs.get? output).bind Value.number? = none :=
    Option.eq_none_iff_forall_ne_some.2 fun x => mt Record.reads_iff.2 (h x)
  simp only [mismatch?, hnone]

end

/-- What meets its expectation has no mismatch. -/
theorem mismatch?_of_meets (h : Meets output wanted result) :
    mismatch? output wanted result = none := by
  obtain ⟨outputs, actual, rfl, hreads, hclose⟩ := h
  rw [mismatch?_of_reads hreads, if_pos hclose]

/-- What explains that a result falls short of its expectation is its mismatch. -/
theorem mismatch?_of_explains (h : mismatch.Explains output wanted result) :
    mismatch? output wanted result = some mismatch := by
  cases h with
  | @failed failure report hkind hmessage =>
    obtain ⟨kind, message⟩ := report
    rw [mismatch?, ← hkind, ← hmessage]
  | noResult => rfl
  | notNumeric hreads => exact mismatch?_of_forall_not_reads hreads
  | differs hreads hfar => rw [mismatch?_of_reads hreads, if_neg hfar]

/-- There are no other reasons why a result does not meet what is expected. -/
theorem meets_or_exists_explains (output : String) (wanted : Float)
    (result : Outcome (Option Outputs)) :
    Meets output wanted result ∨ ∃ mismatch, Mismatch.Explains output wanted result mismatch := by
  rcases result with failure | _ | outputs
  · exact .inr ⟨.failed wanted ⟨failure.kind, failure.message⟩, .failed rfl rfl⟩
  · exact .inr ⟨_, .noResult⟩
  · by_cases hreads : ∃ x, outputs.Reads output x
    · obtain ⟨x, hx⟩ := hreads
      by_cases hclose : (x - wanted).abs ≤ 1e-8
      · exact .inl ⟨outputs, x, rfl, hx, hclose⟩
      · exact .inr ⟨_, .differs hx hclose⟩
    · exact .inr ⟨_, .notNumeric (not_exists.1 hreads)⟩

/-- A result has the mismatch that explains it, and no other. -/
theorem mismatch?_eq_some_iff :
    mismatch? output wanted result = some mismatch ↔ mismatch.Explains output wanted result := by
  refine ⟨fun h => ?_, mismatch?_of_explains⟩
  -- There would be none if the expectation were met, and any explanation is the mismatch.
  rcases meets_or_exists_explains output wanted result with hmeets | ⟨other, hother⟩
  · rw [mismatch?_of_meets hmeets] at h
    cases h
  · rw [mismatch?_of_explains hother] at h
    cases h
    exact hother

/-- A result has no mismatch if and only if it meets what is expected. -/
theorem mismatch?_eq_none_iff :
    mismatch? output wanted result = none ↔ Meets output wanted result := by
  refine ⟨fun h => ?_, mismatch?_of_meets⟩
  rcases meets_or_exists_explains output wanted result with hmeets | ⟨other, hother⟩
  · exact hmeets
  · rw [mismatch?_of_explains hother] at h
    cases h

instance : Decidable (Meets output wanted result) :=
  decidable_of_iff _ mismatch?_eq_none_iff

/-- An infinite number does not meet itself, as it differs from itself by what is no number. -/
example : ¬ Meets "y" Decimal.infinity
    (.ok (some (Record.single "y" (.number Decimal.infinity)))) := by
  decide

/-- A segment that has a text where a number is needed, as it is reported. -/
example : mismatch? "y" 1 (.error (.within (.segment "first")
    (.ofCause (.coercion (.text "tall") .double)))) =
      some (.failed 1 ⟨.value, "segment first: cannot coerce text \"tall\" to double"⟩) := by
  decide +kernel

/-- There is an explanation if and only if the expectation is not met. -/
theorem exists_explains_iff :
    (∃ mismatch, Mismatch.Explains output wanted result mismatch) ↔
      ¬ Meets output wanted result := by
  rw [← mismatch?_eq_none_iff, ← ne_eq, Option.ne_none_iff_exists']
  exact exists_congr fun mismatch => mismatch?_eq_some_iff.symm

/-! ### All results -/

/-- The mismatch of a result, beside what is expected of it and an index, with the index. -/
def indexed? (output : String) (place : (Outcome (Option Outputs) × Float) × Nat) :
    Option (Nat × Mismatch) :=
  (mismatch? output place.1.2 place.1.1).map (place.2, ·)

/-- The mismatches are those of the results in their order, each with its index. -/
theorem mismatches_eq_filterMap (output : String) (index : Nat)
    (results : List (Outcome (Option Outputs))) (expected : List Float) :
    mismatches output index results expected =
      ((results.zip expected).zipIdx index).filterMap (indexed? output) := by
  induction results generalizing index expected with
  | nil => rfl
  | cons result results ih =>
    cases expected with
    | nil => rfl
    | cons wanted expected =>
      have hfirst : indexed? output ((result, wanted), index) =
          (mismatch? output wanted result).map (index, ·) := rfl
      rw [mismatches, List.zip_cons_cons, List.zipIdx_cons, List.filterMap_cons, hfirst, ← ih]
      cases mismatch? output wanted result <;> rfl

variable {results : List (Outcome (Option Outputs))} {expected : List Float} {i : Nat}

/-- A mismatch is listed with an index if it explains the result there. -/
theorem mem_mismatches_iff :
    (i, mismatch) ∈ mismatches output 0 results expected ↔
      ∃ result wanted, results[i]? = some result ∧ expected[i]? = some wanted ∧
        mismatch.Explains output wanted result := by
  simp only [mismatches_eq_filterMap, indexed?, List.mem_filterMap, List.mem_zipIdx_iff_getElem?,
    List.getElem?_zip_eq_some, Option.map_eq_some_iff, mismatch?_eq_some_iff, Prod.exists,
    Prod.mk.injEq]
  constructor
  · rintro ⟨result, wanted, _, ⟨hresult, hwanted⟩, _, hexplains, rfl, rfl⟩
    exact ⟨result, wanted, hresult, hwanted, hexplains⟩
  · rintro ⟨result, wanted, hresult, hwanted, hexplains⟩
    exact ⟨result, wanted, i, ⟨hresult, hwanted⟩, mismatch, hexplains, rfl, rfl⟩

/-- An index is listed if and only if the result there does not meet what is expected of it. -/
theorem mem_map_fst_mismatches_iff (hresult : results[i]? = some result)
    (hwanted : expected[i]? = some wanted) :
    i ∈ (mismatches output 0 results expected).map Prod.fst ↔ ¬ Meets output wanted result := by
  rw [← exists_explains_iff, List.mem_map]
  constructor
  · rintro ⟨⟨_, mismatch⟩, hfound, rfl⟩
    obtain ⟨result', wanted', hresult', hwanted', hexplains⟩ := mem_mismatches_iff.1 hfound
    -- At an index there is one result, and one number is expected of it.
    obtain rfl := Option.some.inj (hresult.symm.trans hresult')
    obtain rfl := Option.some.inj (hwanted.symm.trans hwanted')
    exact ⟨mismatch, hexplains⟩
  · rintro ⟨mismatch, hexplains⟩
    exact ⟨(i, mismatch), mem_mismatches_iff.2 ⟨result, wanted, hresult, hwanted, hexplains⟩, rfl⟩

/-- Mismatches are listed by increasing indices. -/
theorem pairwise_mismatches :
    (mismatches output 0 results expected).Pairwise fun earlier later => earlier.1 < later.1 := by
  rw [mismatches_eq_filterMap, List.pairwise_filterMap]
  -- The indices of all results increase, and those of the mismatches are some of them.
  have hindices : ((results.zip expected).zipIdx.map Prod.snd).Pairwise (· < ·) := by
    rw [List.zipIdx_map_snd]
    exact List.pairwise_lt_range'
  refine (List.pairwise_map.1 hindices).imp fun hlt earlier hearlier later hlater => ?_
  obtain ⟨_, _, rfl⟩ := Option.map_eq_some_iff.1 hearlier
  obtain ⟨_, _, rfl⟩ := Option.map_eq_some_iff.1 hlater
  exact hlt

/-- Every result meets what is expected or has a mismatch. -/
theorem length_mismatches_add_countP (output : String) (index : Nat)
    (h : results.length = expected.length) :
    (mismatches output index results expected).length +
      (results.zip expected).countP (fun pair => Meets output pair.2 pair.1) = results.length := by
  induction results generalizing index expected with
  | nil => rfl
  | cons result results ih =>
    cases expected with
    | nil => cases h
    | cons wanted expected =>
      have ih := ih (index + 1) (Nat.succ.inj h)
      rw [mismatches, List.zip_cons_cons, List.length_cons]
      -- A result is counted on one side or on the other.
      cases hresult : mismatch? output wanted result with
      | none =>
        have hmeets := mismatch?_eq_none_iff.1 hresult
        rw [List.countP_cons_of_pos (by simpa using hmeets), ← ih]
        rfl
      | some mismatch =>
        have hmeets : ¬ Meets output wanted result := by
          rw [← mismatch?_eq_none_iff, hresult]
          exact nofun
        rw [List.countP_cons_of_neg (by simpa using hmeets), ← ih, List.length_cons]
        omega

end Check

open Check

/-- A check of some rows against expected values fails if and only if there are not as many of both,
    and says how many there are. Otherwise it lists mismatches with the indices of their rows, which
    increase.

    * There is a mismatch for an index if and only if it explains why the row there does not meet
      what is expected of it.
    * Where a row failed, the mismatch has the kind of the cause, and its message names the contexts
      of the failure, the outermost first, and then the cause.
    * So a row is listed if and only if it does not meet what is expected of it.
    * There are no more mismatches than rows, and the difference is the number of rows that meet
      what is expected of them. -/
theorem check_lists_mismatches [ThreadPool] (settings : BatchSettings) (model : Model)
    (rows : List Row) (expected : List Float) (output : String) :
    (∀ e, check settings model rows expected output = .error e ↔
      rows.length ≠ expected.length ∧ e = ⟨rows.length, expected.length⟩) ∧
    (rows.length = expected.length → ∃ found,
      check settings model rows expected output = .ok found ∧
      (found.map Prod.fst).Pairwise (· < ·) ∧
      (∀ i mismatch, (i, mismatch) ∈ found ↔ ∃ row wanted, rows[i]? = some row ∧
        expected[i]? = some wanted ∧ mismatch.Explains output wanted (model.score row)) ∧
      (∀ i wanted report, (i, .failed wanted report) ∈ found → ∃ row failure,
        rows[i]? = some row ∧ expected[i]? = some wanted ∧ model.score row = .error failure ∧
        report.kind = failure.cause.kind ∧ report.message =
          failure.contexts.foldr (fun context rest => context.message ++ rest)
            failure.cause.message) ∧
      (∀ i row wanted, rows[i]? = some row → expected[i]? = some wanted →
        (i ∈ found.map Prod.fst ↔ ¬ Meets output wanted (model.score row))) ∧
      found.length ≤ rows.length ∧
      rows.length - found.length =
        (rows.zip expected).countP fun pair => Meets output pair.2 (model.score pair.1)) := by
  rw [check, Batch.score_eq]
  constructor
  · intro e
    split
    · rename_i hlength
      simp [hlength, eq_comm]
    · rename_i hlength
      exact iff_of_false nofun fun h => hlength h.1
  · intro hlength
    have hcount := length_mismatches_add_countP output 0
      ((List.length_map model.score).trans hlength)
    rw [List.zip_map_left, List.countP_map, List.length_map] at hcount
    have hmem : ∀ i mismatch, (i, mismatch) ∈
        mismatches output 0 (rows.map model.score) expected ↔ ∃ row wanted,
          rows[i]? = some row ∧ expected[i]? = some wanted ∧
            mismatch.Explains output wanted (model.score row) := fun i mismatch => by
      simp only [mem_mismatches_iff, List.getElem?_map, Option.map_eq_some_iff]
      constructor
      · rintro ⟨_, wanted, ⟨row, hrow, rfl⟩, hwanted, hexplains⟩
        exact ⟨row, wanted, hrow, hwanted, hexplains⟩
      · rintro ⟨row, wanted, hrow, hwanted, hexplains⟩
        exact ⟨_, wanted, ⟨row, hrow, rfl⟩, hwanted, hexplains⟩
    refine ⟨mismatches output 0 (rows.map model.score) expected, if_neg (not_not_intro hlength),
      List.pairwise_map.2 pairwise_mismatches, hmem, fun i wanted report hfound => ?_,
      fun i row wanted hrow => ?_, by omega, ?_⟩
    · obtain ⟨row, wanted', hrow, hwanted, hexplains⟩ := (hmem i _).1 hfound
      generalize hscore : model.score row = result at hexplains
      cases hexplains with
      | @failed failure _ hkind hmessage =>
        exact ⟨row, failure, hrow, hwanted, hscore, hkind.trans failure.kind_eq,
          hmessage.trans failure.message_eq⟩
    · exact mem_map_fst_mismatches_iff (by rw [List.getElem?_map, hrow, Option.map_some])
    · rw [Nat.sub_eq_iff_eq_add' (by omega), ← hcount]
      rfl

end Scoring
