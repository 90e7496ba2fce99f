import Scoring.Proofs.Factors
import Scoring.Proofs.Locality
import Scoring.Proofs.Scores

/-!
# Scoring with less data

A row may lose fields (`Record.without`). A predictor that reads one of them contributes
nothing from then on, and the other predictors contribute what they did
(`Predictor.contribution_without`). So a table or a model that has a score keeps one
(`RegressionTable.score_without`, `RegressionModel.score_without`).

A term does not come to fail, because nothing comes to be looked at that was not before: its
product ends at a factor that is lost, or else at the one where it ended when the row was whole
(`Predictor.firstWithoutNumber?_without`).

This is about terms without literals for missing values. A term goes on with the literal of a
field that is lost, and fails if that is no number.
-/

namespace Scoring

/-! ### Rows -/

section

variable {α : Type} {r : Record α} {removed : List String} {k : String}

/-- A record without what it holds under some names. -/
def Record.without (r : Record α) (removed : List String) : Record α := removed.foldl erase r

/-- What has been removed is not there, and all else is. -/
theorem Record.get?_without :
    (r.without removed).get? k = if k ∈ removed then none else r.get? k := by
  rw [without]
  induction removed generalizing r with
  | nil => rfl
  | cons name removed ih =>
    rw [List.foldl_cons, ih, get?_erase]
    by_cases hname : name = k
    · simp [hname]
    · simp [hname, Ne.symm hname]

/-- A removed field is absent, and any other has its value. -/
theorem Record.value_without {row : Row} :
    (row.without removed).value k = if k ∈ removed then .absent else row.value k := by
  rw [value, get?_without]
  split <;> rfl

end

variable {row : Row} {removed : List String}

/-- A row agrees with itself before the removal on all fields that are left. -/
theorem agreeOn_without {fields : List String} (h : ∀ field ∈ fields, field ∉ removed) :
    AgreeOn fields (row.without removed) row := fun field hf => by
  rw [Record.value_without, if_neg (h field hf)]

/-! ### Factors -/

section

variable {ref : FieldRef} {factors : List FieldRef}

/-- Without a literal for what is missing, a factor whose field is removed is absent. -/
theorem FieldRef.factor_without (h : ref.mapMissingTo = none) :
    ref.factor (row.without removed) =
      if ref.field ∈ removed then .absent else ref.factor row := by
  rw [factor, factor, h]
  exact Record.value_without

/-- A factor that is first in having no number when fields are removed either is one of these
    fields or was first before. -/
theorem Predictor.firstWithoutNumber?_without (h : ∀ ref ∈ factors, ref.mapMissingTo = none)
    (hfirst : firstWithoutNumber? (row.without removed) factors = some ref) :
    ref.field ∈ removed ∨ firstWithoutNumber? row factors = some ref := by
  refine or_iff_not_imp_left.2 fun hkept => ?_
  rw [firstWithoutNumber?, List.find?_eq_some_iff_append] at hfirst ⊢
  obtain ⟨hnone, before, after, rfl, hbefore⟩ := hfirst
  have hsame : ∀ other ∈ before ++ ref :: after, other.field ∉ removed →
      other.factor (row.without removed) = other.factor row := fun other hother hkept => by
    rw [FieldRef.factor_without (h other hother), if_neg hkept]
  refine ⟨hsame ref (by simp) hkept ▸ hnone, before, after, rfl, fun other hother => ?_⟩
  -- What comes before has a number, so it is not removed.
  have hnumber := hbefore other hother
  have hmem : other ∈ before ++ ref :: after := List.mem_append_left _ hother
  have hkept' : other.field ∉ removed := fun hremoved => by
    rw [FieldRef.factor_without (h other hmem), if_pos hremoved] at hnumber
    cases hnumber
  rwa [hsame other hmem hkept'] at hnumber

/-- A product that does not fail ends at a missing factor when one of its fields is removed. -/
theorem Predictor.product_without (h : ∀ ref ∈ factors, ref.mapMissingTo = none)
    (hremoved : ∃ ref ∈ factors, ref.field ∈ removed) {acc : Float} {x : Option Float}
    (hrow : product row acc factors = .ok x) :
    product (row.without removed) acc factors = .ok none := by
  have hmissing : ∀ ref ∈ factors, ref.field ∈ removed →
      (ref.factor (row.without removed)).isMissing := fun ref href hremoved => by
    rw [FieldRef.factor_without (h ref href), if_pos hremoved]
    rfl
  obtain ⟨lost, hlost, hlostRemoved⟩ := hremoved
  obtain ⟨ref, hfirst⟩ := exists_firstWithoutNumber? ⟨lost, hlost, hmissing lost hlost hlostRemoved⟩
  have href : ref ∈ factors := List.mem_of_find?_eq_some hfirst
  rw [product_of_firstWithoutNumber? hfirst, if_pos]
  by_cases hkept : ref.field ∈ removed
  · exact hmissing ref href hkept
  · -- The factor was first before, and as the product did not fail there, it is missing.
    rw [product_of_firstWithoutNumber? ((firstWithoutNumber?_without h hfirst).resolve_left hkept)]
      at hrow
    rw [FieldRef.factor_without (h ref href), if_neg hkept]
    by_contra hthere
    rw [if_neg hthere] at hrow
    cases hrow

end

/-! ### Predictors -/

namespace Predictor

variable {predictor : Predictor}

/-- No factor has a literal for what is missing. -/
def Unreplaced : Predictor → Prop
  | term _ _ factors => ∀ ref ∈ factors, ref.mapMissingTo = none
  | numeric _ _ _ | categorical _ _ _ => True

/-- What is left of the contribution `x` of a predictor when some fields are removed: nothing
    if it reads one of them. -/
def remaining (removed : List String) (predictor : Predictor) (x : Float) : Float :=
  if ∃ field ∈ predictor.mentions, field ∈ removed then 0 else x

/-- A predictor that reads a removed field contributes nothing, provided that it contributed
    before. -/
theorem contribution_without_of_mentions (h : predictor.Unreplaced)
    (hremoved : ∃ field ∈ predictor.mentions, field ∈ removed) {x : Float}
    (hrow : predictor.contribution row = .ok x) :
    predictor.contribution (row.without removed) = .ok 0 := by
  cases predictor with
  | numeric name exponent coefficient =>
    have hname : name ∈ removed := by simpa [mentions] using hremoved
    rw [contribution, Record.value_without, if_pos hname]
    rfl
  | categorical name value coefficient =>
    have hname : name ∈ removed := by simpa [mentions] using hremoved
    rw [contribution, Record.value_without, if_pos hname]
    rfl
  | term name coefficient factors =>
    have hfactor : ∃ ref ∈ factors, ref.field ∈ removed := by simpa [mentions] using hremoved
    rw [contribution] at hrow ⊢
    obtain ⟨product, hproduct, _⟩ := Outcome.bind_eq_ok_iff.1 hrow
    rw [product_without h hfactor hproduct]
    rfl

/-- A predictor that contributes goes on doing so when fields are removed, unless it reads one
    of them; then it contributes nothing. -/
theorem contribution_without (h : predictor.Unreplaced) {x : Float}
    (hrow : predictor.contribution row = .ok x) :
    predictor.contribution (row.without removed) = .ok (predictor.remaining removed x) := by
  rw [remaining]
  by_cases hremoved : ∃ field ∈ predictor.mentions, field ∈ removed
  · rw [if_pos hremoved, contribution_without_of_mentions h hremoved hrow]
  · -- It reads none of the removed fields, so that it does not see the removal.
    have hkept : ∀ field ∈ predictor.mentions, field ∉ removed :=
      fun field hf hmem => hremoved ⟨field, hf, hmem⟩
    rw [if_neg hremoved, ← hrow]
    exact predictor.readsOnly_contribution (agreeOn_without hkept)

end Predictor

/-! ### Tables -/

namespace RegressionTable

variable {table : RegressionTable}

/-- The terms of a table have no literals for what is missing. -/
def Unreplaced (table : RegressionTable) : Prop :=
  ∀ predictor ∈ table.predictors, predictor.Unreplaced

/-- What the predictors of a table contribute, one after the other. -/
def Contributions (row : Row) : List Predictor → List Float → Prop :=
  List.Forall₂ fun predictor x => predictor.contribution row = .ok x

/-- Contributions are added up from the first on, and all predictors have one. -/
theorem addContributions_eq_ok_iff {predictors : List Predictor} {start total : Float} :
    addContributions row start predictors = .ok total ↔
      ∃ xs, Contributions row predictors xs ∧ xs.foldl (· + ·) start = total := by
  induction predictors generalizing start with
  | nil =>
    rw [addContributions, Except.ok.injEq]
    constructor
    · exact fun h => ⟨[], .nil, h⟩
    · rintro ⟨_, ⟨⟩, h⟩
      exact h
  | cons predictor predictors ih =>
    rw [addContributions, Outcome.bind_eq_ok_iff]
    constructor
    · rintro ⟨x, hx, hrest⟩
      obtain ⟨xs, hxs, htotal⟩ := ih.1 hrest
      exact ⟨x :: xs, .cons hx hxs, htotal⟩
    · rintro ⟨_, _ | ⟨hx, hxs⟩, htotal⟩
      exact ⟨_, hx, ih.2 ⟨_, hxs, htotal⟩⟩

/-- A table has a score if all of its predictors contribute, and this is their sum. -/
theorem score_eq_ok_iff {total : Float} : table.score row = .ok total ↔
    ∃ xs, Contributions row table.predictors xs ∧
      xs.foldl (· + ·) table.intercept = total :=
  addContributions_eq_ok_iff

/-- Each predictor is left with what remains of its contribution. -/
theorem contributions_without {predictors : List Predictor} {xs : List Float}
    (h : ∀ predictor ∈ predictors, predictor.Unreplaced) (hrow : Contributions row predictors xs)
    (removed : List String) :
    Contributions (row.without removed) predictors
      (List.zipWith (Predictor.remaining removed) predictors xs) := by
  induction hrow with
  | nil => exact .nil
  | cons hx _ ih =>
    obtain ⟨hfirst, hrest⟩ := List.forall_mem_cons.1 h
    exact .cons (Predictor.contribution_without hfirst hx) (ih hrest)

/-- A table that has a score for a row has one for the row without some fields. -/
theorem score_without (h : table.Unreplaced) {total : Float}
    (hrow : table.score row = .ok total) (removed : List String) :
    ∃ total', table.score (row.without removed) = .ok total' := by
  obtain ⟨xs, hxs, _⟩ := score_eq_ok_iff.1 hrow
  exact ⟨_, score_eq_ok_iff.2 ⟨_, contributions_without h hxs removed, rfl⟩⟩

end RegressionTable

/-! ### Models -/

namespace RegressionModel

variable {model : RegressionModel}

/-- The scores of the classes are those of the tables, each of which has a class. -/
theorem classScores_eq_ok_iff {tables : List RegressionTable} {scores : List (String × Float)} :
    classScores row tables = .ok scores ↔
      List.Forall₂ (fun table score => table.targetCategory = some score.1 ∧
        table.score row = .ok score.2) tables scores := by
  induction tables generalizing scores with
  | nil =>
    rw [classScores, Except.ok.injEq, List.forall₂_nil_left_iff, eq_comm]
  | cons table tables ih =>
    rw [classScores]
    -- A table without a class is where the scores fail.
    cases hcategory : table.targetCategory with
    | none =>
      constructor
      · intro h
        cases h
      · rintro (_ | ⟨⟨hcategory', _⟩, _⟩)
        rw [hcategory] at hcategory'
        cases hcategory'
    | some category =>
      simp only [Outcome.bind_eq_ok_iff, ih]
      constructor
      · rintro ⟨x, hx, rest, hrest, h⟩
        obtain rfl := Except.ok.inj h
        exact .cons ⟨hcategory, hx⟩ hrest
      · rintro (_ | ⟨⟨hcategory', hx⟩, hrest⟩)
        rw [hcategory, Option.some.injEq] at hcategory'
        exact ⟨_, hx, _, hrest, by rw [hcategory']⟩

/-- The tables of a model have no literals for what is missing. -/
def Unreplaced (model : RegressionModel) : Prop := ∀ table ∈ model.tables, table.Unreplaced

/-- The same classes have scores after the removal. -/
theorem classScores_without {tables : List RegressionTable} {scores : List (String × Float)}
    (h : ∀ table ∈ tables, table.Unreplaced) (hrow : classScores row tables = .ok scores)
    (removed : List String) :
    ∃ scores', classScores (row.without removed) tables = .ok scores' ∧
      scores'.map (·.1) = scores.map (·.1) := by
  simp only [classScores_eq_ok_iff] at hrow ⊢
  induction hrow with
  | nil => exact ⟨[], .nil, rfl⟩
  | @cons table score tables scores hscore _ ih =>
    obtain ⟨hfirst, hrest⟩ := List.forall_mem_cons.1 h
    obtain ⟨scores', hscores', hclasses⟩ := ih hrest
    obtain ⟨total', htotal'⟩ := RegressionTable.score_without hfirst hscore.2 removed
    refine ⟨(score.1, total') :: scores', .cons ⟨hscore.1, htotal'⟩ hscores', ?_⟩
    rw [List.map_cons, List.map_cons, hclasses]

/-- A model that has a score for a row has one for the row without some fields. -/
theorem score_without (h : model.Unreplaced) {outputs : Outputs}
    (hrow : model.score row = .ok outputs) (removed : List String) :
    ∃ outputs', model.score (row.without removed) = .ok outputs' := by
  cases hfunction : model.function with
  | regression =>
    -- There is one table, and it keeps a score.
    obtain ⟨table, total, htables, htotal, _⟩ :=
      (score_eq_ok_iff_of_regression hfunction).1 hrow
    have htable : table ∈ model.tables := htables ▸ List.mem_singleton_self table
    obtain ⟨total', htotal'⟩ := RegressionTable.score_without (h table htable) htotal removed
    exact ⟨_, (score_eq_ok_iff_of_regression hfunction).2 ⟨table, total', htables, htotal', rfl⟩⟩
  | classification =>
    obtain ⟨first, rest, hscores, _⟩ := (score_eq_ok_iff_of_classification hfunction).1 hrow
    obtain ⟨scores', hscores', hclasses⟩ := classScores_without h hscores removed
    -- As many classes as before have a score, so one of them wins.
    cases scores' with
    | nil => cases hclasses
    | cons first' rest' =>
      exact ⟨_, (score_eq_ok_iff_of_classification hfunction).2 ⟨first', rest', hscores', rfl⟩⟩

end RegressionModel

/-! ### Tables and models -/

/-- A table that has a score keeps one when fields are removed: the sum, in the order of the
    predictors, of the intercept and of what is left of the contributions. So neither kind of
    model comes to fail. -/
theorem scores_of_without (row : Row) (removed : List String) :
    (∀ table : RegressionTable, table.Unreplaced → ∀ total, table.score row = .ok total →
      ∃ xs, RegressionTable.Contributions row table.predictors xs ∧
        xs.foldl (· + ·) table.intercept = total ∧
        table.score (row.without removed) =
          .ok ((List.zipWith (Predictor.remaining removed) table.predictors xs).foldl (· + ·)
            table.intercept)) ∧
    ∀ model : RegressionModel, model.Unreplaced → ∀ outputs, model.score row = .ok outputs →
      ∃ outputs', model.score (row.without removed) = .ok outputs' := by
  refine ⟨fun table h total hrow => ?_, fun model h outputs hrow => ?_⟩
  · obtain ⟨xs, hxs, htotal⟩ := RegressionTable.score_eq_ok_iff.1 hrow
    have hwithout := RegressionTable.contributions_without h hxs removed
    exact ⟨xs, hxs, htotal, RegressionTable.score_eq_ok_iff.2 ⟨_, hwithout, rfl⟩⟩
  · exact RegressionModel.score_without h hrow removed

/-- Without the experience, only the age is left. -/
theorem scores_of_without_experience :
    let row : Row := .insert (.single "age" (.number 2)) "experience" (.number 5)
    let table : RegressionTable := ⟨1, none, [.numeric "age" 1 2,
      .term none 3 [⟨"age", none, none⟩, ⟨"experience", none, none⟩]]⟩
    let model : RegressionModel :=
      ⟨none, .regression, .identity, none, ⟨[]⟩, none, [table]⟩
    table.Unreplaced ∧ table.score row = .ok 35 ∧
      (∃ xs, RegressionTable.Contributions row table.predictors xs ∧
        xs.foldl (· + ·) table.intercept = 35 ∧
        table.score (row.without ["experience"]) =
          .ok ((List.zipWith (Predictor.remaining ["experience"]) table.predictors xs).foldl
            (· + ·) table.intercept)) ∧
      model.Unreplaced ∧ model.score row = .ok (.single "predicted" (.number 35)) ∧
      ∃ outputs', model.score (row.without ["experience"]) = .ok outputs' := by
  intro row table model
  have htable : table.Unreplaced := by
    rw [RegressionTable.Unreplaced]
    simp [table, Predictor.Unreplaced]
  have hmodel : model.Unreplaced := List.forall_mem_singleton.2 htable
  have hscore : table.score row = .ok 35 := by decide +kernel
  have hmodelScore : model.score row = .ok (.single "predicted" (.number 35)) := by
    decide +kernel
  obtain ⟨htables, hmodels⟩ := scores_of_without row ["experience"]
  exact ⟨htable, hscore, htables table htable 35 hscore, hmodel, hmodelScore,
    hmodels model hmodel _ hmodelScore⟩

end Scoring
