import Scoring.Proofs.Shares
import Scoring.Proofs.Winner

/-!
# Scores of classes

A regression model that predicts a class puts out the normalised scores of its tables twice:
under the names of the classes (`RegressionModel.categoryOutputs`), and under the names of the
output fields that stand for a class and report probabilities (`OutputField.reportClass`).

If a class has several tables, the last one's score is under the class, as it replaces those
before, while a field looks for the first (`RegressionModel.score_of_category`). So the two agree
on a class with one table, and in general they do not
(`RegressionModel.exists_probability_of_other_table`).
-/

namespace Scoring

/-! ### First and last entries -/

namespace Record

variable {α β : Type} {entries before before' : List (String × α)} {category : String} {x y : α}

/-- A record of entries has the last one for each name. -/
theorem get?_ofList (es : List (String × α)) (k : String) :
    (ofList es).get? k = (es.reverse.find? (·.1 = k)).map (·.2) := by
  rw [ofList]
  induction es using List.reverseRecOn with
  | nil => rfl
  -- From the back, as the last entry is put in last.
  | append_singleton es e ih =>
    rw [List.foldl_concat, get?_insert, ih, List.reverse_concat, List.find?_cons]
    by_cases he : e.1 = k <;> simp [he]

/-- The first entry for a category is the one after `before`. -/
def IsFirst (category : String) (entries before : List (String × α)) (x : α) : Prop :=
  (∃ after, entries = before ++ (category, x) :: after) ∧ ∀ entry ∈ before, entry.1 ≠ category

/-- The last entry for a category is the one after `before`. -/
def IsLast (category : String) (entries before : List (String × α)) (x : α) : Prop :=
  ∃ after, entries = before ++ (category, x) :: after ∧ ∀ entry ∈ after, entry.1 ≠ category

/-- The first entry for a category is what a search from the front finds. -/
theorem IsFirst.find? (h : IsFirst category entries before x) :
    entries.find? (·.1 = category) = some (category, x) := by
  obtain ⟨⟨after, rfl⟩, hbefore⟩ := h
  have hnone : before.find? (·.1 = category) = none :=
    List.find?_eq_none.2 fun entry hentry => by simpa using hbefore entry hentry
  rw [List.find?_append, hnone, Option.none_or, List.find?_cons_of_pos (by simp)]

/-- The last entry for a category is the first one from the back. -/
theorem IsLast.reverse (h : IsLast category entries before x) :
    ∃ after, IsFirst category entries.reverse after x := by
  obtain ⟨after, rfl, hafter⟩ := h
  exact ⟨after.reverse, ⟨before.reverse, by simp⟩,
    fun entry hentry => hafter entry (List.mem_reverse.1 hentry)⟩

/-- Changing what is entered, and not for which category, leaves the last entry in its place. -/
theorem IsLast.map (h : IsLast category entries before x) (f : α → β) :
    IsLast category (entries.map fun entry => (entry.1, f entry.2))
      (before.map fun entry => (entry.1, f entry.2)) (f x) := by
  obtain ⟨after, rfl, hafter⟩ := h
  exact ⟨after.map fun entry => (entry.1, f entry.2), by simp, List.forall_mem_map.2 hafter⟩

/-- The last entry for a category is what a record of the entries has for it. -/
theorem IsLast.get?_ofList (h : IsLast category entries before x) :
    (ofList entries).get? category = some x := by
  obtain ⟨after, hfirst⟩ := h.reverse
  rw [Record.get?_ofList, hfirst.find?, Option.map_some]

/-- A category with an entry has a first one. -/
theorem exists_isFirst (h : category ∈ entries.map (·.1)) :
    ∃ before x, IsFirst category entries before x := by
  obtain ⟨entry, hentry, hcategory⟩ := List.mem_map.1 h
  have hsome : (entries.find? (·.1 = category)).isSome :=
    List.find?_isSome.2 ⟨entry, hentry, decide_eq_true hcategory⟩
  obtain ⟨⟨_, x⟩, hfind⟩ := Option.isSome_iff_exists.1 hsome
  obtain ⟨hfirst, before, after, hsplit, hbefore⟩ := List.find?_eq_some_iff_append.1 hfind
  obtain rfl := of_decide_eq_true hfirst
  exact ⟨before, x, ⟨after, hsplit⟩, fun entry hentry => by simpa using hbefore entry hentry⟩

/-- A category with an entry has a last one. -/
theorem exists_isLast (h : category ∈ entries.map (·.1)) :
    ∃ before x, IsLast category entries before x := by
  have hreverse : category ∈ entries.reverse.map (·.1) := by
    rwa [List.map_reverse, List.mem_reverse]
  -- From the back it is a first one, and what is before it there comes after it.
  obtain ⟨after, x, ⟨before, hsplit⟩, hafter⟩ := exists_isFirst hreverse
  refine ⟨before.reverse, x, after.reverse, ?_, fun entry hentry =>
    hafter entry (List.mem_reverse.1 hentry)⟩
  rw [← List.reverse_reverse entries, hsplit]
  simp

/-- The first entry for a category is the last one if and only if it is the only one. -/
theorem IsFirst.eq_iff (hfirst : IsFirst category entries before x)
    (hlast : IsLast category entries before' y) :
    (before = before' ∧ x = y) ↔ entries.countP (·.1 = category) = 1 := by
  obtain ⟨⟨after, hsplit⟩, hbefore⟩ := hfirst
  obtain ⟨after', hsplit', hafter'⟩ := hlast
  have hnone : ∀ l : List (String × α), l.countP (·.1 = category) = 0 ↔
      ∀ entry ∈ l, entry.1 ≠ category := fun l => by simp [List.countP_eq_zero]
  have hcount : entries.countP (·.1 = category) = before'.countP (·.1 = category) + 1 := by
    rw [hsplit', List.countP_append, List.countP_cons_of_pos (by simp), (hnone after').2 hafter']
  -- Nothing comes after the last entry, so that it is the only one if nothing comes before it.
  rw [hcount]
  constructor
  · rintro ⟨rfl, _⟩
    rw [(hnone before).2 hbefore]
  · intro hone
    have hbefore' := (hnone before').1 (Nat.succ.inj hone)
    -- Both lists are what comes before any entry for the category.
    have htake : ∀ l z (r : List (String × α)), (∀ entry ∈ l, entry.1 ≠ category) →
        (l ++ (category, z) :: r).takeWhile (·.1 ≠ category) = l := fun l z r hl => by
      rw [List.takeWhile_append_of_pos fun entry hentry => decide_eq_true (hl entry hentry)]
      simp
    have hsame : before = before' := by
      rw [← htake before x after hbefore, ← hsplit, hsplit', htake before' y after' hbefore']
    rw [hsplit, hsame] at hsplit'
    have hentry := (List.cons.inj (List.append_cancel_left hsplit')).1
    exact ⟨hsame, congrArg Prod.snd hentry⟩

end Record

/-! ### Output fields -/

namespace OutputField

variable {scores : List (String × Float)} {fields : List OutputField} {field : OutputField}
  {outputs : Outputs} {k : String} {x : Float}

/-- The score that a field reports: the first one of the class that it stands for. -/
def classScore? (scores : List (String × Float)) (field : OutputField) : Option Float :=
  field.value.bind fun value => (scores.find? (·.1 = value)).map (·.2)

/-- The outputs with the score that a field reports, if there is one, under its name. -/
def reportClass (scores : List (String × Float)) (outputs : Outputs) (field : OutputField) :
    Outputs :=
  match field.classScore? scores with
  | some x => outputs.insert field.name (.number x)
  | none => outputs

/-- A field that has a score to report has it under its name. -/
theorem get?_reportClass_self (hx : field.classScore? scores = some x) :
    (field.reportClass scores outputs).get? field.name = some (.number x) := by
  rw [reportClass, hx, Record.get?_insert, if_pos rfl]

/-- Reporting a field changes nothing under other names. -/
theorem get?_reportClass_of_ne (hname : field.name ≠ k) :
    (field.reportClass scores outputs).get? k = outputs.get? k := by
  rw [reportClass]
  split
  · rw [Record.get?_insert, if_neg hname]
  · rfl

/-- Reporting fields changes nothing under names that none of them has. -/
theorem get?_foldl_reportClass_of_ne (h : ∀ field ∈ fields, field.name ≠ k) :
    (fields.foldl (reportClass scores) outputs).get? k = outputs.get? k :=
  Record.get?_foldl_of_ne (fun _ _ => get?_reportClass_of_ne) h

/-- Fields of one name that stand for one class leave the score of this class there. -/
theorem get?_foldl_reportClass (hfield : field ∈ fields) (hx : field.classScore? scores = some x)
    (hsame : ∀ other ∈ fields, other.name = field.name → other.value = field.value) :
    (fields.foldl (reportClass scores) outputs).get? field.name = some (.number x) := by
  induction fields using List.reverseRecOn with
  | nil => cases hfield
  | append_singleton fields last ih =>
    obtain ⟨hfields, hlast⟩ := List.forall_mem_append.1 hsame
    rw [List.foldl_concat]
    -- The last field of the name decides, and it stands for the same class.
    by_cases hname : last.name = field.name
    · have hvalue : last.value = field.value := hlast last (List.mem_singleton_self last) hname
      rw [← hname]
      refine get?_reportClass_self ?_
      rw [← hx, classScore?, classScore?, hvalue]
    · rw [get?_reportClass_of_ne hname]
      refine ih ((List.mem_append.1 hfield).resolve_right fun h => hname ?_) hfields
      rw [List.mem_singleton.1 h]

end OutputField

/-! ### Models -/

namespace RegressionModel

open Record

variable {model : RegressionModel} {row : Row} {scores : List (String × Float)}
  {outputs : Outputs} {k : String}

/-- The output fields of a model that report probabilities. -/
def probabilityFields (model : RegressionModel) : List OutputField :=
  model.output.elim [] Output.probabilityFields

/-- The scores under the names of their classes. -/
def categoryOutputs (scores : List (String × Float)) : Outputs :=
  Record.ofList (scores.map fun (category, score) => (category, .number score))

/-- The outputs of a classification are the scores under the names of their classes, and then
    what the fields report, one after the other. -/
theorem classOutputs_eq (scores : List (String × Float)) : model.classOutputs scores =
    model.probabilityFields.foldl (OutputField.reportClass scores) (categoryOutputs scores) := by
  rw [classOutputs, probabilityFields]
  have hfields : (model.output.map (·.probabilityFields)).getD [] =
      model.output.elim [] Output.probabilityFields := by cases model.output <;> rfl
  rw [hfields]
  refine List.foldl_ext _ _ _ fun outputs field _ => ?_
  rw [OutputField.reportClass, OutputField.classScore?]
  cases field.value with
  | none => rfl
  | some value =>
    simp only [Option.bind_some]
    cases scores.find? (·.1 = value) <;> rfl

/-- Under the name of a class is the last score for it. -/
theorem get?_categoryOutputs {category : String} {before : List (String × Float)} {x : Float}
    (h : IsLast category scores before x) :
    (categoryOutputs scores).get? category = some (.number x) :=
  (h.map Value.number).get?_ofList

/-- Normalisation gives a score for every score. -/
theorem length_normalize (method : NormalizationMethod) (xs : List Float) :
    (method.normalize xs).length = xs.length := by
  cases method with
  | identity => rfl
  | softmax => simp [NormalizationMethod.normalize, NormalizationMethod.softmaxOf]
  | logit => simp [NormalizationMethod.normalize]

/-- Normalisation leaves the classes in their places. -/
theorem map_fst_normalized (model : RegressionModel) (scores : List (String × Float)) :
    (model.normalized scores).map (·.1) = scores.map (·.1) :=
  List.map_fst_zip (by simp [length_normalize])

/-- The classes of the scores are those of the tables. -/
theorem map_targetCategory {tables : List RegressionTable}
    (h : classScores row tables = .ok scores) :
    tables.map (·.targetCategory) = scores.map fun entry => some entry.1 := by
  rw [classScores_eq_ok_iff] at h
  induction h with
  | nil => rfl
  | cons htable _ ih => rw [List.map_cons, List.map_cons, htable.1, ih]

/-- A name is among the classes of the scores if it is the class of a table. -/
theorem mem_normalized_iff (h : classScores row model.tables = .ok scores) :
    k ∈ (model.normalized scores).map (·.1) ↔
      ∃ table ∈ model.tables, table.targetCategory = some k := by
  have hsome : some k ∈ model.tables.map (·.targetCategory) ↔ k ∈ scores.map (·.1) := by
    rw [map_targetCategory h]
    simp
  rw [map_fst_normalized, ← hsome, List.mem_map]

/-- A name is neither the primary one nor that of a field that repeats the prediction, so what
    the scores of the classes leave there is put out. -/
def Keeps (model : RegressionModel) (name : String) : Prop :=
  name ≠ model.primary ∧ name ∉ Output.predictedNames model.output

/-- Reporting the prediction puts nothing under a name that the model keeps. -/
theorem Keeps.get?_report (h : model.Keeps k) (predicted : Value) (outputs : Outputs) :
    (model.report predicted outputs).get? k = outputs.get? k := by
  rw [report, Record.get?_insert, if_neg h.1.symm, Output.get?_fillPredicted_of_not_mem h.2]

/-- A class has as many tables as it has scores. -/
theorem countP_targetCategory {tables : List RegressionTable} {category : String}
    (h : tables.map (·.targetCategory) = scores.map fun entry => some entry.1) :
    tables.countP (·.targetCategory = some category) = scores.countP (·.1 = category) :=
  calc tables.countP (·.targetCategory = some category)
    _ = (tables.map (·.targetCategory)).countP (· = some category) := by
        rw [List.countP_map]
        rfl
    _ = scores.countP (·.1 = category) := by
        rw [h, List.countP_map]
        simp [Function.comp_def]

/-- A field for the probability of a class reports the score of the first table of this class.
    Under the class itself is the score of its last table. These are the same if and only if the
    class has one table.

    Both are put out, unless something else is put under their names later. -/
theorem score_of_category (hfunction : model.function = .classification)
    (h : model.score row = .ok outputs) {field : OutputField}
    (hfield : field ∈ model.probabilityFields) {category : String}
    (hvalue : field.value = some category)
    (htable : ∃ table ∈ model.tables, table.targetCategory = some category) :
    ∃ raw scores predicted before x before' y, classScores row model.tables = .ok raw ∧
      scores = model.normalized raw ∧
      model.tables.map (·.targetCategory) = scores.map (fun entry => some entry.1) ∧
      outputs = model.report predicted
        (model.probabilityFields.foldl (OutputField.reportClass scores)
          (categoryOutputs scores)) ∧
      IsFirst category scores before x ∧ field.classScore? scores = some x ∧
      IsLast category scores before' y ∧
      (categoryOutputs scores).get? category = some (.number y) ∧
      ((before = before' ∧ x = y) ↔
        model.tables.countP (·.targetCategory = some category) = 1) ∧
      (model.Keeps field.name →
        (∀ other ∈ model.probabilityFields,
          other.name = field.name → other.value = field.value) →
        outputs.get? field.name = some (.number x)) ∧
      (model.Keeps category → (∀ other ∈ model.probabilityFields, other.name ≠ category) →
        outputs.get? category = some (.number y)) := by
  obtain ⟨first, rest, hraw, rfl⟩ := (score_eq_ok_iff_of_classification hfunction).1 h
  rw [classOutputs_eq]
  generalize Value.text (winner first rest) = predicted
  generalize first :: rest = raw at hraw
  have hmem := (mem_normalized_iff hraw).2 htable
  have hclasses : model.tables.map (·.targetCategory) =
      (model.normalized raw).map fun entry => some entry.1 := by
    have hfst := congrArg (List.map some) (map_fst_normalized model raw).symm
    rw [List.map_map, List.map_map] at hfst
    exact (map_targetCategory hraw).trans hfst
  generalize hscores : model.normalized raw = scores at hclasses hmem
  -- The class has a table, so that it has a first and a last score.
  obtain ⟨before, x, hfirst⟩ := exists_isFirst hmem
  obtain ⟨before', y, hlast⟩ := exists_isLast hmem
  have hx : field.classScore? scores = some x := by
    rw [OutputField.classScore?, hvalue, Option.bind_some, hfirst.find?]
    rfl
  have hy := get?_categoryOutputs hlast
  refine ⟨raw, scores, predicted, before, x, before', y, hraw, hscores.symm, hclasses, rfl,
    hfirst, hx, hlast, hy, ?_, fun hkeeps hsame => ?_, fun hkeeps hother => ?_⟩
  · rw [hfirst.eq_iff hlast, countP_targetCategory hclasses]
  · rw [hkeeps.get?_report, OutputField.get?_foldl_reportClass hfield hx hsame]
  · rw [hkeeps.get?_report, OutputField.get?_foldl_reportClass_of_ne hother, hy]

/-- The model of one class with the scores 1 and 3 of two tables, and one class with the score
    2, with a field for the probability of one of them. -/
def repeated (category : String) : RegressionModel :=
  { flat "y" [("a", 1), ("b", 2), ("a", 3)] with
    output := some ⟨[Output.probabilityField "Share" category]⟩ }

/-- The field for a class with one table has the score that the class has. -/
theorem score_of_category_single :
    ∃ outputs, (repeated "b").score ∅ = .ok outputs ∧ outputs.get? "Share" = outputs.get? "b" := by
  have hscore : (repeated "b").score ∅ = .ok _ :=
    (score_eq_ok_iff_of_classification rfl).2 ⟨("a", 1), [("b", 2), ("a", 3)], rfl, rfl⟩
  have hfield : Output.probabilityField "Share" "b" ∈ (repeated "b").probabilityFields := by decide
  obtain ⟨_, scores, _, before, x, before', y, _, _, _, _, _, _, _, _, hone, hname, hcategory⟩ :=
    score_of_category rfl hscore hfield rfl ⟨⟨2, some "b", []⟩, by decide, rfl⟩
  obtain ⟨_, rfl⟩ := hone.2 (by decide)
  have hshare := hname ⟨by decide, by decide⟩ (by decide)
  have hclass := hcategory ⟨by decide, by decide⟩ (by decide)
  exact ⟨_, hscore, hshare.trans hclass.symm⟩

/-- The field for a class with two tables has the score of the first, and the class that of the
    second. -/
theorem exists_probability_of_other_table :
    ¬ ∀ (model : RegressionModel) (row : Row) (outputs : Outputs) (field : OutputField)
        (category : String), model.function = .classification → model.score row = .ok outputs →
      model.output = some ⟨[field]⟩ → field.isProbability → field.value = some category →
      (∃ table ∈ model.tables, table.targetCategory = some category) →
      [field.name, category, model.primary].Nodup →
      outputs.get? field.name = outputs.get? category := by
  intro hall
  have hscore : (repeated "a").score ∅ = .ok _ :=
    (score_eq_ok_iff_of_classification rfl).2 ⟨("a", 1), [("b", 2), ("a", 3)], rfl, rfl⟩
  have h := hall (repeated "a") ∅ _ (Output.probabilityField "Share" "a") "a" rfl hscore rfl rfl rfl
    ⟨⟨1, some "a", []⟩, by decide, rfl⟩ (by decide)
  revert h
  decide

end RegressionModel

end Scoring
