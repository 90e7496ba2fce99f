import Scoring.Proofs.Order
import Scoring.Proofs.Removal

/-!
# The winner of a classification

A regression model that predicts a class goes through the scores of its tables once, and takes
a later one only if it exceeds the best so far. The score that is left is exceeded by none and
equals none before it (`RegressionModel.exists_winner`).

Scores need not be numbers in the sense that they can be compared. What is not a number exceeds
nothing and is exceeded by nothing, so it is left if it comes first and is passed over otherwise.
To compare each score with the best so far is still enough, as this comparison is transitive
(`Double.lt_trans`).

The scores are those before normalisation. So the methods of normalisation lead to the same
class, which is the prediction whatever names the other outputs have
(`RegressionModel.score_winner`).
-/

namespace Scoring.RegressionModel

open Double

variable {model : RegressionModel} {row : Row} {tables : List RegressionTable}
  {scores : List (String × Float)} {category : String}

/-! ### The scan -/

/-- The class that a scan ends with has a score that no other exceeds and that none before it
    equals. If it is not the first class, its score exceeds that of the first. -/
theorem exists_winner (best : String × Float) (rest : List (String × Float)) :
    ∃ before entry after, best :: rest = before ++ entry :: after ∧
      winner best rest = entry.1 ∧
      (∀ other ∈ best :: rest, ¬ entry.2 < other.2) ∧
      (∀ earlier ∈ before, ¬ earlier.2 == entry.2) ∧
      (before = [] ∨ best.2 < entry.2) := by
  induction rest generalizing best with
  | nil =>
    have hbest : ∀ other ∈ [best], ¬ best.2 < other.2 :=
      List.forall_mem_singleton.2 (lt_irrefl best.2)
    exact ⟨[], best, [], rfl, rfl, hbest, List.forall_mem_nil _, .inl rfl⟩
  | cons next rest ih =>
    rw [winner]
    by_cases hnext : best.2 < next.2
    · rw [if_pos hnext]
      obtain ⟨before, entry, after, hsplit, hwinner, hgreatest, hfirst, hhead⟩ := ih next
      -- What is left at the end is `next` or exceeds it, and so exceeds `best` in either case.
      have hbest : best.2 < entry.2 := by
        rcases hhead with rfl | hhead
        · obtain ⟨rfl, _⟩ := List.cons.inj hsplit
          exact hnext
        · exact lt_trans hnext hhead
      have hless : ¬ entry.2 < best.2 := fun h => lt_irrefl _ (lt_trans hbest h)
      have hne : ¬ best.2 == entry.2 := fun h => lt_irrefl _ (lt_of_lt_of_beq hbest h)
      exact ⟨best :: before, entry, after, congrArg (best :: ·) hsplit, hwinner,
        List.forall_mem_cons.2 ⟨hless, hgreatest⟩, List.forall_mem_cons.2 ⟨hne, hfirst⟩,
        .inr hbest⟩
    · rw [if_neg hnext]
      -- `next` is passed over. It is put back behind `best`, if that is not what is left.
      obtain ⟨before, entry, after, hsplit, hwinner, hgreatest, hfirst, hhead⟩ := ih best
      obtain ⟨hless, hgreatest⟩ := List.forall_mem_cons.1 hgreatest
      cases before with
      | nil =>
        obtain ⟨rfl, rfl⟩ := List.cons.inj hsplit
        exact ⟨[], best, next :: rest, rfl, hwinner,
          List.forall_mem_cons.2 ⟨hless, List.forall_mem_cons.2 ⟨hnext, hgreatest⟩⟩,
          List.forall_mem_nil _, .inl rfl⟩
      | cons first before =>
        obtain ⟨rfl, rfl⟩ := List.cons.inj hsplit
        obtain ⟨hbest, hfirst⟩ := List.forall_mem_cons.1 hfirst
        -- A score that `best` is exceeded by is not exceeded or equalled by `next`, which does
        -- not exceed `best`.
        have hexceeds : best.2 < entry.2 := hhead.resolve_left (List.cons_ne_nil _ _)
        have hnextLess : ¬ entry.2 < next.2 := fun h => hnext (lt_trans hexceeds h)
        have hnextNe : ¬ next.2 == entry.2 := fun h => hnext (lt_of_lt_of_beq hexceeds h)
        exact ⟨best :: next :: before, entry, after, rfl, hwinner,
          List.forall_mem_cons.2 ⟨hless, List.forall_mem_cons.2 ⟨hnextLess, hgreatest⟩⟩,
          List.forall_mem_cons.2 ⟨hbest, List.forall_mem_cons.2 ⟨hnextNe, hfirst⟩⟩,
          .inr hexceeds⟩

/-! ### Tables -/

/-- A class is that of a table whose score no other exceeds and none before it equals. If this
    is not the first table, it exceeds the first. -/
def Wins (row : Row) (tables : List RegressionTable) (category : String) : Prop :=
  ∃ (before : List RegressionTable) (table : RegressionTable) (after : List RegressionTable)
      (x : Float), tables = before ++ table :: after ∧
    table.targetCategory = some category ∧ table.score row = .ok x ∧
    (∀ other ∈ tables, ∀ y, other.score row = .ok y → ¬ x < y) ∧
    (∀ earlier ∈ before, ∀ y, earlier.score row = .ok y → ¬ y == x) ∧
    ∀ first ∈ before.head?, ∀ y, first.score row = .ok y → y < x

theorem exists_mem_of_forall₂ {α β : Type} {R : α → β → Prop} {as : List α} {bs : List β} {a : α}
    (h : List.Forall₂ R as bs) (ha : a ∈ as) : ∃ b ∈ bs, R a b := by
  induction h with
  | nil => cases ha
  | cons hhead _ ih =>
    rcases List.mem_cons.1 ha with rfl | ha
    · exact ⟨_, List.mem_cons_self, hhead⟩
    · obtain ⟨b, hb, hab⟩ := ih ha
      exact ⟨b, List.mem_cons_of_mem _ hb, hab⟩

/-- The score of a table that has one is among the scores. -/
theorem exists_mem_scores (h : classScores row tables = .ok scores) {table : RegressionTable}
    {x : Float} (htable : table ∈ tables) (hx : table.score row = .ok x) :
    ∃ entry ∈ scores, entry.2 = x := by
  obtain ⟨entry, hentry, _, hscore⟩ := exists_mem_of_forall₂ (classScores_eq_ok_iff.1 h) htable
  exact ⟨entry, hentry, Except.ok.inj (hscore.symm.trans hx)⟩

/-- The class that a scan of the scores ends with is the winner among the tables. -/
theorem wins_winner {first : String × Float} {rest : List (String × Float)}
    (h : classScores row tables = .ok (first :: rest)) : Wins row tables (winner first rest) := by
  obtain ⟨before, entry, after, hsplit, hwinner, hgreatest, hfirst, hhead⟩ :=
    exists_winner first rest
  have hscores := classScores_eq_ok_iff.1 h
  rw [hsplit] at hscores
  -- The scores before the winner are those of the tables before its table.
  have hearlier := List.forall₂_take_append tables before (entry :: after) hscores
  obtain ⟨table, later, ⟨hcategory, hscore⟩, _, htable⟩ :=
    List.forall₂_cons_right_iff.1 (List.forall₂_drop_append tables before (entry :: after) hscores)
  refine ⟨tables.take before.length, table, later, entry.2,
    htable ▸ (List.take_append_drop before.length tables).symm, hwinner ▸ hcategory, hscore,
    fun other hother y hy => ?_, fun earlier hmem y hy => ?_, fun head hmem y hy => ?_⟩
  · obtain ⟨entry', hentry', rfl⟩ := exists_mem_scores h hother hy
    exact hgreatest entry' hentry'
  · obtain ⟨entry', hentry', rfl⟩ := exists_mem_scores (classScores_eq_ok_iff.2 hearlier) hmem hy
    exact hfirst entry' hentry'
  · cases before with
    | nil => cases hmem
    | cons head' before =>
      -- The first table has the first score, which the winner exceeds.
      obtain ⟨rfl, _⟩ := List.cons.inj hsplit
      obtain ⟨table', tables', ⟨_, hscore'⟩, _, htables'⟩ := List.forall₂_cons_right_iff.1 hearlier
      rw [htables'] at hmem
      obtain rfl := Option.some.inj hmem
      obtain rfl := Except.ok.inj (hscore'.symm.trans hy)
      exact hhead.resolve_left (List.cons_ne_nil _ _)

/-- If every table has a class and a score, all of them are scored. -/
theorem exists_classScores (h : ∀ table ∈ tables,
      (∃ category, table.targetCategory = some category) ∧ ∃ x, table.score row = .ok x) :
    ∃ scores, classScores row tables = .ok scores ∧ scores.length = tables.length := by
  induction tables with
  | nil => exact ⟨[], rfl, rfl⟩
  | cons table tables ih =>
    obtain ⟨⟨⟨category, hcategory⟩, x, hx⟩, htables⟩ := List.forall_mem_cons.1 h
    obtain ⟨scores, hscores, hlength⟩ := ih htables
    refine ⟨(category, x) :: scores, ?_, congrArg (· + 1) hlength⟩
    rw [classScores_eq_ok_iff] at hscores ⊢
    exact .cons ⟨hcategory, hx⟩ hscores

/-! ### Predictions -/

/-- What is reported as the prediction is under the primary name, whatever else is called so. -/
theorem get?_primary_report (model : RegressionModel) (predicted : Value) (outputs : Outputs) :
    (model.report predicted outputs).get? model.primary = some predicted := by
  rw [report, Record.get?_insert, if_pos rfl]

/-- A model that predicts a class predicts that of its winning table, by the scores before
    normalisation, whatever the method of normalisation. The text of the class is under the
    primary name. -/
theorem score_winner (hfunction : model.function = .classification) (hne : model.tables ≠ [])
    (htables : ∀ table ∈ model.tables,
      (∃ category, table.targetCategory = some category) ∧ ∃ x, table.score row = .ok x) :
    ∃ category, Wins row model.tables category ∧ ∀ method, ∃ outputs,
      { model with normalization := method }.score row = .ok outputs ∧
      outputs.get? model.primary = some (.text category) := by
  obtain ⟨scores, hscores, hlength⟩ := exists_classScores htables
  cases scores with
  | nil => exact absurd (List.length_eq_zero_iff.1 hlength.symm) hne
  | cons first rest =>
    refine ⟨winner first rest, wins_winner hscores, fun method => ?_⟩
    let other := { model with normalization := method }
    have hother : other.function = .classification := hfunction
    have hscore := (score_eq_ok_iff_of_classification hother).2 ⟨first, rest, hscores, rfl⟩
    exact ⟨_, hscore, get?_primary_report other _ _⟩

/-- A model with a table without predictors for each class, whose score is the same for every
    row. -/
def flat (target : String) (scores : List (String × Float)) : RegressionModel where
  name := none
  function := .classification
  normalization := .identity
  targetField := some target
  schema := ⟨[]⟩
  output := none
  tables := scores.map fun (category, x) => ⟨x, some category, []⟩

theorem forall_mem_tables_flat (target : String) (scores : List (String × Float)) (row : Row) :
    ∀ table ∈ (flat target scores).tables,
      (∃ category, table.targetCategory = some category) ∧ ∃ x, table.score row = .ok x :=
  List.forall_mem_map.2 fun entry _ => ⟨⟨entry.1, rfl⟩, entry.2, rfl⟩

/-- Two classes have the greatest score, and the first of them wins, although the primary name
    is that of a class. What is not a number has no part in this. -/
theorem score_winner_tie :
    let model := flat "b" [("a", 1), ("b", 3), ("c", 0 / 0), ("d", 3)]
    Wins ∅ model.tables "b" ∧ ∀ method, ∃ outputs,
      { model with normalization := method }.score ∅ = .ok outputs ∧
      outputs.get? "b" = some (.text "b") := by
  intro model
  have hne : model.tables ≠ [] := List.cons_ne_nil _ _
  obtain ⟨category, hwins, hmethods⟩ := score_winner rfl hne (forall_mem_tables_flat _ _ ∅)
  obtain ⟨outputs, hscore, hcategory⟩ := hmethods .identity
  have hpredicted : (model.score ∅).toOption.bind (·.get? "b") = some (.text "b") := by
    decide +kernel
  rw [show model.score ∅ = .ok outputs from hscore] at hpredicted
  obtain rfl := Value.text.inj (Option.some.inj (hcategory.symm.trans hpredicted))
  exact ⟨hwins, hmethods⟩

end Scoring.RegressionModel
