import Mathlib.Data.List.DropRight
import Scoring.Proofs.ExpectedValues
import Scoring.Proofs.Mismatches
import Scoring.Proofs.ReadBack
import Scoring.Threads

/-!
# Checking against own outputs

The outputs of a model, each written on a line of its own, are read as the expected values that they
are (`Number.read?_text`, `Input.entry_text`), and the model can be checked against them. A finite
number is as close to itself as it can be. An infinite one is not: it differs from itself by what is
not a number (`Check.abs_sub_self_le_iff`). So the check refuses the infinite outputs and no others
(`check_own_outputs`).
-/

namespace Scoring

/-! ### Texts of numbers -/

namespace Text

/-- After blanks have been cut off, there are none left to cut off. -/
theorem trimChars_trimChars (cs : List Char) : trimChars (trimChars cs) = trimChars cs := by
  have htrim (cs : List Char) :
      trimChars cs = (cs.dropWhile isBlankChar).rdropWhile isBlankChar := rfl
  -- Where something is left, it begins with the first character that is not blank.
  have hhead : (trimChars cs).dropWhile isBlankChar = trimChars cs := by
    obtain ⟨cut, hcut⟩ : trimChars cs <+: cs.dropWhile isBlankChar := List.rdropWhile_prefix _ _
    cases htrimmed : trimChars cs with
    | nil => rfl
    | cons c rest =>
      have hfirst := List.head?_dropWhile_not isBlankChar cs
      rw [← hcut, htrimmed] at hfirst
      exact List.dropWhile_cons_of_neg (by simpa using hfirst)
  rw [htrim (trimChars cs), hhead, htrim cs, List.rdropWhile_idempotent]

/-- Nothing is left of a blank text. -/
theorem trimChars_eq_nil_of_isBlank {s : String} (h : isBlank s) : trimChars s.toList = [] := by
  have hdrop : s.toList.dropWhile isBlankChar = [] :=
    List.dropWhile_eq_nil_iff.2 (List.all_eq_true.1 h)
  rw [trimChars, hdrop]
  rfl

end Text

namespace Number

variable {x : Float} {s : String}

/-- A text that reads as a number is not blank. -/
theorem not_isBlank_of_read? (h : read? s = some x) : ¬ Text.isBlank s := fun hblank => by
  have hnone : ofSignedChars? [] = none := by decide
  rw [read?, Text.trimChars_eq_nil_of_isBlank hblank, hnone] at h
  cases h

end Number

/-- The text of a number is an entry of expected values. -/
theorem Input.entry_text {x : Float} (h : ¬ x.isNaN) :
    Entry (Text.trimChars (Number.text x).toList) x := by
  refine .bare ?_
  rw [Number.read?, String.toList_ofList, Text.trimChars_trimChars]
  exact Number.read?_text h

namespace Check

/-- The infinite numbers of a list, with their indices, each as a mismatch with itself; `index` is
    that of the first number. -/
def infinite (index : Nat) (xs : List Float) : List (Nat × Mismatch) :=
  (xs.zipIdx index).filterMap fun (x, i) => if x.isInf then some (i, .differs x x) else none

/-- An infinite number is listed first, and any other is passed over and counts. -/
theorem infinite_cons (index : Nat) (x : Float) (xs : List Float) :
    infinite index (x :: xs) =
      if x.isInf then (index, .differs x x) :: infinite (index + 1) xs
      else infinite (index + 1) xs := by
  by_cases h : x.isInf <;> simp [infinite, h]

/-- A number differs from itself by little, unless it is infinite or no number at all. -/
theorem abs_sub_self_le_iff {x : Float} : (x - x).abs ≤ 1e-8 ↔ x.isFinite := by
  by_cases hfinite : x.isFinite
  · rw [Double.sub_self hfinite]
    exact iff_of_true (by decide) hfinite
  · -- The difference is not a number, and no bound holds for it.
    rw [Double.sub_self_of_not_isFinite hfinite]
    exact iff_of_false (by decide) hfinite

/-- An output has no mismatch with itself if it is finite, and differs from itself otherwise. -/
theorem mismatch?_of_get? {outputs : Outputs} {output : String} {x : Float}
    (h : outputs.get? output = some (.number x)) :
    mismatch? output x (.ok (some outputs)) =
      if x.isFinite then none else some (.differs x x) := by
  rw [mismatch?_of_reads ⟨.number x, h, rfl⟩]
  simp only [abs_sub_self_le_iff]

end Check

/-- A row is scored, and the output is this number. -/
def Model.Gives (model : Model) (output : String) (row : Row) (x : Float) : Prop :=
  ∃ outputs, model.score row = .ok (some outputs) ∧ outputs.get? output = some (.number x)

namespace Check

variable {model : Model} {output : String} {rows : List Row} {xs : List Float}

/-- The mismatches of outputs with themselves are the infinite ones. -/
theorem mismatches_of_gives (h : List.Forall₂ (model.Gives output) rows xs)
    (hnan : ∀ x ∈ xs, ¬ x.isNaN) (index : Nat) :
    mismatches output index (rows.map model.score) xs = infinite index xs := by
  induction h generalizing index with
  | nil => rfl
  | @cons row x rows xs hgives _ ih =>
    obtain ⟨outputs, hscore, houtput⟩ := hgives
    obtain ⟨hx, hxs⟩ := List.forall_mem_cons.1 hnan
    have hinf := Double.isInf_iff hx
    rw [List.map_cons, hscore, mismatches, mismatch?_of_get? houtput, infinite_cons, ih hxs]
    by_cases hfinite : x.isFinite
    · rw [if_pos hfinite, if_neg fun h => hinf.1 h hfinite]
    · rw [if_neg hfinite, if_pos (hinf.2 hfinite)]

/-- Nothing is listed if and only if no number is infinite. -/
theorem infinite_eq_nil_iff : infinite 0 xs = [] ↔ ∀ x ∈ xs, ¬ x.isInf := by
  simp only [infinite, List.filterMap_eq_nil_iff, ite_eq_right_iff, reduceCtorEq, imp_false]
  constructor
  · intro h x hx
    obtain ⟨i, hi⟩ := List.mem_iff_getElem?.1 hx
    exact h (x, i) (List.mk_mem_zipIdx_iff_getElem?.2 hi)
  · exact fun h pair hpair => h pair.1 (List.fst_mem_of_mem_zipIdx hpair)

end Check

section

variable {model : Model} {output : String} {rows : List Row} {xs : List Float}

/-- A check of a model against its own outputs lists the infinite ones. -/
theorem check_of_gives [ThreadPool] (settings : BatchSettings)
    (hgives : List.Forall₂ (model.Gives output) rows xs) (hnan : ∀ x ∈ xs, ¬ x.isNaN) :
    check settings model rows xs output = .ok (Check.infinite 0 xs) := by
  rw [check, if_neg (not_not_intro hgives.length_eq), Batch.score_eq,
    Check.mismatches_of_gives hgives hnan]

/-- A model is checked against its own outputs, which are numbers. If each line of a text is the
    text of the output for a row, the text is read as these outputs. The check then reports exactly
    the infinite ones, each as different from itself, and so it reports nothing if and only if there
    are none. -/
theorem check_own_outputs [ThreadPool] (settings : BatchSettings) {text : String}
    (hgives : List.Forall₂ (model.Gives output) rows xs) (hnan : ∀ x ∈ xs, ¬ x.isNaN)
    (hlines : Text.lines text = xs.map Number.text) :
    Input.expected text = .ok xs ∧
    check settings model rows xs output = .ok (Check.infinite 0 xs) ∧
    (check settings model rows xs output = .ok [] ↔ ∀ x ∈ xs, ¬ x.isInf) := by
  have hcheck := check_of_gives settings hgives hnan
  refine ⟨?_, hcheck, ?_⟩
  · -- Each line is the text of a number, so that none is left out.
    have hblank : Text.nonblank (xs.map Number.text) = xs.map Number.text :=
      List.filter_eq_self.2 fun line hline => by
        obtain ⟨x, hx, rfl⟩ := List.mem_map.1 hline
        simpa using Number.not_isBlank_of_read? (Number.read?_text (hnan x hx))
    rw [Input.expected, Text.numberedLines_eq,
      Input.readLines_eq_ok_iff Input.expectedNumber?_eq_some_iff, hlines, hblank,
      List.forall₂_map_left_iff, List.forall₂_same]
    exact fun x hx => .inl (Input.entry_text (hnan x hx))
  · rw [hcheck, Except.ok.injEq, Check.infinite_eq_nil_iff]

end

/-- A model whose output is a multiple of a field. -/
def RegressionModel.scaled (coefficient : Float) : RegressionModel :=
  ⟨none, .regression, .identity, some "y", ⟨[]⟩, none, [⟨0, none, [.numeric "x" 1 coefficient]⟩]⟩

/-- The model gives the multiple, if that is what its table comes to. -/
theorem Model.gives_scaled {coefficient x y : Float}
    (h : (RegressionModel.scaled coefficient).score (.single "x" (.number x)) =
      .ok (.single "y" (.number y))) :
    (Model.regression (.scaled coefficient)).Gives "y" (.single "x" (.number x)) y := by
  refine ⟨.single "y" (.number y), ?_, rfl⟩
  change some <$> (RegressionModel.scaled coefficient).score (.single "x" (.number x)) = _
  rw [h]
  rfl

/-- Twice some numbers, as the model has them. -/
theorem check_own_outputs_scaled :
    let model : Model := .regression (.scaled 2)
    let rows : List Row := [.single "x" (.number 1.5), .single "x" (.number (-4))]
    let xs : List Float := [3, -8]
    List.Forall₂ (model.Gives "y") rows xs ∧ (∀ x ∈ xs, ¬ x.isNaN) ∧
      Text.lines "3\r\n-8" = xs.map Number.text ∧ Input.expected "3\r\n-8" = .ok xs ∧
      check .default model rows xs "y" = .ok [] := by
  intro model rows xs
  have hgives : List.Forall₂ (model.Gives "y") rows xs :=
    .cons (Model.gives_scaled (by decide +kernel))
      (.cons (Model.gives_scaled (by decide +kernel)) .nil)
  have hnan : ∀ x ∈ xs, ¬ x.isNaN := by decide +kernel
  have hlines : Text.lines "3\r\n-8" = xs.map Number.text := by decide +kernel
  obtain ⟨hexpected, _, hcheck⟩ := check_own_outputs .default hgives hnan hlines
  exact ⟨hgives, hnan, hlines, hexpected, hcheck.2 (by decide +kernel)⟩

/-- A product that is too great for a double is infinite, and the check refuses it as its own
    value. -/
theorem exists_own_output_refused : ∃ (settings : BatchSettings) (model : Model) (output : String)
    (rows : List Row) (xs : List Float) (text : String),
    List.Forall₂ (model.Gives output) rows xs ∧ (∀ x ∈ xs, ¬ x.isNaN) ∧
      Text.lines text = xs.map Number.text ∧ Input.expected text = .ok xs ∧
      check settings model rows xs output ≠ .ok [] := by
  have hgives : List.Forall₂ ((Model.regression (.scaled 1e308)).Gives "y")
      [.single "x" (.number 10)] [Decimal.infinity] :=
    .cons (Model.gives_scaled (by decide +kernel)) .nil
  have hnan : ∀ x ∈ [Decimal.infinity], ¬ x.isNaN := by decide +kernel
  refine ⟨.default, _, "y", _, _, "inf", hgives, hnan, by decide +kernel, by decide +kernel, ?_⟩
  rw [check_of_gives .default hgives hnan]
  decide +kernel

end Scoring
