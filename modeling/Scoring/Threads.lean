import Scoring.Batch

/-!
# Threads

The threads that the program runs batches on: four, if nothing else is said. A batch is
cut into halves, which are cut in turn as long as they are not too short for it. Whatever
is shown of batches holds for these threads as it does for all others.
-/

namespace Scoring

namespace Batch

variable {α : Type}

/-- A list cut into pieces: into halves, which are cut in turn, as long as neither half is
    empty or has fewer than `least` items. -/
def halves (least : Nat) (xs : List α) : List (List α) :=
  let middle := xs.length / 2
  if middle < max least 1 then [xs]
  else halves least (xs.take middle) ++ halves least (xs.drop middle)
termination_by xs.length
decreasing_by
  all_goals
    simp only [List.length_take, List.length_drop]
    omega

/-- Cutting loses no item and keeps the items in their order. -/
theorem flatten_halves (least : Nat) (xs : List α) : (halves least xs).flatten = xs := by
  fun_induction halves least xs with
  | case1 => simp
  | case2 xs middle h ih ih' => rw [List.flatten_append, ih, ih', List.take_append_drop]

/-- A list that is long enough has no piece that is not. -/
theorem le_length_of_mem_halves {least : Nat} {xs : List α} (h : least ≤ xs.length) :
    ∀ piece ∈ halves least xs, least ≤ piece.length := by
  fun_induction halves least xs with
  | case1 => simpa using h
  | case2 xs middle hmiddle ih ih' =>
    intro piece hpiece
    rcases List.mem_append.1 hpiece with hpiece | hpiece
    · exact ih (by simp only [List.length_take]; omega) piece hpiece
    · exact ih' (by simp only [List.length_drop]; omega) piece hpiece

theorem isCut_halves (least : Nat) (xs : List α) : IsCut least xs (halves least xs) where
  flatten_eq := flatten_halves least xs
  least_le := by
    by_cases h : least ≤ xs.length
    · exact .inl (le_length_of_mem_halves h)
    · -- A list that is too short itself is its own only piece.
      refine .inr ?_
      rw [halves, if_pos (by omega)]

end Batch

instance : ThreadPool where
  available := 4
  cut := Batch.halves
  isCut_cut := Batch.isCut_halves

end Scoring
