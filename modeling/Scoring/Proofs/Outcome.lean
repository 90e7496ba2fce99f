import Scoring.Model

/-!
# Outcomes

What is known of the parts of an evaluation whose outcome is known. A chain of
evaluations succeeds if each of them does (`Outcome.bind_eq_ok_iff`). A context
changes no success (`Outcome.within_eq_ok_iff`), nor does the name of a model
(`Outcome.inModel_eq_ok_iff`).
-/

namespace Scoring

namespace Outcome

variable {α β : Type} {x : Outcome α} {f : α → Outcome β}

@[simp] theorem ok_bind (a : α) : ((.ok a : Outcome α) >>= f) = f a := rfl

@[simp] theorem error_bind (e : Failure) : ((.error e : Outcome α) >>= f) = .error e := rfl

@[simp] theorem map_ok (g : α → β) (a : α) : g <$> (.ok a : Outcome α) = .ok (g a) := rfl

@[simp] theorem map_error (g : α → β) (e : Failure) :
    g <$> (.error e : Outcome α) = .error e := rfl

/-- A sequence of two evaluations has a value if the first has one, for which the second has
    this value. -/
theorem bind_eq_ok_iff {b : β} : (x >>= f) = .ok b ↔ ∃ a, x = .ok a ∧ f a = .ok b := by
  cases x <;> simp

/-- A function of an outcome has a value if the outcome has one. -/
theorem map_eq_ok_iff {g : α → β} {b : β} : g <$> x = .ok b ↔ ∃ a, x = .ok a ∧ g a = b := by
  cases x <;> simp

/-- A sequence of two evaluations fails as the first, or as the second for the value of the
    first. -/
theorem bind_eq_error_iff {e : Failure} :
    (x >>= f) = .error e ↔ x = .error e ∨ ∃ a, x = .ok a ∧ f a = .error e := by
  cases x <;> simp

/-- A function of an outcome fails as the outcome. -/
@[simp] theorem map_eq_error_iff {g : α → β} {e : Failure} :
    g <$> x = .error e ↔ x = .error e := by
  cases x <;> simp

@[simp] theorem within_ok (c : Context) (a : α) : Outcome.within c (.ok a) = .ok a := rfl

@[simp] theorem within_error (c : Context) (e : Failure) :
    Outcome.within c (.error e : Outcome α) = .error (e.within c) := rfl

/-- A context does not change values. -/
@[simp] theorem within_eq_ok_iff {c : Context} {a : α} : x.within c = .ok a ↔ x = .ok a := by
  cases x <;> simp

/-- What fails within a context has that context around it. -/
theorem within_eq_error_iff {c : Context} {e : Failure} :
    x.within c = .error e ↔ ∃ e', x = .error e' ∧ e'.within c = e := by
  cases x <;> simp

/-- The name of a model does not change values. -/
@[simp] theorem inModel_eq_ok_iff {name : Option String} {a : α} :
    x.inModel name = .ok a ↔ x = .ok a := by
  cases name <;> simp [inModel]

end Outcome

end Scoring
