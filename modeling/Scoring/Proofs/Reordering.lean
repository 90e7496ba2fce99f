import Scoring.Proofs.Agreement
import Scoring.Proofs.Derivation

/-!
# The order of derived fields

Derived fields are applied in their order, as a field may read those before it. Nothing else
depends on the order. Two fields with different names, neither of which mentions the other, have
the same values whichever of them is applied first (`DerivedField.eval_put`), and leave the same row
(`DerivedField.put_comm`).

So two such neighbours can be exchanged in any list of fields (`DerivedField.apply_exchange`). Only
where both of them fail there is a difference, as the failure is that of the first one.
-/

namespace Scoring

/-- A value under a name that is not among the fields leaves the row in agreement with itself. -/
theorem AgreeOn.put_left {fields : List String} {name : String} (h : name ∉ fields) (row : Row)
    (v : Value) : AgreeOn fields (DerivedField.put row name v) row := fun field hfield => by
  rw [DerivedField.put]
  split
  · rfl
  · have hname : name ≠ field := fun hname => h (hname ▸ hfield)
    rw [Record.value_insert, if_neg hname]

namespace DerivedField

variable {f g : DerivedField} {name other : String} {row : Row} {v w : Value}

/-- A field does not see a value under a name that it does not mention. -/
theorem eval_put (h : name ∉ f.expression.mentions) : f.eval (put row name v) = f.eval row :=
  readsOnly_eval (List.Subset.refl _) (AgreeOn.put_left h row v)

/-- Under different names it does not matter which derived value is put in first. -/
theorem put_comm (h : name ≠ other) :
    put (put row name v) other w = put (put row other w) name v := by
  -- An absent value is not put in at all.
  by_cases hv : v = .absent
  · simp [put, hv]
  · by_cases hw : w = .absent
    · simp [put, hw]
    · simp [put, hv, hw, Record.insert_comm h]

/-- Two fields, each independent of the other, come to the same in both orders, unless neither of
    them has a value. -/
theorem apply_pair (hname : f.name ≠ g.name) (hf : g.name ∉ f.expression.mentions)
    (hg : f.name ∉ g.expression.mentions) (after : List DerivedField) (row : Row) :
    apply (f :: g :: after) row = apply (g :: f :: after) row ∨
      ∃ e e', f.eval row = .error e ∧ g.eval row = .error e' ∧
        apply (f :: g :: after) row = .error e ∧ apply (g :: f :: after) row = .error e' := by
  simp only [apply_cons]
  cases hfirst : f.eval row with
  | error e =>
    cases hsecond : g.eval row with
    | error e' => exact .inr ⟨e, e', rfl, rfl, rfl, rfl⟩
    | ok w =>
      -- The second field is no help to the first, which fails after it too.
      rw [Outcome.error_bind, Outcome.ok_bind, eval_put hf, hfirst]
      exact .inl rfl
  | ok v =>
    rw [Outcome.ok_bind, eval_put hg]
    cases g.eval row with
    | error e' => exact .inl rfl
    | ok w =>
      rw [Outcome.ok_bind, Outcome.ok_bind, eval_put hf, hfirst, Outcome.ok_bind, put_comm hname]
      exact .inl rfl

/-- Two neighbours among derived fields may be exchanged if they have different names and neither
    mentions the other's: the fields can be applied to a row in both orders or in neither, and make
    the same row of it. The failures are the same as well, unless both neighbours fail, which each
    order then shows of its first one. -/
theorem apply_exchange (before after : List DerivedField) (hname : f.name ≠ g.name)
    (hf : g.name ∉ f.expression.mentions) (hg : f.name ∉ g.expression.mentions) (row : Row) :
    (∀ result, apply (before ++ f :: g :: after) row = .ok result ↔
      apply (before ++ g :: f :: after) row = .ok result) ∧
    (apply (before ++ f :: g :: after) row = apply (before ++ g :: f :: after) row ∨
      ∃ seen e e', apply before row = .ok seen ∧ f.eval seen = .error e ∧ g.eval seen = .error e' ∧
        apply (before ++ f :: g :: after) row = .error e ∧
        apply (before ++ g :: f :: after) row = .error e') := by
  rw [apply_append, apply_append]
  cases hbefore : apply before row with
  | error e => exact ⟨fun result => Iff.rfl, .inl rfl⟩
  | ok seen =>
    rw [Outcome.ok_bind, Outcome.ok_bind]
    rcases apply_pair hname hf hg after seen with hsame | ⟨e, e', hpair⟩
    · rw [hsame]
      exact ⟨fun result => Iff.rfl, .inl rfl⟩
    · refine ⟨fun result => ?_, .inr ⟨seen, e, e', rfl, hpair⟩⟩
      -- Both orders fail, so that there is no result in either.
      rw [hpair.2.2.1, hpair.2.2.2]
      exact iff_of_false nofun nofun

/-- The area and the size in another unit, both of which a later field reads. In either order
    they leave the same row, with 4 as the area, and as text the length 1, which differs. -/
theorem apply_exchange_area :
    let size : Expression := .fieldRef ⟨"size", none, none⟩
    let area : DerivedField := ⟨"area", none, none, .apply .multiply [size, size]⟩
    let length : DerivedField := ⟨"length", none, some .string, .apply .divide [size, size]⟩
    let before : List DerivedField := [⟨"size", none, none, .constant (.number 2) none⟩]
    let after : List DerivedField := [⟨"same", none, none,
      .apply .equal [.fieldRef ⟨"area", none, none⟩, .fieldRef ⟨"length", none, none⟩]⟩]
    let result : Row := .ofList [("size", .number 2), ("area", .number 4), ("length", .text "1"),
      ("same", .boolean false)]
    area.name ≠ length.name ∧ length.name ∉ area.expression.mentions ∧
      area.name ∉ length.expression.mentions ∧
      apply (before ++ area :: length :: after) ∅ = .ok result ∧
      apply (before ++ length :: area :: after) ∅ = .ok result := by
  intro size area length before after result
  have hname : area.name ≠ length.name := by decide
  have harea : length.name ∉ area.expression.mentions := by decide
  have hlength : area.name ∉ length.expression.mentions := by decide
  have hresult : apply (before ++ area :: length :: after) ∅ = .ok result := by decide +kernel
  obtain ⟨hiff, _⟩ := apply_exchange before after hname harea hlength ∅
  exact ⟨hname, harea, hlength, hresult, (hiff result).1 hresult⟩

end DerivedField

end Scoring
