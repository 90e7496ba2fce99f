import Scoring.Value

/-!
# What a record holds

A name is in a record if there is a value under it. Inserting, erasing and merging
say which names there are afterwards (`Record.mem_insert`, `Record.mem_erase`,
`Record.mem_merge`), and what a row reads under each (`Record.value_insert`,
`Record.value_merge`). It does not matter in which order several records are merged
pairwise, as long as they stay in their places (`Record.merge_assoc`).

A property that all values of a record have (`Record.All`) is kept as long as no value is
put in that lacks it.
-/

namespace Scoring

namespace Record

/-! ### Names -/

section Names

variable {α : Type} {r s : Record α} {k l : String} {v : α}

/-- A name is in a record if there is a value for it. -/
theorem mem_iff_exists : k ∈ r ↔ ∃ v, r.get? k = some v := by
  rw [mem_iff, Option.isSome_iff_exists]

/-- Nothing is found under a name that is not in a record, and under no other. -/
theorem get?_eq_none_iff : r.get? k = none ↔ k ∉ r := by
  rw [mem_iff, Option.not_isSome_iff_eq_none]

/-- An entry adds its name. -/
@[simp] theorem mem_insert : l ∈ r.insert k v ↔ k = l ∨ l ∈ r := by
  rw [mem_iff, mem_iff, get?_insert]
  by_cases hk : k = l
  · simp [hk]
  · simp [hk]

/-- Erasing takes a name away, and no other. -/
@[simp] theorem mem_erase : l ∈ r.erase k ↔ k ≠ l ∧ l ∈ r := by
  rw [mem_iff, mem_iff, get?_erase]
  by_cases hk : k = l
  · simp [hk]
  · simp [hk]

/-- A merge has the names of both records. -/
@[simp] theorem mem_merge : k ∈ r.merge s ↔ k ∈ r ∨ k ∈ s := by
  rw [mem_iff, mem_iff, mem_iff, get?_merge, Option.isSome_or, Bool.or_eq_true, or_comm]

/-- A single entry has its name. -/
theorem mem_single_self (k : String) (v : α) : k ∈ single k v :=
  mem_insert.2 (.inl rfl)

/-- A record is not empty if it has a name. -/
theorem ne_empty_iff : r ≠ ∅ ↔ ∃ k, k ∈ r := by
  constructor
  · -- A record without names has no values, and so is the empty one.
    refine fun h => Classical.byContradiction fun hnone => h (ext fun k => ?_)
    exact get?_eq_none_iff.2 fun hk => hnone ⟨k, hk⟩
  · rintro ⟨k, hk⟩ rfl
    cases hk

/-- Steps that put in one entry each add the names of these. -/
theorem mem_foldl_insert {β : Type} {step : Record α → β → Record α} {name : β → String}
    (hstep : ∀ r part, ∃ v, step r part = r.insert (name part) v) {parts : List β} :
    k ∈ parts.foldl step r ↔ k ∈ r ∨ k ∈ parts.map name := by
  induction parts generalizing r with
  | nil => simp
  | cons part parts ih =>
    obtain ⟨v, hv⟩ := hstep r part
    rw [List.foldl_cons, ih, hv, mem_insert, List.map_cons, List.mem_cons, or_assoc,
      or_left_comm, eq_comm]

/-- A record of entries has their names. -/
theorem mem_ofList {es : List (String × α)} : k ∈ ofList es ↔ k ∈ es.map (·.1) := by
  have hstep : ∀ (r : Record α) (e : String × α), ∃ v, r.insert e.1 e.2 = r.insert e.1 v :=
    fun _ e => ⟨e.2, rfl⟩
  rw [ofList, mem_foldl_insert hstep]
  simp [mem_iff]

/-- Steps that touch one name each leave the others alone. -/
theorem get?_foldl_of_ne {β : Type} {step : Record α → β → Record α} {name : β → String}
    (hstep : ∀ r part, name part ≠ k → (step r part).get? k = r.get? k) {parts : List β}
    (h : ∀ part ∈ parts, name part ≠ k) : (parts.foldl step r).get? k = r.get? k := by
  induction parts generalizing r with
  | nil => rfl
  | cons part parts ih =>
    obtain ⟨hname, hparts⟩ := List.forall_mem_cons.1 h
    rw [List.foldl_cons, ih hparts, hstep r part hname]

/-- Under different names it does not matter what is put in first. -/
theorem insert_comm (hkl : k ≠ l) (v w : α) :
    (r.insert k v).insert l w = (r.insert l w).insert k v := by
  ext1 m
  by_cases hk : k = m
  · simp [← hk, hkl.symm]
  · simp [hk]

end Names

/-! ### Merges -/

section Merges

variable {α : Type} (r s t : Record α)

/-- Nothing is overridden by nothing. -/
@[simp] theorem merge_empty : r.merge ∅ = r := rfl

/-- Nothing overridden by a record is the record. -/
@[simp] theorem empty_merge : (∅ : Record α).merge r = r := by
  ext1 k
  rw [get?_merge, get?_empty, Option.or_none]

/-- A record is made again of its entries. -/
@[simp] theorem ofList_entries : ofList r.entries = r := empty_merge r

/-- What is overridden by a second record and then by a third is overridden by both merged. -/
theorem merge_assoc : (r.merge s).merge t = r.merge (s.merge t) := by
  ext1 k
  rw [get?_merge, get?_merge, get?_merge, get?_merge, Option.or_assoc]

/-- A record overridden by itself stays the same. -/
theorem merge_self : r.merge r = r := by
  ext1 k
  rw [get?_merge, Option.or_self]

instance : Std.Associative (@merge α) := ⟨merge_assoc⟩

end Merges

/-! ### Records that need not be there -/

section Optional

variable {α : Type} {r s : Record α} {k : String}

/-- A record without entries is the empty one. -/
theorem isEmpty_iff : r.isEmpty ↔ r = ∅ := by
  constructor
  · intro h
    obtain ⟨entries, _⟩ := r
    obtain rfl : entries = [] := List.isEmpty_iff.1 h
    rfl
  · rintro rfl
    rfl

/-- The test for entries gives nothing for the empty record only. -/
theorem unlessEmpty_eq_none_iff : r.unlessEmpty = none ↔ r = ∅ := by
  simp [unlessEmpty, isEmpty_iff]

/-- The test for entries gives the record itself, if it has any. -/
theorem unlessEmpty_eq_some_iff : r.unlessEmpty = some s ↔ r = s ∧ s ≠ ∅ := by
  simp only [unlessEmpty, isEmpty_iff, Option.ite_none_left_eq_some, Option.some.injEq]
  constructor
  · rintro ⟨hne, rfl⟩
    exact ⟨rfl, hne⟩
  · rintro ⟨rfl, hne⟩
    exact ⟨hne, rfl⟩

/-- What is not there counts as a record without entries, and so the test for entries loses
    nothing. -/
@[simp] theorem getD_unlessEmpty (r : Record α) : r.unlessEmpty.getD ∅ = r := by
  by_cases h : r = ∅
  · rw [unlessEmpty_eq_none_iff.2 h, h]
    rfl
  · rw [unlessEmpty_eq_some_iff.2 ⟨rfl, h⟩]
    rfl

/-- Conversely it changes nothing where a record that is there has entries. -/
theorem unlessEmpty_getD {held : Option (Record α)} (h : held ≠ some ∅) :
    (held.getD ∅).unlessEmpty = held := by
  cases held with
  | none => rfl
  | some r => exact unlessEmpty_eq_some_iff.2 ⟨rfl, fun hr => h (congrArg some hr)⟩

/-- Two records merge to nothing only if there is nothing in either. -/
theorem merge_eq_empty_iff : r.merge s = ∅ ↔ r = ∅ ∧ s = ∅ := by
  constructor
  · intro h
    have hnone : ∀ k, (s.get? k).or (r.get? k) = none := fun k => by
      rw [← get?_merge, h, get?_empty]
    exact ⟨ext fun k => (Option.or_eq_none_iff.1 (hnone k)).2,
      ext fun k => (Option.or_eq_none_iff.1 (hnone k)).1⟩
  · rintro ⟨rfl, rfl⟩
    rfl

/-- A name is in a record that need not be there. -/
theorem mem_getD_iff {held : Option (Record α)} : k ∈ held.getD ∅ ↔ ∃ r ∈ held, k ∈ r := by
  cases held with
  | none => exact iff_of_false nofun nofun
  | some r => simp

end Optional

/-! ### Properties of all values -/

section All

variable {α : Type} {p : α → Prop} {r s : Record α} {k : String} {v : α}

/-- Every value of the record has the property. -/
def All (p : α → Prop) (r : Record α) : Prop := ∀ k v, r.get? k = some v → p v

/-- In entries that are sorted by name, each is found under its own. -/
theorem find?_of_mem {es : List (String × α)} (hes : es.Pairwise (fun e f => e.1 < f.1))
    {e : String × α} (he : e ∈ es) : find? e.1 es = some e.2 := by
  induction es with
  | nil => cases he
  | cons f es ih =>
    obtain ⟨hf, hes⟩ := List.pairwise_cons.1 hes
    -- It is the first entry, or its name comes after that of the first.
    rcases List.mem_cons.1 he with rfl | he
    · exact if_pos rfl
    · rw [find?, if_neg fun hfe => String.lt_irrefl _ (hfe ▸ hf e he), ih hes he]

/-- A property of all values is one of each entry. -/
theorem All.of_mem (hr : r.All p) {e : String × α} (he : e ∈ r.entries) : p e.2 :=
  hr e.1 e.2 (find?_of_mem r.sorted he)

/-- Without entries, every property holds of all values. -/
theorem all_empty : (∅ : Record α).All p := nofun

/-- An entry has to have the property, and then all values have it. -/
theorem All.insert (hr : r.All p) (hv : p v) : (r.insert k v).All p := by
  intro l w hw
  rw [get?_insert] at hw
  split at hw
  · exact Option.some.inj hw ▸ hv
  · exact hr l w hw

/-- Erasing takes nothing from a property of all values. -/
theorem All.erase (hr : r.All p) : (r.erase k).All p := by
  intro l w hw
  rw [get?_erase] at hw
  split at hw
  · cases hw
  · exact hr l w hw

/-- A merge has only values of the two records. -/
theorem All.merge (hr : r.All p) (hs : s.All p) : (r.merge s).All p := by
  intro l w hw
  rw [get?_merge, Option.or_eq_some_iff] at hw
  rcases hw with hw | ⟨_, hw⟩
  · exact hs l w hw
  · exact hr l w hw

/-- A single entry has the property if its value does. -/
theorem all_single (hv : p v) : (single k v).All p := all_empty.insert hv

/-- A record of entries has only values of these. -/
theorem all_ofList {es : List (String × α)} (h : ∀ e ∈ es, p e.2) : (ofList es).All p :=
  List.foldlRecOn es _ all_empty fun _ hr e he => hr.insert (h e he)

end All

/-! ### Values -/

section Values

variable (r s : Row) (k : String)

/-- The value of a name after an entry is that of the entry, if the name is the same. -/
theorem value_insert (l : String) (v : Value) :
    (r.insert l v).value k = if l = k then v else r.value k := by
  rw [value, get?_insert]
  split <;> rfl

/-- The value of a name in a merge is that of the second record, if it has one. -/
theorem value_merge : (r.merge s).value k = ((s.get? k).or (r.get? k)).getD .absent := by
  rw [value, get?_merge]

end Values

end Record

end Scoring
