/-!
# Records

A record assigns values to finitely many names: the row that is scored is one,
and so are the outputs of a prediction. It is kept as a list of entries in
strictly increasing order of their names, so each name has one entry at most, and
two records that hold the same values under the same names are equal
(`Record.ext`).

Reading a name with `get?` is the view of a record. Each operation is described
by what is read after it:

* `get?_insert`: the new value under the name inserted, the old values elsewhere;
* `get?_erase`: nothing under the name erased, the old values elsewhere;
* `get?_merge`: the second record's values, and the first's where it has none.
-/

namespace Scoring

/-- Finitely many values, each under a name of its own. -/
structure Record (α : Type) where
  /-- The names with their values, in order of the names. -/
  entries : List (String × α)
  sorted : entries.Pairwise (fun e f => e.1 < f.1) := by simp
  deriving DecidableEq

namespace Record

variable {α : Type}

/-- The record without entries. -/
def empty : Record α where
  entries := []

instance : EmptyCollection (Record α) := ⟨empty⟩
instance : Inhabited (Record α) := ⟨∅⟩

/-! ### Reading -/

/-- The value under a name in a list of entries. -/
def find? (k : String) : List (String × α) → Option α
  | [] => none
  | (l, v) :: es => if l = k then some v else find? k es

/-- The value under a name, if there is one. -/
def get? (r : Record α) (k : String) : Option α := find? k r.entries

/-- Whether a record has no entries. -/
def isEmpty (r : Record α) : Bool := r.entries.isEmpty

/-- The record, unless it has no entries. -/
def unlessEmpty (r : Record α) : Option (Record α) := if r.isEmpty then none else some r

instance : Membership String (Record α) := ⟨fun r k => (r.get? k).isSome⟩

instance (k : String) (r : Record α) : Decidable (k ∈ r) :=
  inferInstanceAs (Decidable ((r.get? k).isSome = true))

theorem mem_iff {k : String} {r : Record α} : k ∈ r ↔ (r.get? k).isSome := Iff.rfl

@[simp] theorem get?_empty (k : String) : (∅ : Record α).get? k = none := rfl

theorem find?_eq_none_of_forall_ne {k : String} {es : List (String × α)}
    (h : ∀ e ∈ es, e.1 ≠ k) : find? k es = none := by
  induction es with
  | nil => rfl
  | cons e es ih =>
    simp only [find?, if_neg (h e List.mem_cons_self)]
    exact ih fun e he => h e (List.mem_cons_of_mem _ he)

/-- Before the first name of a sorted list there is nothing. -/
theorem find?_eq_none_of_lt {k l : String} {es : List (String × α)}
    (h : ∀ e ∈ es, l < e.1) (hk : k ≤ l) : find? k es = none :=
  find?_eq_none_of_forall_ne fun e he hek => by
    subst hek
    exact String.not_lt.2 hk (h e he)

/-- A name that is neither before nor after another is that name. -/
theorem eq_of_not_lt {k l : String} (h : ¬ k < l) (h' : ¬ l < k) : k = l :=
  String.le_antisymm (String.not_lt.1 h') (String.not_lt.1 h)

/-- Two sorted lists that read the same under every name are the same list. -/
theorem entries_ext {es fs : List (String × α)} (hes : es.Pairwise (fun e f => e.1 < f.1))
    (hfs : fs.Pairwise (fun e f => e.1 < f.1)) (h : ∀ k, find? k es = find? k fs) : es = fs := by
  induction es generalizing fs with
  | nil =>
    cases fs with
    | nil => rfl
    | cons f fs => simpa [find?] using h f.1
  | cons e es ih =>
    obtain ⟨he, hes'⟩ := List.pairwise_cons.1 hes
    cases fs with
    | nil => simpa [find?] using h e.1
    | cons f fs =>
      obtain ⟨hf, hfs'⟩ := List.pairwise_cons.1 hfs
      -- Were one first name before the other, it would be read in one list only.
      have hlt : ¬ e.1 < f.1 := fun hlt => by
        have := h e.1
        simp only [find?, if_true] at this
        rw [if_neg (fun hfe => String.lt_irrefl _ (hfe ▸ hlt)),
          find?_eq_none_of_lt hf (String.not_lt.1 (String.lt_asymm hlt))] at this
        cases this
      have hgt : ¬ f.1 < e.1 := fun hgt => by
        have := h f.1
        simp only [find?, if_true] at this
        rw [if_neg (fun hef => String.lt_irrefl _ (hef ▸ hgt)),
          find?_eq_none_of_lt he (String.not_lt.1 (String.lt_asymm hgt))] at this
        cases this
      have hk := eq_of_not_lt hlt hgt
      have hv : e.2 = f.2 := by
        have := h e.1
        simpa [find?, hk] using this
      obtain ⟨k, v⟩ := e
      obtain ⟨l, w⟩ := f
      simp only at hk hv
      subst hk hv
      -- The first entries are the same; the rest of both lists has nothing under their name.
      congr 1
      refine ih hes' hfs' fun k' => ?_
      have := h k'
      simp only [find?] at this
      split at this
      · rename_i hkk
        subst hkk
        rw [find?_eq_none_of_lt he (String.le_refl _), find?_eq_none_of_lt hf (String.le_refl _)]
      · exact this

/-- Records that read the same under every name are equal. -/
@[ext] theorem ext {r s : Record α} (h : ∀ k, r.get? k = s.get? k) : r = s := by
  have := entries_ext r.sorted s.sorted h
  cases r
  cases s
  simp_all

/-! ### Inserting -/

/-- The entries with a value put under a name. -/
def insertEntry (k : String) (v : α) : List (String × α) → List (String × α)
  | [] => [(k, v)]
  | (l, w) :: es =>
    if k < l then (k, v) :: (l, w) :: es
    else if k = l then (k, v) :: es
    else (l, w) :: insertEntry k v es

theorem find?_insertEntry (k k' : String) (v : α) (es : List (String × α)) :
    find? k' (insertEntry k v es) = if k = k' then some v else find? k' es := by
  induction es with
  | nil => simp [insertEntry, find?]
  | cons e es ih =>
    obtain ⟨l, w⟩ := e
    simp only [insertEntry]
    split
    · simp [find?]
    · split
      · rename_i hkl
        subst hkl
        by_cases hk : k = k' <;> simp [find?, hk]
      · simp only [find?, ih]
        by_cases hl : l = k' <;> by_cases hk : k = k' <;> simp_all

theorem mem_insertEntry {k : String} {v : α} {es : List (String × α)} {e : String × α}
    (h : e ∈ insertEntry k v es) : e = (k, v) ∨ e ∈ es := by
  induction es with
  | nil => simpa [insertEntry] using h
  | cons f es ih =>
    obtain ⟨l, w⟩ := f
    simp only [insertEntry] at h
    split at h
    · simpa using h
    · split at h
      · rcases List.mem_cons.1 h with h | h
        · exact .inl h
        · exact .inr (List.mem_cons_of_mem _ h)
      · rcases List.mem_cons.1 h with h | h
        · exact .inr (h ▸ List.mem_cons_self)
        · rcases ih h with h | h
          · exact .inl h
          · exact .inr (List.mem_cons_of_mem _ h)

theorem sorted_insertEntry {es : List (String × α)} (hes : es.Pairwise (fun e f => e.1 < f.1))
    (k : String) (v : α) : (insertEntry k v es).Pairwise (fun e f => e.1 < f.1) := by
  induction es with
  | nil => simp [insertEntry]
  | cons f es ih =>
    obtain ⟨l, w⟩ := f
    obtain ⟨hf, hes'⟩ := List.pairwise_cons.1 hes
    simp only [insertEntry]
    split
    · rename_i hkl
      refine List.pairwise_cons.2 ⟨fun e he => ?_, hes⟩
      rcases List.mem_cons.1 he with rfl | he
      · exact hkl
      · exact String.lt_trans hkl (hf e he)
    · split
      · rename_i hkl
        subst hkl
        exact List.pairwise_cons.2 ⟨hf, hes'⟩
      · rename_i hkl hne
        refine List.pairwise_cons.2 ⟨fun e he => ?_, ih hes'⟩
        rcases mem_insertEntry he with rfl | he
        · exact Decidable.byContradiction fun hlk => hne (eq_of_not_lt hkl hlk)
        · exact hf e he

/-- The record with a value put under a name, in place of the one that it held. -/
def insert (r : Record α) (k : String) (v : α) : Record α where
  entries := insertEntry k v r.entries
  sorted := sorted_insertEntry r.sorted k v

@[simp] theorem get?_insert (r : Record α) (k k' : String) (v : α) :
    (r.insert k v).get? k' = if k = k' then some v else r.get? k' :=
  find?_insertEntry k k' v r.entries

/-! ### Erasing -/

/-- The record without the entry under a name. -/
def erase (r : Record α) (k : String) : Record α where
  entries := r.entries.filter (·.1 ≠ k)
  sorted := r.sorted.sublist List.filter_sublist

@[simp] theorem get?_erase (r : Record α) (k k' : String) :
    (r.erase k).get? k' = if k = k' then none else r.get? k' := by
  obtain ⟨es, _⟩ := r
  simp only [get?, erase]
  induction es with
  | nil => simp [find?]
  | cons e es ih =>
    obtain ⟨l, w⟩ := e
    have ih := ih (by simp_all)
    by_cases hl : l = k <;> by_cases hk : k = k' <;> by_cases hl' : l = k' <;>
      simp_all [find?]

/-! ### Merging -/

/-- The first record with every entry of the second inserted. -/
def merge (r s : Record α) : Record α := s.entries.foldl (fun acc e => acc.insert e.1 e.2) r

theorem get?_foldl_insert {es : List (String × α)} (hes : es.Pairwise (fun e f => e.1 < f.1))
    (r : Record α) (k : String) :
    (es.foldl (fun acc e => acc.insert e.1 e.2) r).get? k = (find? k es).or (r.get? k) := by
  induction es generalizing r with
  | nil => simp [find?]
  | cons e es ih =>
    obtain ⟨he, hes⟩ := List.pairwise_cons.1 hes
    rw [List.foldl_cons, ih hes, get?_insert]
    simp only [find?]
    split
    · rename_i hk
      subst hk
      rw [find?_eq_none_of_lt he (String.le_refl _)]
      rfl
    · rfl

@[simp] theorem get?_merge (r s : Record α) (k : String) :
    (r.merge s).get? k = (s.get? k).or (r.get? k) :=
  get?_foldl_insert s.sorted r k

/-! ### Building -/

/-- The record with one entry. -/
def single (k : String) (v : α) : Record α := (∅ : Record α).insert k v

/-- The record of a list of entries, the last one for each name. -/
def ofList (es : List (String × α)) : Record α := es.foldl (fun r e => r.insert e.1 e.2) ∅

end Record

end Scoring
