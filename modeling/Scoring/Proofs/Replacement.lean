import Scoring.Proofs.Mentions
import Scoring.Proofs.Record

/-!
# Missing values replaced

A schema may declare several literals in place of a missing value of one field
(`MiningSchema.replacements`), and each of its fields looks at the row as the fields before it have
left it. So a name holds in the end what its literals make of it one after the other, whatever is
done to other names (`MiningSchema.get?_replaceMissing`). A literal takes the place of a missing
value and of nothing else, and only the empty literal leaves a value that is missing
(`Value.isMissing_ofLiteral`):

* the first literal that is not empty counts, and all after it find a value;
* where all literals are empty, there is an empty text.

Hence nothing is left to replace afterwards but empty texts by empty texts, and a model has the same
score for a row as for the row with its replacements (`MiningSchema.replaceMissing_fills`).
-/

namespace Scoring

/-! ### Values -/

namespace Value

/-- Only the empty literal stands for a missing value. -/
theorem isMissing_ofLiteral {literal : String} :
    (ofLiteral literal).isMissing ↔ literal = "" := by
  constructor
  · intro h
    rw [ofLiteral] at h
    split at h
    · cases h
    · exact of_decide_eq_true h
  · rintro rfl
    rfl

/-- What is held under a name, with a literal in its place if it is missing. -/
def fill (held : Option Value) (literal : String) : Option Value :=
  if (held.getD .absent).isMissing then some (ofLiteral literal) else held

variable {held : Option Value} {literals : List String} {literal : String}

/-- A value that is there is left alone by all literals. -/
theorem foldl_fill_of_not_isMissing (h : ¬ (held.getD .absent).isMissing) :
    literals.foldl fill held = held := by
  induction literals with
  | nil => rfl
  | cons first rest ih => rw [List.foldl_cons, fill, if_neg h, ih]

/-- The first literal that is not empty takes the place of a missing value, and stays there. -/
theorem foldl_fill_of_find? (h : (held.getD .absent).isMissing)
    (hfind : literals.find? (· ≠ "") = some literal) :
    literals.foldl fill held = some (ofLiteral literal) := by
  induction literals generalizing held with
  | nil => cases hfind
  | cons first rest ih =>
    rw [List.foldl_cons, fill, if_pos h]
    by_cases hfirst : first = ""
    · rw [List.find?_cons_of_neg (by simpa using hfirst)] at hfind
      exact ih (isMissing_ofLiteral.2 hfirst) hfind
    · rw [List.find?_cons_of_pos (by simpa using hfirst)] at hfind
      rw [← Option.some.inj hfind]
      exact foldl_fill_of_not_isMissing (mt isMissing_ofLiteral.1 hfirst)

/-- Empty literals leave an empty text in place of a missing value. -/
theorem foldl_fill_of_forall_empty (h : (held.getD .absent).isMissing) (hne : literals ≠ [])
    (hempty : ∀ literal ∈ literals, literal = "") :
    literals.foldl fill held = some (.text "") := by
  induction literals generalizing held with
  | nil => exact absurd rfl hne
  | cons first rest ih =>
    obtain ⟨rfl, hrest⟩ := List.forall_mem_cons.1 hempty
    rw [List.foldl_cons, fill, if_pos h]
    by_cases hnil : rest = []
    · rw [hnil]
      rfl
    · exact ih rfl hnil hrest

/-- What literals have made of a value, they leave as it is. -/
theorem foldl_fill_foldl_fill :
    literals.foldl fill (literals.foldl fill held) = literals.foldl fill held := by
  by_cases h : (held.getD .absent).isMissing
  · cases hfind : literals.find? (· ≠ "") with
    | some literal =>
      have hliteral : literal ≠ "" := by simpa using List.find?_some hfind
      -- The literal is there now, so that nothing is missing any more.
      rw [foldl_fill_of_find? h hfind]
      exact foldl_fill_of_not_isMissing (mt isMissing_ofLiteral.1 hliteral)
    | none =>
      have hempty : ∀ literal ∈ literals, literal = "" := by simpa using hfind
      by_cases hnil : literals = []
      · rw [hnil]
        rfl
      · -- What is there counts as missing still, and is replaced with the same.
        rw [foldl_fill_of_forall_empty h hnil hempty]
        exact foldl_fill_of_forall_empty rfl hnil hempty
  · rw [foldl_fill_of_not_isMissing h, foldl_fill_of_not_isMissing h]

end Value

/-- A row lacks a field: it has no entry under its name, or one that is absent or an empty text. -/
def Record.Lacks (row : Row) (name : String) : Prop :=
  row.get? name = none ∨ row.get? name = some .absent ∨ row.get? name = some (.text "")

/-- A row lacks a field if its value there counts as missing. -/
theorem Record.lacks_iff {row : Row} {name : String} :
    row.Lacks name ↔ (row.value name).isMissing := by
  rw [Lacks, value]
  rcases row.get? name with _ | _ | _ | text | _ <;> simp [Value.isMissing]

/-! ### Fields -/

namespace MiningField

variable {field : MiningField} {row : Row} {name : String}

/-- A field fills in its literal under its name, if it declares one. -/
theorem get?_replaceMissing_self :
    (field.replaceMissing row).get? field.name =
      field.missingValueReplacement.elim (row.get? field.name)
        (Value.fill (row.get? field.name)) := by
  rw [replaceMissing]
  cases field.missingValueReplacement with
  | none => rfl
  | some literal =>
    by_cases h : (row.value field.name).isMissing
    · simp only [if_pos h, Record.get?_insert, if_true]
      exact (if_pos h).symm
    · simp only [if_neg h]
      exact (if_neg h).symm

/-- A field leaves other names alone. -/
theorem get?_replaceMissing_of_ne (h : field.name ≠ name) :
    (field.replaceMissing row).get? name = row.get? name := by
  rw [replaceMissing]
  split
  · split
    · rw [Record.get?_insert, if_neg h]
    · rfl
  · rfl

end MiningField

/-! ### Schemas -/

namespace MiningSchema

variable {schema : MiningSchema} {row : Row} {name literal : String}

/-- The literals that a schema declares in place of a missing value of a field, in the order of
    their declarations. -/
def replacements (schema : MiningSchema) (name : String) : List String :=
  (schema.fields.filter (·.name = name)).filterMap (·.missingValueReplacement)

/-- A schema replaces a field if it declares a literal for it. -/
theorem mem_replaced_iff : name ∈ schema.replaced ↔ schema.replacements name ≠ [] := by
  simp only [replaced, replacements, List.mem_map, List.mem_filter, ne_eq,
    List.filterMap_eq_nil_iff, decide_eq_true_eq, Classical.not_forall, exists_prop,
    ← Option.isSome_iff_ne_none]
  constructor
  · rintro ⟨field, ⟨hfield, hliteral⟩, hname⟩
    exact ⟨field, ⟨hfield, hname⟩, hliteral⟩
  · rintro ⟨field, ⟨hfield, hname⟩, hliteral⟩
    exact ⟨field, ⟨hfield, hliteral⟩, hname⟩

/-- Under a name there is in the end what the literals declared for it make of it, one after the
    other. -/
theorem get?_replaceMissing :
    (schema.replaceMissing row).get? name =
      (schema.replacements name).foldl Value.fill (row.get? name) := by
  obtain ⟨fields⟩ := schema
  simp only [replaceMissing, replacements]
  induction fields generalizing row with
  | nil => rfl
  | cons field fields ih =>
    rw [List.foldl_cons, ih, List.filter_cons]
    -- A field of the name has its turn with the value as it is by then.
    by_cases hname : field.name = name
    · subst hname
      rw [if_pos (decide_eq_true rfl), MiningField.get?_replaceMissing_self]
      cases hliteral : field.missingValueReplacement with
      | none => rw [List.filterMap_cons_none hliteral]; rfl
      | some literal => rw [List.filterMap_cons_some hliteral]; rfl
    · rw [if_neg (by simpa using hname), MiningField.get?_replaceMissing_of_ne hname]

/-- Replacing the missing values of a row changes only fields that it lacks and that the schema
    declares a literal for. Such a field holds then the value of the first literal for it that is
    not empty, or an empty text if there is none. The row does not change when its missing values
    are replaced again, and so a model with the schema has the same score for the row with the
    replacements as for the row itself. -/
theorem replaceMissing_fills (schema : MiningSchema) (row : Row) :
    (∀ name, (schema.replaceMissing row).get? name ≠ row.get? name →
      row.Lacks name ∧ name ∈ schema.replaced) ∧
    (∀ name literal, row.Lacks name →
      (schema.replacements name).find? (· ≠ "") = some literal →
      (schema.replaceMissing row).get? name = some (.ofLiteral literal)) ∧
    (∀ name, row.Lacks name → name ∈ schema.replaced →
      (∀ literal ∈ schema.replacements name, literal = "") →
      (schema.replaceMissing row).get? name = some (.text "")) ∧
    schema.replaceMissing (schema.replaceMissing row) = schema.replaceMissing row ∧
    ∀ model : Model, model.schema = schema →
      model.score (schema.replaceMissing row) = model.score row := by
  have hidempotent : schema.replaceMissing (schema.replaceMissing row) =
      schema.replaceMissing row := by
    ext1 name
    rw [get?_replaceMissing, get?_replaceMissing, Value.foldl_fill_foldl_fill]
  refine ⟨fun name hne => ?_, fun name literal hlacks hfind => ?_,
    fun name hlacks hdeclared hempty => ?_, hidempotent, ?_⟩
  · rw [get?_replaceMissing] at hne
    constructor
    · refine Record.lacks_iff.2 (Decidable.byContradiction fun hmissing => hne ?_)
      exact Value.foldl_fill_of_not_isMissing hmissing
    · rw [mem_replaced_iff]
      intro hnil
      exact hne (by rw [hnil]; rfl)
  · rw [get?_replaceMissing]
    exact Value.foldl_fill_of_find? (Record.lacks_iff.1 hlacks) hfind
  · rw [get?_replaceMissing]
    exact Value.foldl_fill_of_forall_empty (Record.lacks_iff.1 hlacks)
      (mem_replaced_iff.1 hdeclared) hempty
  · rintro (model | model | model) rfl
    all_goals
      simp only [Model.score, Model.schema] at hidempotent ⊢
      rw [hidempotent]

/-- The first literal is empty and stands for a missing value, which the second one replaces; the
    third one finds a number. -/
example :
    let schema : MiningSchema := ⟨[⟨"age", .active, none, some ""⟩,
      ⟨"age", .active, none, some "30"⟩, ⟨"age", .active, none, some "old"⟩]⟩
    schema.replaceMissing (.single "age" .absent) = .single "age" (.number 30) := by
  decide

end MiningSchema

end Scoring
