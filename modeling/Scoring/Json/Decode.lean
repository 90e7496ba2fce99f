import Scoring.Json.Basic
import Scoring.Value

/-!
# Decoding

A decoder reads a JSON value as something of the domain: a function
`Json → Option α`, with no result where the value is not of the form that it wants.
The forms that occur are

* an object with named fields (`lookup`, `required`, `optional`, `withDefault`), whose
  order does not matter; fields that nobody asks for are not looked at, and one that
  is asked for may not be repeated. The fields may also be listed in an array, where
  their order says which is which (`fields?`);
* a *word*, written as a string, or as an object with that one member and `null` in
  it (`word?`);
* a *value* (`value?`), and a *literal*, which is the text of one (`literal?`).
-/

namespace Scoring

namespace Json

/-! ### Simple forms -/

/-- A string. -/
def string? : Json → Option String
  | string s => some s
  | _ => none

/-- A number. -/
def float? : Json → Option Float
  | integer n => some (Float.ofInt n)
  | real x => some x
  | _ => none

/-- An integer, one that was written as such. -/
def integer? : Json → Option Int
  | integer n => some n
  | _ => none

/-- All results, if none is lacking. -/
def allSome {α : Type} : List (Option α) → Option (List α)
  | [] => some []
  | x :: xs => do
    let a ← x
    let as ← allSome xs
    some (a :: as)

/-- An array whose elements all decode. -/
def list? {α : Type} (decode : Json → Option α) : Json → Option (List α)
  | array elements => allSome (elements.map decode)
  | _ => none

/-- A value that may be `null`. -/
def nullable? {α : Type} (decode : Json → Option α) : Json → Option (Option α)
  | null => some none
  | v => some <$> decode v

/-- A value of a row. -/
def value? : Json → Option Value
  | null => some .absent
  | boolean b => some (.boolean b)
  | string s => some (.text s)
  | v => Value.number <$> v.float?

/-- The text of a value. -/
def literal? (v : Json) : Option String := Value.display <$> v.value?

/-- The text of a value, if there is a value. -/
def optionalLiteral? (v : Json) : Option (Option String) :=
  (fun value => if value = .absent then none else some value.display) <$> v.value?

/-- A word, alone or as the name of a member that holds nothing. -/
def word? : Json → Option String
  | string s => some s
  | object [(s, null)] => some s
  | _ => none

/-- A word of a vocabulary. -/
def member? {α : Type} [Vocabulary α] (v : Json) : Option α := v.word?.bind Vocabulary.ofWord?

/-! ### Fields -/

/-- What an object has under a name. -/
inductive Lookup
  | absent
  | found (value : Json)
  | repeated

/-- What the members have under a name. -/
def lookup (name : String) : List (String × Json) → Lookup
  | [] => .absent
  | (other, value) :: members =>
    if other = name then
      if members.any (·.1 = name) then .repeated else .found value
    else lookup name members

theorem mem_of_lookup_eq {name : String} {members : List (String × Json)} {value : Json}
    (h : lookup name members = .found value) : ∃ m ∈ members, m.2 = value := by
  induction members with
  | nil => simp [lookup] at h
  | cons member members ih =>
    obtain ⟨other, v⟩ := member
    simp only [lookup] at h
    split at h
    · split at h
      · cases h
      · cases h
        exact ⟨_, List.mem_cons_self, rfl⟩
    · obtain ⟨m, hm, hv⟩ := ih h
      exact ⟨m, List.mem_cons_of_mem _ hm, hv⟩

/-- The fields of something whose fields have these names in this order: the members of
    an object, or the elements of an array, of which the last may be lacking. -/
def fields? (names : List String) : Json → Option (List (String × Json))
  | object members => some members
  | array elements => if elements.length ≤ names.length then some (names.zip elements) else none
  | _ => none

/-- A field that must be there. -/
def required {α : Type} (name : String) (decode : Json → Option α)
    (members : List (String × Json)) : Option α :=
  match lookup name members with
  | .found v => decode v
  | _ => none

/-- A field that stands for a default when it is not there. -/
def withDefault {α : Type} (name : String) (default : α) (decode : Json → Option α)
    (members : List (String × Json)) : Option α :=
  match lookup name members with
  | .absent => some default
  | .found v => decode v
  | .repeated => none

/-- A field that may be `null` or not be there. -/
def optional {α : Type} (name : String) (decode : Json → Option α)
    (members : List (String × Json)) : Option (Option α) :=
  withDefault name none (nullable? decode) members

/-! ### Fields of the same form as what holds them

A decoder that calls itself on a part of its value has to know that the part is
smaller. These give out the parts together with that knowledge; otherwise they
decode as `required` and `withDefault` do (`child?_bind`, `children?_bind`,
`childrenOrNone?_bind`). -/

/-- Fields whose values are smaller than a bound. -/
abbrev FieldsBelow (n : Nat) := { members : List (String × Json) // ∀ m ∈ members, sizeOf m.2 < n }

/-- The values of the fields of a value are smaller than it is. -/
theorem sizeOf_of_mem_fields? {names : List String} {v : Json} {members : List (String × Json)}
    (h : fields? names v = some members) : ∀ m ∈ members, sizeOf m.2 < sizeOf v := by
  intro m hm
  cases v with
  | object ms =>
    cases h
    have := List.sizeOf_lt_of_mem hm
    obtain ⟨k, w⟩ := m
    simp at this ⊢
    omega
  | array es =>
    simp only [fields?] at h
    split at h
    · cases h
      have := List.sizeOf_lt_of_mem (List.of_mem_zip hm).2
      simp
      omega
    · cases h
  | _ => cases h

/-- The fields of a value, known to be smaller than it is. -/
def fieldsBelow? (names : List String) (v : Json) : Option (FieldsBelow (sizeOf v)) :=
  match h : fields? names v with
  | some members => some ⟨members, sizeOf_of_mem_fields? h⟩
  | none => none

section

variable {n : Nat}

theorem sizeOf_of_lookup_eq {name : String} {members : FieldsBelow n} {v : Json}
    (h : lookup name members.1 = .found v) : sizeOf v < n := by
  obtain ⟨m, hm, rfl⟩ := mem_of_lookup_eq h
  exact members.2 m hm

/-- A field that must be there. -/
def child? (name : String) (members : FieldsBelow n) : Option { v : Json // sizeOf v < n } :=
  match h : lookup name members.1 with
  | .found v => some ⟨v, sizeOf_of_lookup_eq h⟩
  | _ => none

/-- The elements of an array. -/
def elements? : { v : Json // sizeOf v < n } → Option (List { e : Json // sizeOf e < n })
  | ⟨array elements, h⟩ => some (elements.attach.map fun ⟨e, he⟩ => ⟨e, by
      have := List.sizeOf_lt_of_mem he
      simp at h
      omega⟩)
  | _ => none

/-- The elements of an array that must be there. -/
def children? (name : String) (members : FieldsBelow n) :
    Option (List { v : Json // sizeOf v < n }) :=
  (child? name members).bind elements?

/-- The elements of an array; where it is not there, it has none. -/
def childrenOrNone? (name : String) (members : FieldsBelow n) :
    Option (List { v : Json // sizeOf v < n }) :=
  match h : lookup name members.1 with
  | .absent => some []
  | .found v => elements? ⟨v, sizeOf_of_lookup_eq h⟩
  | .repeated => none

theorem fieldsBelow?_bind {α : Type} (names : List String) (v : Json)
    (decode : List (String × Json) → Option α) :
    ((fieldsBelow? names v).bind fun members => decode members.1) =
      (fields? names v).bind decode := by
  simp only [fieldsBelow?]
  split <;> simp [*]

variable {α : Type} (decode : Json → Option α) (name : String) (members : FieldsBelow n)

theorem child?_bind :
    ((child? name members).bind fun v => decode v.1) = required name decode members.1 := by
  simp only [child?, required]
  split
  · simp [*]
  · split <;> simp_all

theorem elements?_bind (v : { v : Json // sizeOf v < n }) :
    ((elements? v).bind fun es => allSome (es.map fun e => decode e.1)) = list? decode v.1 := by
  obtain ⟨v, h⟩ := v
  cases v with
  | array elements =>
    simp only [elements?, list?, Option.bind_some, List.map_map]
    conv => rhs; rw [← List.attach_map_subtype_val elements, List.map_map]
    rfl
  | _ => rfl

theorem children?_bind :
    ((children? name members).bind fun es => allSome (es.map fun e => decode e.1)) =
      required name (list? decode) members.1 := by
  rw [← child?_bind, children?, Option.bind_assoc]
  simp only [elements?_bind]

theorem childrenOrNone?_bind :
    ((childrenOrNone? name members).bind fun es => allSome (es.map fun e => decode e.1)) =
      withDefault name [] (list? decode) members.1 := by
  simp only [childrenOrNone?, withDefault]
  split
  · simp [*, allSome]
  · rw [elements?_bind]
    simp [*]
  · simp [*]

end

/-! ### Writing -/

/-- An optional value, or `null`. -/
def ofOption {α : Type} (encode : α → Json) : Option α → Json
  | some a => encode a
  | none => null

/-- A word of a vocabulary as a string. -/
def ofMember {α : Type} [Vocabulary α] (a : α) : Json := string (Vocabulary.word a)

/-- A value of a row. -/
def ofValue : Value → Json
  | .number x => ofFloat x
  | .boolean b => boolean b
  | .text s => string s
  | .absent => null

end Json

namespace Row

/-- A row, which is an object of values; of members with one name the last counts. -/
def ofJson? (v : Json) : Option Row := do
  let .object members := v | none
  let entries ← Json.allSome (members.map fun (name, v) => v.value?.map (name, ·))
  some (Record.ofList entries)

/-- A row or the outputs of a prediction as an object. -/
def toJson (row : Row) : Json :=
  .object (row.entries.map fun (name, value) => (name, Json.ofValue value))

end Row

end Scoring
