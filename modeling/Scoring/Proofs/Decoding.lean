import Mathlib.Data.List.Forall2
import Scoring.Json.Decode

/-!
# Decoding what has been encoded

Each form in which something is written is decoded again as what it was: words, numbers,
values, lists, and what may be `null`. Numbers have to be finite for this, as JSON has no
others.

In the other direction, what is decoded from finite numbers consists of finite numbers.
The fields of something are decoded from parts of what it is decoded from itself
(`Json.decoded_of_required` and the theorems after it).
-/

namespace Scoring

namespace Json

/-- All numbers of a value are finite, as doubles. -/
inductive IsFinite : Json → Prop
  | null : IsFinite null
  | boolean (b : Bool) : IsFinite (boolean b)
  | integer {n : Int} : (Float.ofInt n).isFinite = true → IsFinite (integer n)
  | real {x : Float} : x.isFinite = true → IsFinite (real x)
  | string (s : String) : IsFinite (string s)
  | array {elements : List Json} : (∀ v ∈ elements, IsFinite v) → IsFinite (array elements)
  | object {members : List (String × Json)} :
      (∀ m ∈ members, IsFinite m.2) → IsFinite (object members)
  | unreadable : IsFinite unreadable

end Json

/-- A value is decoded from something whose numbers are finite. -/
def Decoded {α : Type} (decode : Json → Option α) (a : α) : Prop :=
  ∃ v : Json, v.IsFinite ∧ decode v = some a

/-- A number, if the value is one, is finite. -/
def Value.IsFinite : Value → Prop
  | number x => x.isFinite
  | boolean _ | text _ | absent => True

namespace Json

variable {α : Type} {decode : Json → Option α} {encode : α → Json}

/-! ### What has been encoded -/

/-- A string is read as it is. -/
@[simp] theorem string?_string (s : String) : (string s).string? = some s := rfl

/-- A member of a vocabulary is read from its word. -/
@[simp] theorem member?_ofMember [Vocabulary α] (a : α) : (ofMember a).member? = some a :=
  Vocabulary.ofWord?_word a

/-- A string is a literal as it is. -/
@[simp] theorem literal?_string (s : String) : (string s).literal? = some s := rfl

/-- A literal that may be lacking is read from itself, or from `null`. -/
@[simp] theorem optionalLiteral?_ofOption (literal : Option String) :
    (ofOption string literal).optionalLiteral? = some literal := by
  cases literal <;> rfl

/-- A finite number is read from what is written for it. -/
theorem float?_ofFloat {x : Float} (h : x.isFinite) : (ofFloat x).float? = some x := by
  rw [ofFloat, if_pos h]
  rfl

/-- A value without an infinite number is read from what is written for it. -/
theorem value?_ofValue {v : Value} (h : v.IsFinite) : (ofValue v).value? = some v := by
  cases v with
  | number x =>
    rw [ofValue, ofFloat, if_pos (show x.isFinite from h)]
    rfl
  | boolean b => rfl
  | text s => rfl
  | absent => rfl

/-- A number that is not finite is lost: `null` is written for it, and read as absent. -/
example : (ofValue (.number (0 / 0))).value? = some .absent := by rfl

/-- A list is read if each of its elements is, in their order. -/
theorem allSome_map_eq_some_iff {β : Type} {f : β → Option α} {bs : List β} {as : List α} :
    allSome (bs.map f) = some as ↔ List.Forall₂ (fun b a => f b = some a) bs as := by
  induction bs generalizing as with
  | nil => simp [allSome, eq_comm]
  | cons b bs ih =>
    simp only [List.forall₂_cons_left_iff, ← ih, List.map_cons, allSome, Option.bind_eq_bind,
      Option.bind_eq_some_iff, Option.some.injEq]
    constructor
    · rintro ⟨a, ha, rest, hrest, rfl⟩
      exact ⟨a, rest, ha, hrest, rfl⟩
    · rintro ⟨a, rest, ha, hrest, rfl⟩
      exact ⟨a, ha, rest, hrest, rfl⟩

/-- A list is read element by element. -/
theorem allSome_map {β : Type} {f : β → Option α} {g : β → α} {bs : List β}
    (h : ∀ b ∈ bs, f b = some (g b)) : allSome (bs.map f) = some (bs.map g) :=
  allSome_map_eq_some_iff.2 (List.forall₂_map_right_iff.2 (List.forall₂_same.2 h))

/-- A list is read from what is written for it, if its elements are. -/
theorem list?_array {as : List α} (h : ∀ a ∈ as, decode (encode a) = some a) :
    list? decode (array (as.map encode)) = some as := by
  rw [list?, List.map_map, allSome_map (f := decode ∘ encode) (g := id) h, List.map_id]

/-- What may be lacking is read from what is written for it, as long as `null` is not read as
    something that is there. -/
theorem nullable?_ofOption {o : Option α} (hnull : decode null = none)
    (h : ∀ a ∈ o, decode (encode a) = some a) :
    nullable? decode (ofOption encode o) = some o := by
  cases o with
  | none => rfl
  | some a =>
    have ha := h a rfl
    -- Something that is decoded is not written as `null`.
    rw [ofOption, nullable?]
    · rw [ha]
      rfl
    · intro hencode
      rw [hencode, hnull] at ha
      cases ha

/-- A string that may be lacking is read from what is written for it. -/
@[simp] theorem nullable?_string (o : Option String) :
    nullable? string? (ofOption string o) = some o :=
  nullable?_ofOption rfl fun _ _ => rfl

/-- A member of a vocabulary that may be lacking is read from what is written for it. -/
@[simp] theorem nullable?_member [Vocabulary α] (o : Option α) :
    nullable? member? (ofOption ofMember o) = some o :=
  nullable?_ofOption rfl fun a _ => member?_ofMember a

/-- A finite number that may be lacking is read from what is written for it. -/
theorem nullable?_float {o : Option Float} (h : ∀ x ∈ o, x.isFinite) :
    nullable? float? (ofOption ofFloat o) = some o :=
  nullable?_ofOption rfl fun x hx => float?_ofFloat (h x hx)

/-! ### The fields of what has been encoded -/

section

variable {names : List String} {name other : String} {default : α} {v : Json}
  {members : List (String × Json)}

/-- The fields of an object are its members. -/
@[simp] theorem fields?_object : fields? names (object members) = some members := rfl

/-- A member that has the name of no other one is found at the front. -/
theorem lookup_cons_self (h : ∀ m ∈ members, m.1 ≠ name) :
    lookup name ((name, v) :: members) = .found v := by
  have hany : members.any (·.1 = name) = false := List.any_eq_false.2 fun m hm => by
    simpa using h m hm
  rw [lookup, if_pos rfl, hany]
  rfl

/-- A member of another name is passed over. -/
theorem lookup_cons_of_ne (h : other ≠ name) :
    lookup name ((other, v) :: members) = lookup name members :=
  if_neg h

/-- A required field is decoded at the front, if it is there once. -/
@[simp] theorem required_cons_self (h : ∀ m ∈ members, m.1 ≠ name) :
    required name decode ((name, v) :: members) = decode v := by
  rw [required, lookup_cons_self h]

/-- A required field is looked for behind members of other names. -/
@[simp] theorem required_cons_of_ne (h : other ≠ name) :
    required name decode ((other, v) :: members) = required name decode members := by
  rw [required, lookup_cons_of_ne h, required]

/-- A field with a default is decoded at the front, if it is there once. -/
@[simp] theorem withDefault_cons_self (h : ∀ m ∈ members, m.1 ≠ name) :
    withDefault name default decode ((name, v) :: members) = decode v := by
  rw [withDefault, lookup_cons_self h]

/-- A field with a default is looked for behind members of other names. -/
@[simp] theorem withDefault_cons_of_ne (h : other ≠ name) :
    withDefault name default decode ((other, v) :: members) =
      withDefault name default decode members := by
  rw [withDefault, lookup_cons_of_ne h, withDefault]

attribute [simp] optional

end

/-! ### What is decoded -/

/-- A number that is read is as finite as what it is read from. -/
theorem isFinite_of_decoded {x : Float} (h : Decoded float? x) : x.isFinite := by
  obtain ⟨v, hv, h⟩ := h
  cases hv <;> cases h <;> assumption

/-- A value that is read has no infinite number, if what it is read from has none. -/
theorem isFinite_value_of_decoded {value : Value} (h : Decoded value? value) :
    value.IsFinite := by
  obtain ⟨v, hv, h⟩ := h
  cases hv <;> cases h <;> trivial

/-- Each element of a list that is read comes from an element. -/
theorem exists_of_mem_allSome {β : Type} {f : β → Option α} {bs : List β} {as : List α}
    (h : allSome (bs.map f) = some as) : ∀ a ∈ as, ∃ b ∈ bs, f b = some a := by
  rw [allSome_map_eq_some_iff] at h
  induction h with
  | nil => exact nofun
  | @cons b a bs as ha _ ih =>
    refine List.forall_mem_cons.2 ⟨⟨b, List.mem_cons_self, ha⟩, fun a' ha' => ?_⟩
    obtain ⟨b', hb', h⟩ := ih a' ha'
    exact ⟨b', List.mem_cons_of_mem _ hb', h⟩

/-- The elements of a decoded list are decoded. -/
theorem decoded_of_mem {as : List α} (h : Decoded (list? decode) as) :
    ∀ a ∈ as, Decoded decode a := by
  obtain ⟨v, hv, h⟩ := h
  intro a ha
  cases hv with
  | array helements =>
    obtain ⟨element, helement, h⟩ := exists_of_mem_allSome h a ha
    exact ⟨element, helements element helement, h⟩
  | _ => cases h

section

variable {names : List String} {name : String} {v : Json} {members : List (String × Json)}

/-- The content of a tag has finite numbers if the whole has. -/
theorem IsFinite.content {content : Json} (h : (Json.object [(name, content)]).IsFinite) :
    content.IsFinite := by
  cases h with
  | object hmembers => exact hmembers _ List.mem_cons_self

/-- The fields of a value, by name or by position, have finite numbers if the value has. -/
theorem isFinite_of_fields? (hv : v.IsFinite) (h : v.fields? names = some members) :
    ∀ m ∈ members, m.2.IsFinite := by
  intro m hm
  cases hv with
  | object hmembers =>
    cases h
    exact hmembers m hm
  -- By position: the elements of the array, next to the names.
  | array helements =>
    simp only [fields?] at h
    split at h
    · cases h
      exact helements m.2 (List.of_mem_zip hm).2
    · cases h
  | _ => cases h

variable (hmembers : ∀ m ∈ members, m.2.IsFinite)
include hmembers

/-- What is decoded at a field is decoded. -/
theorem decoded_of_lookup {a : α} (hv : lookup name members = .found v) (h : decode v = some a) :
    Decoded decode a := by
  obtain ⟨m, hm, rfl⟩ := mem_of_lookup_eq hv
  exact ⟨m.2, hmembers m hm, h⟩

/-- What a required field comes to is decoded. -/
theorem decoded_of_required {a : α} (h : required name decode members = some a) :
    Decoded decode a := by
  rw [required] at h
  split at h
  · exact decoded_of_lookup hmembers ‹_› h
  · cases h

/-- What a field with a default comes to is the default, or decoded. -/
theorem decoded_of_withDefault {a default : α}
    (h : withDefault name default decode members = some a) : a = default ∨ Decoded decode a := by
  rw [withDefault] at h
  split at h
  · exact .inl (Option.some.inj h).symm
  · exact .inr (decoded_of_lookup hmembers ‹_› h)
  · cases h

/-- The elements of a list that may be left out are decoded. -/
theorem decoded_of_mem_withDefault {as : List α}
    (h : withDefault name [] (list? decode) members = some as) : ∀ a ∈ as, Decoded decode a := by
  rcases decoded_of_withDefault hmembers h with rfl | h
  · exact nofun
  · exact decoded_of_mem h

/-- What an optional field comes to is decoded, if it is anything. -/
theorem decoded_of_optional {o : Option α} (h : optional name decode members = some o) :
    ∀ a ∈ o, Decoded decode a := by
  rintro a rfl
  rcases decoded_of_withDefault hmembers h with h | ⟨v, hv, h⟩
  · cases h
  · -- Either `null` stands there, and there is nothing, or something is decoded.
    unfold nullable? at h
    split at h
    · cases h
    · obtain ⟨a, ha, h⟩ := Option.map_eq_some_iff.1 h
      cases h
      exact ⟨v, hv, ha⟩

/-- A required number is finite. -/
theorem isFinite_of_required {x : Float} (h : required name float? members = some x) :
    x.isFinite :=
  isFinite_of_decoded (decoded_of_required hmembers h)

/-- A number with a finite default is finite. -/
theorem isFinite_of_withDefault {x default : Float} (hdefault : default.isFinite)
    (h : withDefault name default float? members = some x) : x.isFinite := by
  rcases decoded_of_withDefault hmembers h with rfl | h
  · exact hdefault
  · exact isFinite_of_decoded h

/-- An optional number is finite, if it is there. -/
theorem isFinite_of_optional {o : Option Float} (h : optional name float? members = some o) :
    ∀ x ∈ o, x.isFinite := fun x hx =>
  isFinite_of_decoded (decoded_of_optional hmembers h x hx)

end

end Json

end Scoring
