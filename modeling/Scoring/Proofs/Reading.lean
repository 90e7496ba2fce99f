import Scoring.Json.Reader
import Scoring.Proofs.Finite
import Scoring.Proofs.RoundTrip

/-!
# What the reader makes of texts

The reader gathers values in its state, a character at a time. `Json.State.Next` says what it
can go on with from a state, whatever the character is, and what is kept by each of these
transitions holds of the value in the end (`Json.State.holds_of_foldlM`).

* All numbers that have been read are finite (`Json.yieldsFinite`): a real that overflows is
  unreadable, and an integer is kept as one only if 64 bits hold it. No transition puts in a
  number but one that has just been read (`Json.State.Next.isFinite`).
* A carriage return at the end of a text is passed over (`Json.ignoresReturn`). JSON takes it
  for a blank, provided that no word is open that goes on with one; no transition opens such a
  word (`Json.State.Next.noReturn`).
-/

namespace Scoring

namespace Json

/-! ### Transitions -/

namespace State

/-- What can follow a state where no string, number or word is open, with a case for each
    branch of `stepBetween`. -/
inductive Between : State → State → Prop
  | blank (state : State) : Between state state
  | beginString {frames : List Frame} {first : Bool} :
      Between (awaitValue frames first) (inString frames .empty .none)
  | beginArray {frames : List Frame} {first : Bool} :
      Between (awaitValue frames first) (awaitValue (.array [] :: frames) true)
  | beginObject {frames : List Frame} {first : Bool} :
      Between (awaitValue frames first) (awaitName frames [] true)
  | beginNumber {frames : List Frame} {first : Bool} {c : Char} :
      Between (awaitValue frames first) (inNumber frames [c])
  | beginTrue {frames : List Frame} {first : Bool} :
      Between (awaitValue frames first) (inWord frames ['r', 'u', 'e'] (.boolean true))
  | beginFalse {frames : List Frame} {first : Bool} :
      Between (awaitValue frames first) (inWord frames ['a', 'l', 's', 'e'] (.boolean false))
  | beginNull {frames : List Frame} {first : Bool} :
      Between (awaitValue frames first) (inWord frames ['u', 'l', 'l'] .null)
  /-- An array may also be closed where a value is awaited, as its first. -/
  | closeFirst {elements : List Json} {frames : List Frame} {first : Bool} :
      Between (awaitValue (.array elements :: frames) first)
        (complete (.array elements.reverse) frames)
  | beginName {frames : List Frame} {members : List (Option String × Json)} {first : Bool} :
      Between (awaitName frames members first) (inName frames members .empty .none)
  | closeNoName {frames : List Frame} {members : List (Option String × Json)} {first : Bool} :
      Between (awaitName frames members first) (complete (closeObject members) frames)
  | colon {frames : List Frame} {members : List (Option String × Json)} {name : Option String} :
      Between (awaitColon frames members name) (awaitValue (.object members name :: frames) false)
  | nextElement {elements : List Json} {frames : List Frame} :
      Between (awaitNext (.array elements) frames) (awaitValue (.array elements :: frames) false)
  | closeArray {elements : List Json} {frames : List Frame} :
      Between (awaitNext (.array elements) frames) (complete (.array elements.reverse) frames)
  | nextMember {members : List (Option String × Json)} {name : Option String}
      {frames : List Frame} :
      Between (awaitNext (.object members name) frames) (awaitName frames members false)
  | closeMembers {members : List (Option String × Json)} {name : Option String}
      {frames : List Frame} :
      Between (awaitNext (.object members name) frames) (complete (closeObject members) frames)

/-- What can follow a state, with a case for each branch of `step`. -/
inductive Next : State → State → Prop
  | between {state next : State} : Between state next → Next state next
  | string {frames : List Frame} {chars chars' : Chars} {escape escape' : Escape} :
      Next (inString frames chars escape) (inString frames chars' escape')
  | closeString {frames : List Frame} {chars : Chars} :
      Next (inString frames chars .none)
        (complete ((chars.text?.map Json.string).getD unreadable) frames)
  | name {frames : List Frame} {members : List (Option String × Json)} {chars chars' : Chars}
      {escape escape' : Escape} :
      Next (inName frames members chars escape) (inName frames members chars' escape')
  | closeName {frames : List Frame} {members : List (Option String × Json)} {chars : Chars} :
      Next (inName frames members chars .none) (awaitColon frames members chars.text?)
  | number {frames : List Frame} {reversed : List Char} {c : Char} :
      Next (inNumber frames reversed) (inNumber frames (c :: reversed))
  /-- A number is closed by the character after it, which is taken at once. -/
  | closeNumber {frames : List Frame} {reversed : List Char} {value : Json} {next : State} :
      ofNumberChars reversed.reverse = some value → Between (complete value frames) next →
      Next (inNumber frames reversed) next
  | word {frames : List Frame} {expected : Char} {rest : List Char} {value : Json} :
      Next (inWord frames (expected :: rest) value) (inWord frames rest value)
  | closeWord {frames : List Frame} {expected : Char} {rest : List Char} {value : Json} :
      Next (inWord frames (expected :: rest) value) (complete value frames)

variable {state next : State} {c : Char}

/-- There are no other steps between values. -/
theorem between_of_stepBetween (h : state.stepBetween c = some next) : Between state next := by
  unfold stepBetween at h
  split at h
  · cases h
    exact .blank state
  cases state with
  | awaitValue frames first =>
    simp only at h
    split_ifs at h
    · cases h
      exact .beginString
    · cases h
      exact .beginArray
    · cases h
      exact .beginObject
    · cases h
      exact .beginNumber
    · cases h
      exact .beginTrue
    · cases h
      exact .beginFalse
    · cases h
      exact .beginNull
    · -- A bracket closes an array, and nothing else that may be open.
      split at h <;> cases h
      exact .closeFirst
  | awaitName frames members first =>
    simp only at h
    split_ifs at h <;> cases h
    · exact .beginName
    · exact .closeNoName
  | awaitColon frames members name =>
    simp only at h
    split_ifs at h
    cases h
    exact .colon
  | awaitNext frame frames =>
    cases frame with
    | array elements =>
      simp only at h
      split_ifs at h <;> cases h
      · exact .nextElement
      · exact .closeArray
    | object members name =>
      simp only at h
      split_ifs at h <;> cases h
      · exact .nextMember
      · exact .closeMembers
  | inString | inName | inNumber | inWord | finished => cases h

/-- There are no other steps. -/
theorem next_of_step (h : state.step c = some next) : Next state next := by
  unfold step at h
  split at h
  case h_1 frames chars =>
    split_ifs at h
    · cases h
      exact .closeString
    · obtain ⟨_, _, rfl⟩ := Option.map_eq_some_iff.1 h
      exact .string
  case h_2 frames chars escape _ =>
    obtain ⟨_, _, rfl⟩ := Option.map_eq_some_iff.1 h
    exact .string
  case h_3 frames members chars =>
    split_ifs at h
    · cases h
      exact .closeName
    · obtain ⟨_, _, rfl⟩ := Option.map_eq_some_iff.1 h
      exact .name
  case h_4 frames members chars escape _ =>
    obtain ⟨_, _, rfl⟩ := Option.map_eq_some_iff.1 h
    exact .name
  case h_5 frames reversed =>
    split_ifs at h
    · cases h
      exact .number
    · obtain ⟨value, hvalue, h⟩ := Option.bind_eq_some_iff.1 h
      exact .closeNumber hvalue (between_of_stepBetween h)
  case h_6 frames expected rest value =>
    split_ifs at h <;> cases h
    · exact .closeWord
    · exact .word
  case h_7 => exact .between (between_of_stepBetween h)

end State

/-! ### Numbers -/

/-- A numeral that is too great for a double is unreadable, and any other is finite. -/
theorem isFinite_ofDigits (negative bare : Bool) (whole fraction : List Char) (exponent : Int) :
    (ofDigits negative bare whole fraction exponent).IsFinite := by
  rw [ofDigits]
  generalize (if negative = true then -(Decimal.natOfDigits whole : Int)
    else Decimal.natOfDigits whole) = n
  dsimp only
  split
  · rename_i hinteger
    simp only [Bool.and_eq_true, decide_eq_true_eq] at hinteger
    exact .integer (Double.isFinite_ofInt hinteger.1.2 hinteger.2)
  · -- The numeral is no integer of 64 bits, and goes by a double.
    split
    · rename_i hfinite
      cases negative with
      | true => exact .real (Double.isFinite_neg hfinite)
      | false => exact .real hfinite
    · exact .unreadable

/-- What a numeral without a sign stands for is finite. -/
theorem isFinite_of_ofNumeral {negative : Bool} {cs : List Char} {v : Json}
    (h : ofNumeral negative cs = some v) : v.IsFinite := by
  rw [ofNumeral] at h
  split at h
  · cases h
  · obtain ⟨exponent, _, rfl⟩ := Option.map_eq_some_iff.1 h
    exact isFinite_ofDigits _ _ _ _ exponent

/-- What a numeral stands for is finite. -/
theorem isFinite_of_ofNumberChars {cs : List Char} {v : Json} (h : ofNumberChars cs = some v) :
    v.IsFinite := by
  unfold ofNumberChars at h
  split at h <;> exact isFinite_of_ofNumeral h

/-! ### Numbers that have been read -/

/-- All numbers of the contents are finite. -/
def Frame.IsFinite : Frame → Prop
  | array elements => ∀ v ∈ elements, v.IsFinite
  | object members _ => ∀ m ∈ members, m.2.IsFinite

/-- All numbers that have been read are finite. -/
def State.IsFinite : State → Prop
  | awaitValue frames _ | inString frames _ _ | inNumber frames _ => ∀ f ∈ frames, f.IsFinite
  | awaitName frames members _ | awaitColon frames members _ | inName frames members _ _ =>
    (∀ f ∈ frames, f.IsFinite) ∧ ∀ m ∈ members, m.2.IsFinite
  | awaitNext frame frames => frame.IsFinite ∧ ∀ f ∈ frames, f.IsFinite
  | inWord frames _ value => (∀ f ∈ frames, f.IsFinite) ∧ value.IsFinite
  | finished value => value.IsFinite

/-- The elements of an array that is closed are those that have been read. -/
theorem isFinite_reverse {elements : List Json} (h : ∀ v ∈ elements, v.IsFinite) :
    (array elements.reverse).IsFinite :=
  .array fun v hv => h v (List.mem_reverse.1 hv)

/-- A string has no numbers, whether or not it can be read. -/
theorem isFinite_text (chars : Chars) :
    ((chars.text?.map Json.string).getD unreadable).IsFinite := by
  cases chars.text? with
  | none => exact .unreadable
  | some s => exact .string s

/-- The members of an object that is closed are those that have been read. -/
theorem isFinite_closeObject {members : List (Option String × Json)}
    (h : ∀ m ∈ members, m.2.IsFinite) : (closeObject members).IsFinite := by
  rw [closeObject]
  split
  · refine .object fun n hn => ?_
    obtain ⟨m, hm, rfl⟩ := List.mem_map.1 hn
    exact h m (List.mem_reverse.1 hm)
  · exact .unreadable

namespace State

variable {state next : State} {frames : List Frame}

/-- A value that is complete goes into what is open around it, or is the result. -/
theorem isFinite_complete {value : Json} (hvalue : value.IsFinite)
    (hframes : ∀ f ∈ frames, f.IsFinite) : (complete value frames).IsFinite := by
  cases frames with
  | nil => exact hvalue
  | cons frame frames =>
    obtain ⟨hframe, hrest⟩ := List.forall_mem_cons.1 hframes
    cases frame with
    | array elements => exact ⟨List.forall_mem_cons.2 ⟨hvalue, hframe⟩, hrest⟩
    | object members name => exact ⟨List.forall_mem_cons.2 ⟨hvalue, hframe⟩, hrest⟩

/-- Between values nothing is put in but words, and what is closed. -/
theorem Between.isFinite (h : Between state next) (hstate : state.IsFinite) : next.IsFinite := by
  cases h with
  | blank | beginString | beginNumber | beginName => exact hstate
  | beginArray => exact List.forall_mem_cons.2 ⟨nofun, hstate⟩
  | beginObject => exact ⟨hstate, nofun⟩
  | beginTrue => exact ⟨hstate, .boolean true⟩
  | beginFalse => exact ⟨hstate, .boolean false⟩
  | beginNull => exact ⟨hstate, .null⟩
  | closeFirst =>
    obtain ⟨helements, hframes⟩ := List.forall_mem_cons.1 hstate
    exact isFinite_complete (isFinite_reverse helements) hframes
  | closeNoName => exact isFinite_complete (isFinite_closeObject hstate.2) hstate.1
  | colon => exact List.forall_mem_cons.2 hstate.symm
  | nextElement => exact List.forall_mem_cons.2 hstate
  | closeArray => exact isFinite_complete (isFinite_reverse hstate.1) hstate.2
  | nextMember => exact hstate.symm
  | closeMembers => exact isFinite_complete (isFinite_closeObject hstate.1) hstate.2

/-- No number is put in but one that has just been read. -/
theorem Next.isFinite (h : Next state next) (hstate : state.IsFinite) : next.IsFinite := by
  cases h with
  | between h => exact h.isFinite hstate
  | string | name | closeName | number | word => exact hstate
  | closeString => exact isFinite_complete (isFinite_text _) hstate
  | closeNumber hvalue h =>
    exact h.isFinite (isFinite_complete (isFinite_of_ofNumberChars hvalue) hstate)
  -- The value of a word has been there from its first letter.
  | closeWord => exact isFinite_complete hstate.2 hstate.1

/-- What is read in the end has finite numbers, also where a numeral ends with the text. -/
theorem isFinite_of_result? {value : Json} (hstate : state.IsFinite)
    (h : state.result? = some value) : value.IsFinite := by
  unfold result? at h
  split at h
  · exact Option.some.inj h ▸ hstate
  · exact isFinite_of_ofNumberChars h
  · cases h

end State

/-- Character by character, the numbers that have been read stay finite. -/
theorem yieldsFinite : JsonReader.YieldsFinite := by
  intro text value h
  obtain ⟨state, hstate, h⟩ := Option.bind_eq_some_iff.1 h
  have hstart : (State.awaitValue [] false).IsFinite := nofun
  have hfinite := State.holds_of_foldlM (fun h hstep => (State.next_of_step hstep).isFinite h)
    hstart hstate
  exact State.isFinite_of_result? hfinite h

/-- Whatever is loaded from a text is decoded again from what is written for it. -/
theorem Inverts.decode_encode_of_loadText? {α : Type} {decode : Json → Option α}
    {encode : α → Json} {isFinite : α → Prop} (hinverts : Inverts decode encode isFinite)
    {text : String} {a : α} (h : loadText? decode text = some a) : decode (encode a) = some a :=
  (hinverts.of_loadText? yieldsFinite h).2

/-! ### Carriage returns after a value -/

namespace State

variable {state next : State}

/-- No carriage return is among what is awaited of a word. -/
def NoReturn : State → Prop
  | inWord _ rest _ => '\r' ∉ rest
  | _ => True

/-- After a value that is complete, no word is awaited. -/
theorem noReturn_complete (value : Json) (frames : List Frame) :
    (complete value frames).NoReturn := by
  cases frames with
  | nil => trivial
  | cons frame frames => cases frame <;> trivial

/-- Between values a word may begin, and none of the three has a carriage return in it. -/
theorem Between.noReturn (h : Between state next) (hstate : state.NoReturn) : next.NoReturn := by
  cases h with
  | blank => exact hstate
  | beginTrue => exact (by decide : '\r' ∉ ['r', 'u', 'e'])
  | beginFalse => exact (by decide : '\r' ∉ ['a', 'l', 's', 'e'])
  | beginNull => exact (by decide : '\r' ∉ ['u', 'l', 'l'])
  | closeFirst | closeNoName | closeArray | closeMembers => exact noReturn_complete _ _
  | beginString | beginArray | beginObject | beginNumber | beginName | colon | nextElement
  | nextMember => trivial

/-- A letter is taken away from the rest of a word, or a word begins or ends. -/
theorem Next.noReturn (h : Next state next) (hstate : state.NoReturn) : next.NoReturn := by
  cases h with
  | between h => exact h.noReturn hstate
  | string | name | closeName | number => trivial
  | closeString | closeWord => exact noReturn_complete _ _
  | closeNumber _ h => exact h.noReturn (noReturn_complete _ _)
  | word => exact fun hrest => hstate (List.mem_cons_of_mem _ hrest)

/-- A carriage return adds nothing to a text that ends with it. -/
theorem bind_result?_step_return (h : state.NoReturn) :
    (state.step '\r').bind result? = state.result? := by
  cases state with
  -- Within a string a carriage return is refused, and there was no result anyway.
  | inString frames chars escape => cases escape <;> rfl
  | inName frames members chars escape => cases escape <;> rfl
  | inNumber frames reversed =>
    -- The number ends here if nothing is open around it; otherwise there is no result anyway.
    change ((ofNumberChars reversed.reverse).bind fun value => some (complete value frames)).bind
      result? = _
    cases frames with
    | nil =>
      change _ = ofNumberChars reversed.reverse
      cases ofNumberChars reversed.reverse <;> rfl
    | cons frame frames => cases frame <;> cases ofNumberChars reversed.reverse <;> rfl
  | inWord frames rest value =>
    cases rest with
    | nil => rfl
    | cons expected rest =>
      -- The word is not complete, and a carriage return is not what it awaits.
      have hne : '\r' ≠ expected := fun heq => h (heq ▸ List.mem_cons_self)
      rw [step, if_pos hne]
      rfl
  | awaitValue | awaitName | awaitColon | finished => rfl
  | awaitNext frame frames => rfl

end State

/-- A carriage return at the end of a text is a blank of JSON, and is passed over. -/
theorem ignoresReturn : JsonReader.IgnoresReturn := by
  intro text
  change read? (text ++ "\r") = read? text
  have hchars : (text ++ "\r").toList = text.toList ++ ['\r'] := String.toList_append
  rw [read?, read?, hchars, List.foldlM_append]
  cases hstate : text.toList.foldlM State.step (.awaitValue [] false) with
  | none => rfl
  | some state =>
    have hstart : (State.awaitValue [] false).NoReturn := trivial
    have hreturn := State.holds_of_foldlM (fun h hstep => (State.next_of_step hstep).noReturn h)
      hstart hstate
    change ((state.step '\r').bind some).bind State.result? = state.result?
    rw [Option.bind_fun_some, State.bind_result?_step_return hreturn]

end Json

end Scoring
