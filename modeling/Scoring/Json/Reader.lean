import Scoring.Json.Number

/-!
# Reading JSON

The reader takes a text one character at a time. Its state says which arrays and
objects are open (`Frame`), with what is in them so far, and what it expects next.
`State.step` makes the next state, or refuses the character; a text is JSON if every
character is taken and the state at its end holds a finished value (`Json.read?`).

The form of a text is strict: no comments, no comma before a closing bracket, no
control characters in strings, nothing but blanks after the value.
-/

namespace Scoring.Json

/-- An array or an object that is open, with its contents so far, the latest first. A
    member whose name is unreadable has no name. -/
inductive Frame
  | array (elements : List Json)
  | object (members : List (Option String × Json)) (name : Option String)

/-- Where the reader stands within an escape of a string. -/
inductive Escape
  | none
  /-- After a backslash. -/
  | begun
  /-- Within a code, of which digits are still to come. -/
  | code (digits : Nat) (value : Nat)

/-- A string read so far. -/
structure Chars where
  /-- The characters, the latest first. -/
  reversed : List Char
  /-- The first half of a surrogate pair that waits for its other half. -/
  high : Option Nat
  /-- Whether no half has been left alone. -/
  paired : Bool

namespace Chars

/-- The string before its first character. -/
def empty : Chars := ⟨[], none, true⟩

/-- The string with one more character. -/
def push (s : Chars) (c : Char) : Chars := ⟨c :: s.reversed, none, s.paired && s.high.isNone⟩

/-- The string with one more code unit. Two halves of a pair that follow each other make
    one character. -/
def pushUnit (s : Chars) (unit : Nat) : Chars :=
  if 0xD800 ≤ unit && unit < 0xDC00 then
    -- A first half waits for the second; one that waited already is left alone.
    { s with high := some unit, paired := s.paired && s.high.isNone }
  else if 0xDC00 ≤ unit && unit < 0xE000 then
    match s.high with
    | some high =>
      ⟨Char.ofNat (0x10000 + (high - 0xD800) * 0x400 + (unit - 0xDC00)) :: s.reversed, none,
        s.paired⟩
    | none => { s with paired := false }
  else s.push (Char.ofNat unit)

/-- The string that has been read, unless half of a pair is alone in it. -/
def text? (s : Chars) : Option String :=
  if s.paired && s.high.isNone then some (String.ofList s.reversed.reverse) else none

end Chars

/-- What the reader expects, and what is open around it. -/
inductive State
  /-- A value; as the first in an array, it may also be the end of the array. -/
  | awaitValue (frames : List Frame) (first : Bool)
  /-- The name of a member; as the first, it may also be the end of the object. -/
  | awaitName (frames : List Frame) (members : List (Option String × Json)) (first : Bool)
  /-- The colon after a name. -/
  | awaitColon (frames : List Frame) (members : List (Option String × Json)) (name : Option String)
  /-- What comes after a value in an array or an object. -/
  | awaitNext (frame : Frame) (frames : List Frame)
  /-- The rest of a string that is a value. -/
  | inString (frames : List Frame) (chars : Chars) (escape : Escape)
  /-- The rest of a string that is the name of a member. -/
  | inName (frames : List Frame) (members : List (Option String × Json)) (chars : Chars)
      (escape : Escape)
  /-- The rest of a number. -/
  | inNumber (frames : List Frame) (reversed : List Char)
  /-- The rest of a word. -/
  | inWord (frames : List Frame) (rest : List Char) (value : Json)
  /-- Nothing more. -/
  | finished (value : Json)

/-- The blanks of JSON. -/
def isSpace (c : Char) : Bool := c = ' ' || c = '\n' || c = '\t' || c = '\r'

/-- The object of members, the latest first. It is unreadable if one of their names is. -/
def closeObject (members : List (Option String × Json)) : Json :=
  if members.all (·.1.isSome) then
    object (members.reverse.map fun (name, value) => (name.getD "", value))
  else unreadable

/-- What follows once a value is finished. -/
def State.complete (value : Json) : List Frame → State
  | [] => .finished value
  | .array elements :: frames => .awaitNext (.array (value :: elements)) frames
  | .object members name :: frames => .awaitNext (.object ((name, value) :: members) none) frames

/-- The character that an escape letter stands for. -/
def escaped? : Char → Option Char
  | '"' => some '"'
  | '\\' => some '\\'
  | '/' => some '/'
  | 'b' => some '\x08'
  | 'f' => some '\x0c'
  | 'n' => some '\n'
  | 'r' => some '\r'
  | 't' => some '\t'
  | _ => none

/-- The value of a hexadecimal digit. -/
def hexDigit? (c : Char) : Option Nat :=
  if c.isDigit then some (c.toNat - '0'.toNat)
  else if 'a' ≤ c && c ≤ 'f' then some (c.toNat - 'a'.toNat + 10)
  else if 'A' ≤ c && c ≤ 'F' then some (c.toNat - 'A'.toNat + 10)
  else none

/-- The string after a character other than its closing quote. -/
def stepString (chars : Chars) (escape : Escape) (c : Char) : Option (Chars × Escape) :=
  match escape with
  | .none =>
    if c = '\\' then some (chars, .begun)
    else if c < ' ' then none
    else some (chars.push c, .none)
  | .begun =>
    if c = 'u' then some (chars, .code 4 0)
    else (escaped? c).map fun c => (chars.push c, .none)
  | .code digits value =>
    (hexDigit? c).map fun digit =>
      let value := 16 * value + digit
      if digits ≤ 1 then (chars.pushUnit value, .none) else (chars, .code (digits - 1) value)

namespace State

/-- The state after a character where no string, number or word is open. -/
def stepBetween (state : State) (c : Char) : Option State :=
  if isSpace c then some state
  else match state with
  | awaitValue frames first =>
    if c = '"' then some (inString frames .empty .none)
    else if c = '[' then some (awaitValue (.array [] :: frames) true)
    else if c = '\x7b' then some (awaitName frames [] true)
    else if c = '-' || c.isDigit then some (inNumber frames [c])
    else if c = 't' then some (inWord frames ['r', 'u', 'e'] (.boolean true))
    else if c = 'f' then some (inWord frames ['a', 'l', 's', 'e'] (.boolean false))
    else if c = 'n' then some (inWord frames ['u', 'l', 'l'] .null)
    else if c = ']' && first then match frames with
      | .array elements :: frames => some (complete (.array elements.reverse) frames)
      | _ => none
    else none
  | awaitName frames members first =>
    if c = '"' then some (inName frames members .empty .none)
    else if c = '\x7d' && first then some (complete (closeObject members) frames)
    else none
  | awaitColon frames members name =>
    if c = ':' then some (awaitValue (.object members name :: frames) false) else none
  | awaitNext (.array elements) frames =>
    if c = ',' then some (awaitValue (.array elements :: frames) false)
    else if c = ']' then some (complete (.array elements.reverse) frames)
    else none
  | awaitNext (.object members _) frames =>
    if c = ',' then some (awaitName frames members false)
    else if c = '\x7d' then some (complete (closeObject members) frames)
    else none
  | _ => none

/-- The state after a character. -/
def step (state : State) (c : Char) : Option State :=
  match state with
  | inString frames chars .none =>
    if c = '"' then some (complete ((chars.text?.map Json.string).getD unreadable) frames)
    else (stepString chars .none c).map fun (chars, escape) => inString frames chars escape
  | inString frames chars escape =>
    (stepString chars escape c).map fun (chars, escape) => inString frames chars escape
  | inName frames members chars .none =>
    if c = '"' then some (awaitColon frames members chars.text?)
    else (stepString chars .none c).map fun (chars, escape) =>
      inName frames members chars escape
  | inName frames members chars escape =>
    (stepString chars escape c).map fun (chars, escape) => inName frames members chars escape
  | inNumber frames reversed =>
    -- Nothing closes a number but the character after it, which has a meaning of its own.
    if isNumberChar c then some (inNumber frames (c :: reversed))
    else (ofNumberChars reversed.reverse).bind fun value => (complete value frames).stepBetween c
  | inWord frames (expected :: rest) value =>
    if c ≠ expected then none
    else some (if rest.isEmpty then complete value frames else inWord frames rest value)
  | state => state.stepBetween c

/-- What holds of a state, and is kept by every step, holds after any characters. -/
theorem holds_of_foldlM {P : State → Prop}
    (hstep : ∀ {state next : State} {c : Char}, P state → state.step c = some next → P next)
    {cs : List Char} {state next : State} (hstate : P state)
    (h : cs.foldlM step state = some next) : P next := by
  induction cs generalizing state with
  | nil => exact Option.some.inj h ▸ hstate
  | cons c cs ih =>
    rw [List.foldlM_cons] at h
    obtain ⟨later, hlater, h⟩ := Option.bind_eq_some_iff.1 h
    exact ih (hstep hstate hlater) h

/-- The value of a text that ends in this state. -/
def result? : State → Option Json
  | finished value => some value
  | inNumber [] reversed => ofNumberChars reversed.reverse
  | _ => none

end State

/-- The value that a text stands for, if it is JSON. -/
def read? (text : String) : Option Json :=
  (text.toList.foldlM State.step (.awaitValue [] false)).bind State.result?

instance : JsonReader := ⟨read?⟩

end Scoring.Json
