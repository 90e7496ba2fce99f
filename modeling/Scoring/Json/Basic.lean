/-!
# JSON values

A JSON value as a reader gives it and a writer takes it. Members of an object are
kept in their order, and all of them, also those that share a name: which of them
count is for the decoder of the object to say. A number is an `integer` if it was
written without a point and an exponent, and otherwise a `real`, which is finite.

Some texts are JSON by their form, and yet stand for nothing that can be held: a
number beyond the largest double, half of a surrogate pair in a string, arrays and
objects nested too deep (`Json.clip`). These are `unreadable`. They do no harm in a
place that nobody looks at.
-/

namespace Scoring

/-- A JSON value. -/
inductive Json
  | null
  | boolean (b : Bool)
  | integer (n : Int)
  | real (x : Float)
  | string (s : String)
  | array (elements : List Json)
  | object (members : List (String × Json))
  /-- What has the form of a value and cannot be held. -/
  | unreadable

namespace Json

/-- The value with every array and object unreadable that lies within `levels` others. -/
def clip : Nat → Json → Json
  | 0, array _ => unreadable
  | 0, object _ => unreadable
  | levels + 1, array elements => array (elements.map (clip levels))
  | levels + 1, object members => object (members.map fun (name, v) => (name, clip levels v))
  | _, v => v

/-- The deepest nesting of arrays and objects in a document. -/
def maxLevels : Nat := 127

/-- The number as JSON has it; JSON has no numbers that are not finite, and `null`
    stands in for them. -/
def ofFloat (x : Float) : Json := if x.isFinite then real x else null

end Json

/-- What texts are read as JSON with. -/
class JsonReader where
  /-- The value that a text stands for, if it is JSON. -/
  read? : String → Option Json

/-- A carriage return after a text makes no difference, as JSON takes it for a blank. -/
def JsonReader.IgnoresReturn [JsonReader] : Prop :=
  ∀ text, JsonReader.read? (text ++ "\r") = JsonReader.read? text

end Scoring
