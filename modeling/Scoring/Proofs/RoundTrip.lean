import Scoring.Load
import Scoring.Proofs.Formats

/-!
# Loading undoes writing

Whatever is written as JSON is decoded again as it was, provided that its numbers are
finite; and the numbers of whatever has been decoded from finite numbers are finite
(`decoders_invert_encoders`).

A text that is loaded is read and clipped before it is decoded. Clipping puts in no numbers,
and so it is enough that the numbers which have been read are finite
(`JsonReader.YieldsFinite`), as JSON has no others.
-/

namespace Scoring

/-- A decoder inverts an encoder on everything whose numbers are finite, and so on
    everything that is decoded from finite numbers. -/
structure Json.Inverts {α : Type} (decode : Json → Option α) (encode : α → Json)
    (isFinite : α → Prop) : Prop where
  decode_encode : ∀ a, isFinite a → decode (encode a) = some a
  isFinite_of_decoded : ∀ a, Decoded decode a → isFinite a
  decode_encode_of_decoded : ∀ a, Decoded decode a → decode (encode a) = some a

/-- It is enough that finite things are decoded from what is written for them, and that only
    finite things are decoded. -/
theorem Json.inverts_of_decoded {α : Type} {decode : Json → Option α} {encode : α → Json}
    {isFinite : α → Prop} (hencode : ∀ a, isFinite a → decode (encode a) = some a)
    (hdecoded : ∀ a, Decoded decode a → isFinite a) : Inverts decode encode isFinite where
  decode_encode := hencode
  isFinite_of_decoded := hdecoded
  decode_encode_of_decoded a h := hencode a (hdecoded a h)

/-- Loading undoes writing, for documents with everything in them, for settings, and for
    rows. What has no numbers, or integers only, comes back in any case. -/
theorem decoders_invert_encoders :
    Json.Inverts Document.ofJson? Document.toJson (fun document => document.model.IsFinite) ∧
    Json.Inverts BatchSettings.ofJson? BatchSettings.toJson (fun _ => True) ∧
    Json.Inverts MiningSchema.ofJson? MiningSchema.toJson (fun _ => True) ∧
    Json.Inverts Predicate.ofJson? Predicate.toJson (fun _ => True) ∧
    Json.Inverts Expression.ofJson? Expression.toJson Expression.IsFinite ∧
    Json.Inverts Node.ofJson? Node.toJson Node.IsFinite ∧
    Json.Inverts Output.ofJson? Output.toJson (fun _ => True) ∧
    Json.Inverts Row.ofJson? Row.toJson Row.IsFinite := by
  refine ⟨?_, ?_, ?_, ?_, ?_, ?_, ?_, ?_⟩ <;> apply Json.inverts_of_decoded
  · exact fun _ => Document.ofJson?_toJson
  · exact fun _ => Document.isFinite_of_decoded
  · exact fun settings _ => settings.ofJson?_toJson
  · exact fun _ _ => trivial
  · exact fun schema _ => schema.ofJson?_toJson
  · exact fun _ _ => trivial
  · exact fun predicate _ => predicate.ofJson?_toJson
  · exact fun _ _ => trivial
  · exact fun _ => Expression.ofJson?_toJson
  · exact fun _ => Expression.isFinite_of_decoded
  · exact fun _ => Node.ofJson?_toJson
  · exact fun _ => Node.isFinite_of_decoded
  · exact fun output _ => output.ofJson?_toJson
  · exact fun _ _ => trivial
  · exact fun _ => Row.ofJson?_toJson
  · exact fun _ => Row.isFinite_of_decoded

/-! ### Texts -/

/-- Clipping takes values away, and makes none. -/
theorem Json.IsFinite.clip {v : Json} (h : v.IsFinite) (levels : Nat) :
    (v.clip levels).IsFinite := by
  induction h generalizing levels with
  | array helements ih =>
    cases levels with
    | zero => exact .unreadable
    | succ levels =>
      refine .array fun w hw => ?_
      obtain ⟨v, hv, rfl⟩ := List.mem_map.1 hw
      exact ih v hv levels
  | object hmembers ih =>
    cases levels with
    | zero => exact .unreadable
    | succ levels =>
      refine .object fun n hn => ?_
      obtain ⟨m, hm, rfl⟩ := List.mem_map.1 hn
      exact ih m hm levels
  | null => cases levels <;> exact .null
  | boolean b => cases levels <;> exact .boolean b
  | integer hn => cases levels <;> exact .integer hn
  | real hx => cases levels <;> exact .real hx
  | string s => cases levels <;> exact .string s
  | unreadable => cases levels <;> exact .unreadable

/-- Every number that a text is read to hold is finite. -/
def JsonReader.YieldsFinite [JsonReader] : Prop :=
  ∀ text v, JsonReader.read? text = some v → v.IsFinite

/-- What is loaded from a text is decoded from finite numbers, if the reader yields no others. -/
theorem decoded_of_loadText? [JsonReader] (hfinite : JsonReader.YieldsFinite) {α : Type}
    {decode : Json → Option α} {text : String} {a : α} (h : loadText? decode text = some a) :
    Decoded decode a := by
  obtain ⟨v, hread, h⟩ := Option.bind_eq_some_iff.1 h
  exact ⟨_, (hfinite text v hread).clip _, h⟩

/-- What is loaded from a text is written so that it can be decoded again. -/
theorem Json.Inverts.of_loadText? [JsonReader] (hfinite : JsonReader.YieldsFinite) {α : Type}
    {decode : Json → Option α} {encode : α → Json} {isFinite : α → Prop}
    (hinverts : Inverts decode encode isFinite) {text : String} {a : α}
    (h : loadText? decode text = some a) : isFinite a ∧ decode (encode a) = some a :=
  have hdecoded := decoded_of_loadText? hfinite h
  ⟨hinverts.isFinite_of_decoded a hdecoded, hinverts.decode_encode_of_decoded a hdecoded⟩

end Scoring
