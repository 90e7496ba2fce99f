import Mathlib.Data.List.Nodup
import Mathlib.Logic.Relation
import Scoring.Format.Grammar
import Scoring.Proofs.Formats

/-!
# Spelling does not matter

A document that is written in another way (`Format.Respelled`) is decoded as before: as the
same document, or not at all.

* `Format.Reads` says which decoder reads which form. Two values are *read alike* in a form
  (`Form.ReadAlike`) if no decoder of the form tells them apart.
* A decoder of a record looks at its fields only. It does not tell two records apart if what
  they have under the name of each field is read alike (`FieldsAlike`). There, neither value
  may be `null` where the other is not: in some fields, `null` stands for a value that is not
  there.
* A respelling at one place keeps all fields of the records around it alike, and so it is
  carried from the inside to the outside (`Respelled.readAlike`), up to the document
  (`Document.ofJson?_eq_of_respelled`).
-/

namespace Scoring

/-! ### The members of an object -/

namespace Json

variable {name other : String} {v : Json} {members members' before after : List (String × Json)}

/-- What the members have under a name does not depend on their order. -/
theorem lookup_perm (h : members.Perm members') : lookup name members = lookup name members' := by
  induction h with
  | nil => rfl
  | cons member h ih => simp only [lookup, h.any_eq, ih]
  | swap first second members => grind [lookup]
  | trans _ _ ih ih' => exact ih.trans ih'

theorem lookup_middle : lookup name (before ++ (other, v) :: after) =
    lookup name ((other, v) :: (before ++ after)) :=
  lookup_perm List.perm_middle

/-- Members under other names do not matter. -/
theorem lookup_middle_of_ne (h : other ≠ name) :
    lookup name (before ++ (other, v) :: after) = lookup name (before ++ after) := by
  rw [lookup_middle, lookup_cons_of_ne h]

/-- An array of fields gives each value the name of the field at its place. -/
theorem zip_middle {names : List String} {before : List Json}
    (h : names[before.length]? = some name) (after : List Json) :
    ∃ before' after', ∀ v, names.zip (before ++ v :: after) = before' ++ (name, v) :: after' := by
  obtain ⟨hlt, rfl⟩ := List.getElem?_eq_some_iff.1 h
  refine ⟨(names.take before.length).zip before, (names.drop (before.length + 1)).zip after,
    fun v => ?_⟩
  have hlength : (names.take before.length).length = before.length := by
    rw [List.length_take]
    omega
  conv => lhs; rw [← List.take_append_drop before.length names, List.drop_eq_getElem_cons hlt]
  rw [List.zip_append hlength, List.zip_cons_cons]

theorem nullable?_of_ne_null {α : Type} {decode : Json → Option α} (h : v ≠ null) :
    nullable? decode v = some <$> decode v := by
  cases v <;> first | rfl | contradiction

end Json

namespace Format

/-! ### Decoders and forms -/

/-- The decoders of each form. -/
class inductive Reads : outParam Form → {α : Type} → (Json → Option α) → Prop
  | string : Reads .plain Json.string?
  | float : Reads .plain Json.float?
  | int32 : Reads .plain Json.int32?
  | value : Reads .plain Json.value?
  | member {α : Type} [Vocabulary α] : Reads .word (@Json.member? α _)
  | literal : Reads .literal Json.literal?
  | optionalLiteral : Reads .literal Json.optionalLiteral?
  | list {form : Form} {α : Type} {decode : Json → Option α} :
      Reads form decode → Reads (.list form) (Json.list? decode)
  | document : Reads (.element .document) Document.ofJson?
  | header : Reads (.element .header) Header.ofJson?
  | model : Reads (.element .model) Model.ofJson?
  | tree : Reads (.element .tree) TreeModel.ofJson?
  | node : Reads (.element .node) Node.ofJson?
  | distribution : Reads (.element .distribution) ScoreDistribution.ofJson?
  | regression : Reads (.element .regression) RegressionModel.ofJson?
  | table : Reads (.element .table) RegressionTable.ofJson?
  | predictor : Reads (.element .predictor) Predictor.ofJson?
  | numericPredictor : Reads (.element .numericPredictor)
      fun content => Predictor.ofJson? (.object [("NumericPredictor", content)])
  | categoricalPredictor : Reads (.element .categoricalPredictor)
      fun content => Predictor.ofJson? (.object [("CategoricalPredictor", content)])
  | predictorTerm : Reads (.element .predictorTerm)
      fun content => Predictor.ofJson? (.object [("PredictorTerm", content)])
  | mining : Reads (.element .mining) MiningModel.ofJson?
  | target : Reads (.element .target) Target.ofJson?
  | segmentation : Reads (.element .segmentation) MiningModel.segmentation?
  | segment : Reads (.element .segment) Segment.ofJson?
  | schema : Reads (.element .schema) MiningSchema.ofJson?
  | miningField : Reads (.element .miningField) MiningField.ofJson?
  | output : Reads (.element .output) Output.ofJson?
  | outputField : Reads (.element .outputField) OutputField.ofJson?
  | predicate : Reads (.element .predicate) Predicate.ofJson?
  | simplePredicate : Reads (.element .simplePredicate)
      fun content => Predicate.ofJson? (.object [("SimplePredicate", content)])
  | setPredicate : Reads (.element .setPredicate)
      fun content => Predicate.ofJson? (.object [("SimpleSetPredicate", content)])
  | compoundPredicate : Reads (.element .compoundPredicate)
      fun content => Predicate.ofJson? (.object [("CompoundPredicate", content)])
  | derivedField : Reads (.element .derivedField) DerivedField.ofJson?
  | expression : Reads (.element .expression) Expression.ofJson?
  | fieldRef : Reads (.element .fieldRef) FieldRef.ofJson?
  | constant : Reads (.element .constant)
      fun content => Expression.ofJson? (.object [("Constant", content)])
  | application : Reads (.element .application)
      fun content => Expression.ofJson? (.object [("Apply", content)])

attribute [instance] Reads.string Reads.float Reads.int32 Reads.value Reads.member Reads.literal
  Reads.optionalLiteral Reads.document Reads.header Reads.model Reads.tree Reads.node
  Reads.distribution Reads.regression Reads.table Reads.predictor Reads.mining Reads.target
  Reads.segmentation Reads.segment Reads.schema Reads.miningField Reads.output Reads.outputField
  Reads.predicate Reads.derivedField Reads.expression Reads.fieldRef

instance Reads.instList {form : Form} {α : Type} {decode : Json → Option α} [Reads form decode] :
    Reads (.list form) (Json.list? decode) :=
  .list ‹_›

/-- No decoder of the form tells the two values apart. -/
def Form.ReadAlike (form : Form) (v w : Json) : Prop :=
  ∀ (α : Type) (decode : Json → Option α) [Reads form decode], decode v = decode w

/-! ### Fields that are read alike -/

/-- What two records have in a field is the same, or both have a value there that is not
    `null`, and these are read alike. -/
def LookupAlike (form : Form) (found found' : Json.Lookup) : Prop :=
  found = found' ∨ ∃ v w, found = .found v ∧ found' = .found w ∧
    v ≠ .null ∧ w ≠ .null ∧ form.ReadAlike v w

/-- What two records have in each of the fields is read alike. -/
def FieldsAlike (fields : List (String × Form)) (members members' : List (String × Json)) : Prop :=
  ∀ name form, (name, form) ∈ fields →
    LookupAlike form (Json.lookup name members) (Json.lookup name members')

namespace FieldsAlike

variable {fields : List (String × Form)} {members members' : List (String × Json)}
  {name : String} {form : Form} {α : Type} {decode : Json → Option α} {default : α}
  [Reads form decode] (h : FieldsAlike fields members members') (hfield : (name, form) ∈ fields)
include h hfield

theorem required : Json.required name decode members = Json.required name decode members' := by
  rw [Json.required, Json.required]
  rcases h name form hfield with h | ⟨v, w, hv, hw, -, -, h⟩
  · rw [h]
  · rw [hv, hw]
    exact h α decode

theorem withDefault : Json.withDefault name default decode members =
    Json.withDefault name default decode members' := by
  rw [Json.withDefault, Json.withDefault]
  rcases h name form hfield with h | ⟨v, w, hv, hw, -, -, h⟩
  · rw [h]
  · rw [hv, hw]
    exact h α decode

theorem optional : Json.optional name decode members = Json.optional name decode members' := by
  rw [Json.optional, Json.optional, Json.withDefault, Json.withDefault]
  rcases h name form hfield with h | ⟨v, w, hv, hw, hvnull, hwnull, h⟩
  · rw [h]
  · -- Neither value is `null`, and so both go to the decoder.
    simp only [hv, hw, Json.nullable?_of_ne_null hvnull, Json.nullable?_of_ne_null hwnull,
      h α decode]

end FieldsAlike

/-- Two values have the same fields, up to what is read alike, or neither of them is a record. -/
def RecordAlike (fields : List (String × Form)) (v w : Json) : Prop :=
  Option.Rel (FieldsAlike fields) (v.fields? (fields.map (·.1))) (w.fields? (fields.map (·.1)))

theorem FieldsAlike.object {fields : List (String × Form)}
    {members members' : List (String × Json)} (h : FieldsAlike fields members members') :
    RecordAlike fields (.object members) (.object members') :=
  .some h

theorem RecordAlike.bind {fields : List (String × Form)} {v w : Json} {α : Type}
    {decode : List (String × Json) → Option α} (h : RecordAlike fields v w)
    (hdecode : ∀ members members', FieldsAlike fields members members' →
      decode members = decode members') :
    (v.fields? (fields.map (·.1)) >>= decode) = (w.fields? (fields.map (·.1)) >>= decode) := by
  rw [RecordAlike] at h
  generalize v.fields? _ = members? at h ⊢
  generalize w.fields? _ = members'? at h ⊢
  cases h with
  | none => rfl
  | some h => exact hdecode _ _ h

/-! ### Decoders of elements -/

section

variable {element : Element} {v w : Json}

/-- A decoder of a record looks at its fields only. -/
theorem readAlike_of_recordAlike {fields : List (String × Form)}
    (hshape : element.shape = .record fields) (h : RecordAlike fields v w) :
    Form.ReadAlike (.element element) v w := by
  intro α decode hdecode
  cases hdecode <;> cases hshape
  -- The names and forms of the fields that each decoder asks for are those of the grammar.
  all_goals
    simp only [Document.ofJson?, Header.ofJson?, TreeModel.ofJson?, Node.ofJson?_eq,
      ScoreDistribution.ofJson?, RegressionModel.ofJson?, RegressionTable.ofJson?,
      Predictor.ofJson?, MiningModel.ofJson?_eq, Target.ofJson?, MiningModel.segmentation?,
      Segment.ofJson?_eq, MiningSchema.ofJson?, MiningField.ofJson?, Output.ofJson?,
      OutputField.ofJson?, Predicate.ofJson?, Predicate.ofJson?_compound, DerivedField.ofJson?,
      FieldRef.ofJson?, Expression.ofJson?, Expression.ofJson?_apply]
    refine h.bind fun members members' h => ?_
    simp (disch := decide) only [h.required, h.withDefault, h.optional]

variable {words : List String} {contents : List (String × Element)}

/-- A decoder of a choice gives the content to a decoder of the content. -/
theorem readAlike_of_content {content : Element} {tag : String}
    (hshape : element.shape = .choice words contents) (hcontent : (tag, content) ∈ contents)
    (h : Form.ReadAlike (.element content) v w) :
    Form.ReadAlike (.element element) (.object [(tag, v)]) (.object [(tag, w)]) := by
  intro α decode hdecode
  cases hdecode with
  | model =>
    cases hshape
    obtain _ | ⟨_, _ | ⟨_, _ | ⟨_, ⟨⟩⟩⟩⟩ := hcontent
    · simp only [Model.ofJson?, h _ TreeModel.ofJson?]
    · simp only [Model.ofJson?, h _ RegressionModel.ofJson?]
    · simp only [Model.ofJson?, h _ MiningModel.ofJson?]
  | predictor =>
    cases hshape
    obtain _ | ⟨_, _ | ⟨_, _ | ⟨_, ⟨⟩⟩⟩⟩ := hcontent
    exacts [@h _ _ .numericPredictor, @h _ _ .categoricalPredictor, @h _ _ .predictorTerm]
  | predicate =>
    cases hshape
    obtain _ | ⟨_, _ | ⟨_, _ | ⟨_, ⟨⟩⟩⟩⟩ := hcontent
    exacts [@h _ _ .simplePredicate, @h _ _ .setPredicate, @h _ _ .compoundPredicate]
  | expression =>
    cases hshape
    obtain _ | ⟨_, _ | ⟨_, _ | ⟨_, ⟨⟩⟩⟩⟩ := hcontent
    · simp only [Expression.ofJson?, h _ FieldRef.ofJson?]
    · exact @h _ _ .constant
    · exact @h _ _ .application
  | _ => cases hshape

/-- A choice takes no other members, unlike a record. -/
example (content : Json) :
    Predictor.ofJson? (.object [("NumericPredictor", content), ("note", .null)]) = none := by
  rfl

/-- A decoder of a choice knows its words with nothing behind them, too. -/
theorem readAlike_of_word {word : String} (hshape : element.shape = .choice words contents)
    (hword : word ∈ words) :
    Form.ReadAlike (.element element) (.string word) (.object [(word, .null)]) := by
  intro α decode hdecode
  cases hdecode <;> cases hshape
  case predicate =>
    obtain _ | ⟨_, _ | ⟨_, ⟨⟩⟩⟩ := hword <;> simp only [Predicate.ofJson?]
  all_goals cases hword

end

/-! ### One place -/

section

variable {fields : List (String × Form)} {members members' before after : List (String × Json)}
  {name : String} {form : Form} {v w : Json}

/-- The order of the members does not matter. -/
theorem fieldsAlike_of_perm (h : members.Perm members') : FieldsAlike fields members members' :=
  fun _ _ _ => .inl (Json.lookup_perm h)

/-- A member that is no field does not matter. -/
theorem fieldsAlike_insert (h : ∀ field ∈ fields, field.1 ≠ name) :
    FieldsAlike fields (before ++ after) (before ++ (name, v) :: after) :=
  fun _ _ hfield => .inl (Json.lookup_middle_of_ne (h _ hfield).symm).symm

variable (hnodup : (fields.map (·.1)).Nodup) (hv : v ≠ .null) (hw : w ≠ .null)
  (h : form.ReadAlike v w)
include hnodup hv hw h

/-- Another spelling of a field leaves all fields alike. -/
theorem fieldsAlike_field (hfield : (name, form) ∈ fields) :
    FieldsAlike fields (before ++ (name, v) :: after) (before ++ (name, w) :: after) := by
  intro other form' hother
  by_cases hname : name = other
  · subst hname
    -- No other field has this name, and hence none has it with another form.
    have hform : (name, form) = (name, form') := List.inj_on_of_nodup_map hnodup hfield hother rfl
    cases hform
    rw [Json.lookup_middle, Json.lookup_middle, Json.lookup, Json.lookup, if_pos rfl, if_pos rfl]
    -- If the name comes again, neither record has a value under it.
    split
    · exact .inl rfl
    · exact .inr ⟨v, w, rfl, rfl, hv, hw, h⟩
  · rw [Json.lookup_middle_of_ne hname, Json.lookup_middle_of_ne hname]
    exact .inl rfl

/-- Another spelling at one place of an array leaves all fields of its record alike. -/
theorem recordAlike_position {before after : List Json}
    (hfield : fields[before.length]? = some (name, form)) :
    RecordAlike fields (.array (before ++ v :: after)) (.array (before ++ w :: after)) := by
  have hname : (fields.map (·.1))[before.length]? = some name := by
    rw [List.getElem?_map, hfield, Option.map_some]
  -- The place in the array says which field it is.
  obtain ⟨before', after', hzip⟩ := Json.zip_middle hname after
  simp only [RecordAlike, Json.fields?, hzip, List.length_append, List.length_cons]
  split
  · exact .some (fieldsAlike_field hnodup hv hw h (List.mem_of_getElem? hfield))
  · exact .none

end

/-- What is written in more than one way is not `null`. -/
theorem Respelled.ne_null {form : Form} {v w : Json} (h : Respelled form v w) :
    v ≠ .null ∧ w ≠ .null := by
  cases h <;> exact ⟨nofun, nofun⟩

/-- What is respelled at one place is read alike. -/
theorem Respelled.readAlike {form : Form} {v w : Json} (h : Respelled form v w) :
    form.ReadAlike v w := by
  induction h with
  | word | boolean | integer | real =>
    intro α decode hdecode
    cases hdecode <;> rfl
  | item _ ih =>
    intro α decode hdecode
    -- Only lists have items, and the other items are the same.
    cases hdecode with
    | @list _ _ decode _ =>
      simp only [Json.list?, List.map_append, List.map_cons, ih _ decode]
  | permute hshape hperm => exact readAlike_of_recordAlike hshape (fieldsAlike_of_perm hperm).object
  | insert hshape hname => exact readAlike_of_recordAlike hshape (fieldsAlike_insert hname).object
  | field hshape hfield hv ih =>
    obtain ⟨hvnull, hwnull⟩ := hv.ne_null
    have hnodup := Element.nodup_fields hshape
    exact readAlike_of_recordAlike hshape (fieldsAlike_field hnodup hvnull hwnull ih hfield).object
  | position hshape hfield hv ih =>
    obtain ⟨hvnull, hwnull⟩ := hv.ne_null
    have hnodup := Element.nodup_fields hshape
    exact readAlike_of_recordAlike hshape (recordAlike_position hnodup hvnull hwnull ih hfield)
  | chosen hshape hword => exact readAlike_of_word hshape hword
  | content hshape hcontent _ ih => exact readAlike_of_content hshape hcontent ih

/-- What is respelled at any number of places, in either direction, is read alike. -/
theorem readAlike_of_eqvGen {form : Form} {v w : Json} (h : Relation.EqvGen (Respelled form) v w) :
    form.ReadAlike v w := by
  intro α decode hdecode
  induction h with
  | rel _ _ h => exact h.readAlike α decode
  | refl _ => rfl
  | symm _ _ _ ih => exact ih.symm
  | trans _ _ _ _ _ ih ih' => exact ih.trans ih'

end Format

namespace Document

/-- **Loading does not depend on spelling**: a document that is respelled, at any number of
    places and in either direction, is decoded as before, or still not at all. -/
theorem ofJson?_eq_of_respelled {v w : Json}
    (h : Relation.EqvGen (Format.Respelled (.element .document)) v w) : ofJson? v = ofJson? w :=
  Format.readAlike_of_eqvGen h Document ofJson?

/-- A document whose tree has one node. -/
def ofLeaf (leaf : Json) : Json :=
  .object [("model", .object [("TreeModel", .object [
    ("functionName", .string "classification"), ("node", leaf)])])]

/-- What is respelled in the node is respelled in the document. -/
theorem respelled_ofLeaf {v w : Json} (h : Format.Respelled (.element .node) v w) :
    Format.Respelled (.element .document) (ofLeaf v) (ofLeaf w) := by
  refine @Format.Respelled.field .document _ "model" (.element .model) _ _ [] [] rfl (by decide) ?_
  refine @Format.Respelled.content .model .tree _ _ "TreeModel" _ _ rfl (by decide) ?_
  exact @Format.Respelled.field .tree _ "node" (.element .node) _ _
    [("functionName", .string "classification")] [] rfl (by decide) h

theorem isSome_ofLeaf {leaf : Json} (h : (Node.ofJson? leaf).isSome) :
    (ofJson? (ofLeaf leaf)).isSome := by
  obtain ⟨root, hroot⟩ := Option.isSome_iff_exists.1 h
  let content := Json.object [("functionName", .string "classification"), ("node", leaf)]
  have hcontent : TreeModel.ofJson? content = (Node.ofJson? leaf).bind fun root =>
      some ⟨none, .classification, ⟨[]⟩, none, ⟨.passOver, .returnLastPrediction⟩, root⟩ := rfl
  have hmodel : Model.ofJson? (.object [("TreeModel", content)]) =
      .tree <$> TreeModel.ofJson? content := by
    rw [Model.ofJson?]
  have hdocument : ofJson? (ofLeaf leaf) =
      (Model.ofJson? (.object [("TreeModel", content)])).bind fun model => some ⟨none, model⟩ := rfl
  rw [hdocument, hmodel, hcontent, hroot]
  rfl

/-- A leaf with a score. -/
def plainLeaf : Json := .object [("predicate", .string "True"), ("score", .integer 1)]

theorem isSome_plainLeaf : (Node.ofJson? plainLeaf).isSome := by
  have hpredicate : Predicate.ofJson? (.string "True") = some .always := by
    rw [Predicate.ofJson?]
  have hleaf : Node.ofJson? plainLeaf = (Predicate.ofJson? (.string "True")).bind fun predicate =>
      some ⟨none, some "1", none, none, predicate, [], []⟩ := Node.ofJson?_eq plainLeaf
  rw [hleaf, hpredicate]
  rfl

/-- The same with the predicate in its other spelling, the score as a text, the two of them
    in the other order, and a note before them. -/
def respelledLeaf : Json := .object [
  ("note", .array [.null]), ("score", .string "1"), ("predicate", .object [("True", .null)])]

theorem ofJson?_eq_of_respelled_leaf :
    Relation.EqvGen (Format.Respelled (.element .document))
        (ofLeaf plainLeaf) (ofLeaf respelledLeaf) ∧
      (ofJson? (ofLeaf plainLeaf)).isSome ∧
      ofJson? (ofLeaf plainLeaf) = ofJson? (ofLeaf respelledLeaf) := by
  let predicate := Json.object [("True", .null)]
  have hpredicate : Format.Respelled (.element .node) plainLeaf
      (.object [("predicate", predicate), ("score", .integer 1)]) :=
    @Format.Respelled.field .node _ "predicate" (.element .predicate) _ _
      [] [("score", .integer 1)] rfl (by decide) (.chosen rfl (by decide))
  have hscore : Format.Respelled (.element .node)
      (.object [("predicate", predicate), ("score", .integer 1)])
      (.object [("predicate", predicate), ("score", .string "1")]) :=
    @Format.Respelled.field .node _ "score" .literal _ _
      [("predicate", predicate)] [] rfl (by decide) (.integer 1)
  have horder : Format.Respelled (.element .node)
      (.object [("predicate", predicate), ("score", .string "1")])
      (.object [("score", .string "1"), ("predicate", predicate)]) :=
    .permute rfl (.swap _ _ [])
  have hnote : Format.Respelled (.element .node)
      (.object [("score", .string "1"), ("predicate", predicate)]) respelledLeaf :=
    @Format.Respelled.insert .node _ "note" _ [] _ rfl (by decide)
  have h : Relation.EqvGen (Format.Respelled (.element .document))
      (ofLeaf plainLeaf) (ofLeaf respelledLeaf) :=
    .trans _ _ _ (.rel _ _ (respelled_ofLeaf hpredicate)) <|
      .trans _ _ _ (.rel _ _ (respelled_ofLeaf hscore)) <|
        .trans _ _ _ (.rel _ _ (respelled_ofLeaf horder)) (.rel _ _ (respelled_ofLeaf hnote))
  exact ⟨h, isSome_ofLeaf isSome_plainLeaf, ofJson?_eq_of_respelled h⟩

end Document

end Scoring
