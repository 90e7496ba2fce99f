import Scoring.Json.Basic
import Scoring.Value

/-!
# The grammar of documents

A document is made of *elements* (`Format.Element`). The grammar says how each of them is
written (`Format.Element.shape`): as a record of named fields, or as a choice between
words and tagged contents. Every field has a *form* (`Format.Form`), which is where there
is more than one way to write the same:

* the members of a record may come in any order, and members that are none of its fields
  may stand among them;
* a word stands alone or as the name of a member that holds nothing;
* a literal may be written as the number or the boolean that it is the text of.

`Format.Respelled` writes one place of a value in another way, at any depth. A record may
also be written as an array of the values of its fields; there the order matters, but
each value may be written in another way.
-/

namespace Scoring.Format

/-- What a document is made of. -/
inductive Element
  | document | header | model
  | tree | node | distribution
  | regression | table | predictor | numericPredictor | categoricalPredictor | predictorTerm
  | mining | target | segmentation | segment
  | schema | miningField | output | outputField
  | predicate | simplePredicate | setPredicate | compoundPredicate
  | derivedField | expression | fieldRef | constant | application
  deriving DecidableEq

/-- How a value is written. -/
inductive Form
  /-- In one way only. -/
  | plain
  /-- As a word out of a closed set. -/
  | word
  /-- As a text, or as what it is the text of. -/
  | literal
  /-- As an array. -/
  | list (form : Form)
  /-- As the grammar says. -/
  | element (element : Element)
  deriving DecidableEq

/-- The two ways to write an element. -/
inductive Shape
  /-- An object with these fields. -/
  | record (fields : List (String × Form))
  /-- One of the words, or an object whose one member has one of the names, and the
      element that belongs to it as its content. -/
  | choice (words : List String) (contents : List (String × Element))

namespace Element

/-- How an element is written. -/
def shape : Element → Shape
  | document => .record [("header", .element header), ("model", .element model)]
  | header => .record [("copyright", .plain), ("description", .plain)]
  | model => .choice [] [
      ("TreeModel", tree), ("RegressionModel", regression), ("MiningModel", mining)]
  | tree => .record [
      ("modelName", .plain), ("functionName", .word), ("miningSchema", .element schema),
      ("output", .element output), ("missingValueStrategy", .word),
      ("noTrueChildStrategy", .word), ("node", .element node)]
  | node => .record [
      ("id", .literal), ("score", .literal), ("recordCount", .plain),
      ("defaultChild", .literal), ("predicate", .element predicate),
      ("scoreDistributions", .list (.element distribution)), ("nodes", .list (.element node))]
  | distribution => .record [
      ("value", .literal), ("recordCount", .plain), ("confidence", .plain),
      ("probability", .plain)]
  | regression => .record [
      ("modelName", .plain), ("functionName", .word), ("normalizationMethod", .word),
      ("targetFieldName", .plain), ("miningSchema", .element schema),
      ("output", .element output), ("regressionTables", .list (.element table))]
  | table => .record [
      ("intercept", .plain), ("targetCategory", .literal),
      ("predictors", .list (.element predictor))]
  | predictor => .choice [] [
      ("NumericPredictor", numericPredictor), ("CategoricalPredictor", categoricalPredictor),
      ("PredictorTerm", predictorTerm)]
  | numericPredictor => .record [
      ("name", .plain), ("exponent", .plain), ("coefficient", .plain)]
  | categoricalPredictor => .record [
      ("name", .plain), ("value", .literal), ("coefficient", .plain)]
  | predictorTerm => .record [
      ("name", .plain), ("coefficient", .plain), ("fieldRefs", .list (.element fieldRef))]
  | mining => .record [
      ("modelName", .plain), ("functionName", .word), ("miningSchema", .element schema),
      ("output", .element output), ("localTransformations", .list (.element derivedField)),
      ("targets", .list (.element target)), ("segmentation", .element segmentation)]
  | target => .record [
      ("field", .plain), ("rescaleConstant", .plain), ("rescaleFactor", .plain)]
  | segmentation => .record [
      ("multipleModelMethod", .word), ("segments", .list (.element segment))]
  | segment => .record [
      ("id", .literal), ("weight", .plain), ("predicates", .list (.element predicate)),
      ("model", .element model)]
  | schema => .record [("miningFields", .list (.element miningField))]
  | miningField => .record [
      ("name", .plain), ("usageType", .word), ("optype", .word),
      ("missingValueReplacement", .literal)]
  | output => .record [("outputFields", .list (.element outputField))]
  | outputField => .record [
      ("name", .plain), ("optype", .word), ("dataType", .word), ("feature", .word),
      ("value", .literal), ("targetField", .plain), ("segmentId", .plain)]
  | predicate => .choice ["True", "False"] [
      ("SimplePredicate", simplePredicate), ("SimpleSetPredicate", setPredicate),
      ("CompoundPredicate", compoundPredicate)]
  | simplePredicate => .record [("field", .plain), ("operator", .word), ("value", .literal)]
  | setPredicate => .record [
      ("field", .plain), ("booleanOperator", .word), ("array", .list .literal)]
  | compoundPredicate => .record [
      ("booleanOperator", .word), ("predicates", .list (.element predicate))]
  | derivedField => .record [
      ("name", .plain), ("optype", .word), ("dataType", .word),
      ("expression", .element expression)]
  | expression => .choice [] [
      ("FieldRef", fieldRef), ("Constant", constant), ("Apply", application)]
  | fieldRef => .record [("field", .plain), ("dataType", .word), ("mapMissingTo", .literal)]
  | constant => .record [("value", .plain), ("dataType", .word)]
  | application => .record [("function", .word), ("children", .list (.element expression))]

/-- No two fields of an element have the same name. -/
theorem nodup_fields {element : Element} {fields : List (String × Form)}
    (h : element.shape = .record fields) : (fields.map (·.1)).Nodup := by
  cases element <;> cases h <;> decide

end Element

/-- A value is written in another way at one place of it. -/
inductive Respelled : Form → Json → Json → Prop
  /-- A word becomes the name of a member that holds nothing. -/
  | word (word : String) : Respelled .word (.string word) (.object [(word, .null)])
  /-- A boolean becomes its text. -/
  | boolean (b : Bool) : Respelled .literal (.boolean b) (.string (Value.boolean b).display)
  /-- An integer becomes its text. -/
  | integer (n : Int) :
      Respelled .literal (.integer n) (.string (Value.number (.ofInt n)).display)
  /-- A number becomes its text. -/
  | real (x : Float) : Respelled .literal (.real x) (.string (Value.number x).display)
  /-- One of the values of a list is respelled. -/
  | item {form : Form} {v w : Json} {before after : List Json} : Respelled form v w →
      Respelled (.list form) (.array (before ++ v :: after)) (.array (before ++ w :: after))
  /-- The members of a record change their order. -/
  | permute {element : Element} {fields : List (String × Form)}
      {members members' : List (String × Json)} : element.shape = .record fields →
      members.Perm members' → Respelled (.element element) (.object members) (.object members')
  /-- A record gets a member that is none of its fields. -/
  | insert {element : Element} {fields : List (String × Form)} {name : String} {v : Json}
      {before after : List (String × Json)} : element.shape = .record fields →
      (∀ field ∈ fields, field.1 ≠ name) →
      Respelled (.element element) (.object (before ++ after))
        (.object (before ++ (name, v) :: after))
  /-- The value of a field is respelled. -/
  | field {element : Element} {fields : List (String × Form)} {name : String} {form : Form}
      {v w : Json} {before after : List (String × Json)} : element.shape = .record fields →
      (name, form) ∈ fields → Respelled form v w →
      Respelled (.element element) (.object (before ++ (name, v) :: after))
        (.object (before ++ (name, w) :: after))
  /-- The value of a field is respelled where the fields are listed in an array. -/
  | position {element : Element} {fields : List (String × Form)} {name : String} {form : Form}
      {v w : Json} {before after : List Json} : element.shape = .record fields →
      fields[before.length]? = some (name, form) → Respelled form v w →
      Respelled (.element element) (.array (before ++ v :: after)) (.array (before ++ w :: after))
  /-- A word of a choice becomes the name of a member that holds nothing. -/
  | chosen {element : Element} {words : List String} {contents : List (String × Element)}
      {word : String} : element.shape = .choice words contents → word ∈ words →
      Respelled (.element element) (.string word) (.object [(word, .null)])
  /-- The content of a choice is respelled. -/
  | content {element content : Element} {words : List String} {contents : List (String × Element)}
      {tag : String} {v w : Json} : element.shape = .choice words contents →
      (tag, content) ∈ contents → Respelled (.element content) v w →
      Respelled (.element element) (.object [(tag, v)]) (.object [(tag, w)])

end Scoring.Format
