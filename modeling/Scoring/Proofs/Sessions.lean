import Mathlib.Data.Set.Basic
import Scoring.Proofs.Derivation
import Scoring.Proofs.Locality
import Scoring.Session

/-!
# What a session keeps

A session goes on in steps (`Session.Step`), each of which may change the row under some names,
or exchange a strategy or a method of the model. What one step keeps, any number of them keep
(`Session.Run`):

* what the row holds under the names that are not among those (`Session.Run.get?_of_not_mem`);
* what the model is called by, and the fields that it mentions (`Session.Run.alike`).

So the score stays the same as long as the model does and no field that it mentions is touched
(`Session.Run.score_eq`), and so does the answer of a guard (`Session.Run.guard_eq`). In
particular, outputs that the model does not read can be fed back any number of times
(`Session.feed_feed`).
-/

namespace Scoring

/-! ### Exchanged models -/

/-- Two models are called by the same names, and mention the same fields. -/
structure Model.Alike (model other : Model) : Prop where
  kind_eq : other.kind = model.kind
  name_eq : other.name = model.name
  schema_eq : other.schema = model.schema
  primary_eq : other.primary = model.primary
  mentions_eq : other.mentions = model.mentions

namespace Model

variable {model other third : Model}

/-- A model is like itself. -/
theorem Alike.refl (model : Model) : Alike model model := ⟨rfl, rfl, rfl, rfl, rfl⟩

/-- Names that stay the same twice stay the same. -/
theorem Alike.trans (h : Alike model other) (h' : Alike other third) : Alike model third where
  kind_eq := h'.kind_eq.trans h.kind_eq
  name_eq := h'.name_eq.trans h.name_eq
  schema_eq := h'.schema_eq.trans h.schema_eq
  primary_eq := h'.primary_eq.trans h.primary_eq
  mentions_eq := h'.mentions_eq.trans h.mentions_eq

/-- The policy of a tree does not go into its names, nor into the fields that it mentions. -/
theorem alike_of_withPolicy? {change : DescentPolicy → DescentPolicy}
    (h : model.withPolicy? change = some other) : Alike model other := by
  cases model with
  | tree model => exact Option.some.inj h ▸ ⟨rfl, rfl, rfl, rfl, rfl⟩
  | regression | mining => cases h

/-- The name of the prediction comes from the target or the first segment, and not from the
    method. -/
theorem alike_of_withMethod? {method : MultipleModelMethod}
    (h : model.withMethod? method = some other) : Alike model other := by
  cases model with
  | mining model =>
    obtain rfl := Option.some.inj h
    cases model
    exact ⟨rfl, rfl, rfl, rfl, rfl⟩
  | tree | regression => cases h

/-- Nor does the normalisation of a regression model. -/
theorem alike_of_withNormalization? {normalization : NormalizationMethod}
    (h : model.withNormalization? normalization = some other) : Alike model other := by
  cases model with
  | regression model => exact Option.some.inj h ▸ ⟨rfl, rfl, rfl, rfl, rfl⟩
  | tree | mining => cases h

end Model

namespace Session

variable {session next last : Session} {names more : Set String} {name : String}

/-! ### Steps -/

/-- A step of a session, with the names under which it may change the row. -/
inductive Step : Session → Set String → Session → Prop
  | set (session : Session) (fields : Row) : Step session {k | k ∈ fields} (session.set fields)
  | unset (session : Session) (field : String) : Step session {field} (session.unset field)
  /-- The fields are put into the row as far as they have values. -/
  | derive (session : Session) (fields : List DerivedField) :
      Step session {k | k ∈ fields.map (·.name)} (session.derive fields).1
  /-- The names of the outputs are known only when the model has scored the row. -/
  | feed (session : Session) :
      Step session {k | ∃ outputs, session.score = .ok (some outputs) ∧ k ∈ outputs} session.feed
  | exchangePolicy {session : Session} {change : DescentPolicy → DescentPolicy} {model : Model} :
      session.model.withPolicy? change = some model → Step session ∅ { session with model }
  | exchangeMethod {session : Session} {method : MultipleModelMethod} {model : Model} :
      session.model.withMethod? method = some model → Step session ∅ { session with model }
  | exchangeNormalization {session : Session} {method : NormalizationMethod} {model : Model} :
      session.model.withNormalization? method = some model → Step session ∅ { session with model }

/-- Fields that are put into the row leave alone what is under other names. -/
theorem get?_set_of_not_mem {fields : Row} (h : name ∉ fields) :
    (session.set fields).row.get? name = session.row.get? name := by
  rw [Session.set, Record.get?_merge, Record.get?_eq_none_iff.2 h, Option.none_or]

/-- What is under other names than those of a step stays as it is. -/
theorem Step.get?_of_not_mem (h : Step session names next) (hname : name ∉ names) :
    next.row.get? name = session.row.get? name := by
  cases h with
  | set fields => exact get?_set_of_not_mem hname
  | unset field =>
    have hne : field ≠ name := fun heq => hname heq.symm
    rw [Session.unset, Record.get?_erase, if_neg hne]
  | derive fields =>
    -- Wherever the fields stop, those before have changed nothing but what is under their names.
    obtain ⟨applied, rest, hfields, hrun⟩ := DerivedField.exists_run_extend session.row fields
    refine hrun.get?_of_not_mem fun hmem => hname ?_
    change name ∈ fields.map (·.name)
    rw [hfields, List.map_append]
    exact List.mem_append_left _ hmem
  | feed =>
    rw [Session.feed]
    split
    · -- The outputs are put in, none of which has the name.
      rename_i outputs hscore
      exact get?_set_of_not_mem fun hmem => hname ⟨outputs, hscore, hmem⟩
    · rfl
  | exchangePolicy | exchangeMethod | exchangeNormalization => rfl

/-- A step leaves the model alone, or exchanges a part that does not go into its names. -/
theorem Step.alike (h : Step session names next) : session.model.Alike next.model := by
  cases h with
  | set | unset | derive => exact .refl session.model
  | feed =>
    rw [Session.feed]
    split
    · exact .refl session.model
    · exact .refl session.model
  | exchangePolicy h => exact Model.alike_of_withPolicy? h
  | exchangeMethod h => exact Model.alike_of_withMethod? h
  | exchangeNormalization h => exact Model.alike_of_withNormalization? h

/-! ### Runs -/

/-- Some steps of a session, with the names under which they may change the row. -/
inductive Run : Session → Set String → Session → Prop
  | refl (session : Session) : Run session ∅ session
  | tail {session next last : Session} {names more : Set String} :
      Run session names next → Step next more last → Run session (names ∪ more) last

/-- A step is a run by itself. -/
theorem Step.run (h : Step session names next) : Run session names next := by
  have hrun := Run.tail (.refl session) h
  rwa [Set.empty_union] at hrun

/-- What no step touches stays as it is. -/
theorem Run.get?_of_not_mem (h : Run session names next) (hname : name ∉ names) :
    next.row.get? name = session.row.get? name := by
  induction h with
  | refl => rfl
  | tail _ hstep ih =>
    rw [Set.mem_union, not_or] at hname
    exact (hstep.get?_of_not_mem hname.2).trans (ih hname.1)

/-- Whatever steps a session takes, its model goes by the same names. -/
theorem Run.alike (h : Run session names next) : session.model.Alike next.model := by
  induction h with
  | refl => exact .refl session.model
  | tail _ hstep ih => exact ih.trans hstep.alike

/-- The rows before and after agree on fields that no step touches. -/
theorem Run.agreeOn (h : Run session names next) {fields : List String}
    (hfields : ∀ field ∈ fields, field ∉ names) : AgreeOn fields next.row session.row :=
  fun field hfield => by rw [Record.value, Record.value, h.get?_of_not_mem (hfields field hfield)]

/-- The score stays the same as long as the model does and no field that it mentions is
    touched. -/
theorem Run.score_eq (h : Run session names next) (hmodel : next.model = session.model)
    (hnames : ∀ field ∈ session.model.mentions, field ∉ names) : next.score = session.score := by
  rw [score, score, hmodel]
  exact session.model.readsOnly_score (h.agreeOn hnames)

/-- The answer of a guard stays the same as long as no field that it mentions is touched. -/
theorem Run.guard_eq (h : Run session names next) {predicate : Predicate}
    (hnames : ∀ field ∈ predicate.mentions, field ∉ names) :
    next.guard predicate = session.guard predicate :=
  predicate.readsOnly_eval (h.agreeOn hnames)

/-! ### Feeding back -/

/-- Outputs that the model does not read come out the same when they have been fed back, and
    so nothing changes when they are fed back again. -/
theorem feed_feed (hnames : ∀ outputs, session.score = .ok (some outputs) →
    ∀ field ∈ session.model.mentions, field ∉ outputs) : session.feed.feed = session.feed := by
  have hunread : ∀ field ∈ session.model.mentions,
      field ∉ {k | ∃ outputs, session.score = .ok (some outputs) ∧ k ∈ outputs} := by
    rintro field hfield ⟨outputs, hscore, hmem⟩
    exact hnames outputs hscore field hfield hmem
  have hmodel : session.feed.model = session.model := by
    rw [feed]
    split <;> rfl
  have hscore : session.feed.score = session.score :=
    (Step.feed session).run.score_eq hmodel hunread
  rw [feed, hscore]
  split
  · -- The same outputs as before, and they are in the row already.
    rename_i outputs houtputs
    rw [feed, houtputs]
    exact congrArg (Session.mk session.model)
      ((Record.merge_assoc _ _ _).trans (congrArg _ (Record.merge_self outputs)))
  · rfl

end Session

end Scoring
