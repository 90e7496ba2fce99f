import Scoring.Proofs.Causes
import Scoring.Proofs.Derivation
import Scoring.Proofs.Plain
import Scoring.Proofs.Turns

/-!
# The path to a failure

The contexts of a failure lead from the model that was scored to the place of the cause.
Each model on the way adds its name, if it has one. Below it there may be the cause
itself, or a derived field with the cause, or a segment with a cause of its own or with
the path that goes on in the model of the segment. Which of these it is depends on the
row, and on the turns of the ensemble up to the segment (`Model.Path`).

There are no other failures, and none of these is left out: a score fails if and only if
there is a path, with the contexts and the cause that the path gives
(`Model.score_eq_error_iff_path`). So no context is added twice, or missing, or in
another's place.
-/

namespace Scoring

/-! ### Contexts and causes -/

namespace Failure

/-- A failure with several contexts around it, the outermost first. -/
def inside (contexts : List Context) (failure : Failure) : Failure :=
  contexts.foldr within failure

/-- Contexts are put around a failure from the innermost on. -/
theorem inside_append (outer inner : List Context) (failure : Failure) :
    failure.inside (outer ++ inner) = (failure.inside inner).inside outer :=
  List.foldr_append

/-- The contexts put around a failure come before those it has. -/
@[simp] theorem contexts_inside (contexts : List Context) (failure : Failure) :
    (failure.inside contexts).contexts = contexts ++ failure.contexts := by
  induction contexts with
  | nil => rfl
  | cons context contexts ih => exact congrArg (context :: ·) ih

/-- The cause of a failure stays the same inside contexts. -/
@[simp] theorem cause_inside (contexts : List Context) (failure : Failure) :
    (failure.inside contexts).cause = failure.cause := by
  induction contexts with
  | nil => rfl
  | cons context contexts ih => exact ih

/-- A failure is its cause inside its contexts. -/
theorem inside_contexts (failure : Failure) :
    (ofCause failure.cause).inside failure.contexts = failure := by
  rw [← root_eq]
  exact foldr_within_root failure

end Failure

/-- The context of a name, if there is one. -/
def Context.named (name : Option String) : List Context := (name.map .model).toList

/-- What fails in a model fails inside the name of the model, or as it is if the model has none. -/
theorem Outcome.inModel_eq_error_iff {α : Type} {x : Outcome α} {name : Option String}
    {e : Failure} :
    x.inModel name = .error e ↔ ∃ e', x = .error e' ∧ e'.inside (Context.named name) = e := by
  cases name <;> cases x <;> simp [inModel, Failure.inside, Context.named]

/-! ### One level of a model -/

/-- Scoring a row, an ensemble gives a segment its turn, for the row as it has become by
    then. -/
def MiningModel.Asks (model : MiningModel) (row : Row) (segment : Segment) (seen : Row) : Prop :=
  model.method.isSupported ∧ ∃ start before after,
    DerivedField.apply model.derivedFields (model.schema.replaceMissing row) = .ok start ∧
    model.segments = before ++ segment :: after ∧
    Ensemble.Turns model.method (model.segments.map (·.member), start)
      ((segment :: after).map (·.member), seen)

/-- What an ensemble asks is one of its segments. -/
theorem MiningModel.Asks.mem {model : MiningModel} {row seen : Row} {segment : Segment}
    (h : model.Asks row segment seen) : segment ∈ model.segments := by
  obtain ⟨_, _, before, after, _, hsegments, _⟩ := h
  rw [hsegments]
  exact List.mem_append_right _ List.mem_cons_self

/-- Scoring a row, a model comes by way of contexts to a cause of failure. -/
inductive Model.Path : Model → Row → List Context → Cause → Prop
  | tree {model : TreeModel} {row : Row} {cause : Cause} :
      model.score (model.schema.replaceMissing row) = .fail cause →
      Path (.tree model) row (Context.named model.name) cause
  | regression {model : RegressionModel} {row : Row} {cause : Cause} :
      model.score (model.schema.replaceMissing row) = .fail cause →
      Path (.regression model) row (Context.named model.name) cause
  /-- Segments are combined by a method that is not supported. -/
  | method {model : MiningModel} {row start : Row} :
      DerivedField.apply model.derivedFields (model.schema.replaceMissing row) = .ok start →
      model.method.isSupported = false →
      Path (.mining model) row (Context.named model.name) (.unsupportedMethod model.method)
  /-- A derived field has no value for the row as far as it has come. -/
  | derivedField {model : MiningModel} {row seen : Row} {before after : List DerivedField}
      {field : DerivedField} {cause : Cause} :
      model.derivedFields = before ++ field :: after →
      DerivedField.apply before (model.schema.replaceMissing row) = .ok seen →
      (do (← field.expression.eval seen).coerceTo field.dataType) = .fail cause →
      Path (.mining model) row (Context.named model.name ++ [.derivedField field.name]) cause
  /-- The guard of a segment fails. -/
  | guard {model : MiningModel} {row seen : Row} {segment : Segment} {cause : Cause} :
      model.Asks row segment seen →
      Predicate.evalAll seen segment.predicates = .fail cause →
      Path (.mining model) row (Context.named model.name ++ [.segment segment.label]) cause
  /-- The prediction of a segment is no number, where numbers are added up. -/
  | prediction {model : MiningModel} {row seen : Row} {segment : Segment} {outputs : Outputs}
      {cause : Cause} :
      model.Asks row segment seen → model.method.isSum →
      segment.score seen = .ok (some outputs) → outputs.value segment.primary ≠ .absent →
      (outputs.value segment.primary).toNumber = .fail cause →
      Path (.mining model) row (Context.named model.name ++ [.segment segment.label]) cause
  /-- The guard of a segment holds, and its model fails. -/
  | segment {model : MiningModel} {row seen : Row} {segment : Segment}
      {contexts : List Context} {cause : Cause} :
      model.Asks row segment seen →
      Predicate.evalAll seen segment.predicates = .ok .yes →
      Path segment.model seen contexts cause →
      Path (.mining model) row
        (Context.named model.name ++ .segment segment.label :: contexts) cause

/-! ### What fails at one level -/

/-- A segment fails as its guard, or as its model if the guard holds, within the context of the
    segment. -/
theorem Segment.score_eq_error_iff {segment : Segment} {row : Row} {e : Failure} :
    segment.score row = .error e ↔ ∃ e', e'.within (.segment segment.label) = e ∧
      (Predicate.evalAll row segment.predicates = .error e' ∨
        Predicate.evalAll row segment.predicates = .ok .yes ∧
          segment.model.score row = .error e') := by
  rw [score_eq, Outcome.within_eq_error_iff]
  refine exists_congr fun e' => ?_
  rw [and_comm, Outcome.bind_eq_error_iff]
  refine and_congr_right fun _ => or_congr_right ⟨?_, fun ⟨hyes, h⟩ => ⟨.yes, hyes, h⟩⟩
  -- Where the guard does not hold or is unknown, the segment abstains.
  rintro ⟨_ | _ | _, hguard, h⟩
  · exact ⟨hguard, h⟩
  · cases h
  · cases h

namespace MiningModel

variable {model : MiningModel} {row start : Row} {e : Failure}

/-- By a supported method, segments fail to be combined in the turn of one of them. -/
theorem combine_eq_error_iff (hmethod : model.method.isSupported) :
    model.combine start = .error e ↔ ∃ before segment after seen,
      model.segments = before ++ segment :: after ∧
      Ensemble.Turns model.method (model.segments.map (·.member), start)
        ((segment :: after).map (·.member), seen) ∧
      Ensemble.turn model.method seen segment.member = .error e := by
  rw [combine, Ensemble.combine_eq_error_iff hmethod]
  constructor
  · rintro ⟨member, rest, seen, hturns, h⟩
    obtain ⟨before, segment, after, hsegments, rfl, rfl⟩ := Segment.exists_of_turns hturns
    exact ⟨before, segment, after, seen, hsegments, hturns, h⟩
  · rintro ⟨before, segment, after, seen, _, hturns, h⟩
    exact ⟨segment.member, after.map Segment.member, seen, hturns, h⟩

/-- An ensemble fails at a derived field, or because of its method, or in the turn of a
    segment. -/
theorem score_eq_error_iff : model.score (model.schema.replaceMissing row) = .error e ↔
    DerivedField.apply model.derivedFields (model.schema.replaceMissing row) = .error e ∨
    (∃ start, DerivedField.apply model.derivedFields (model.schema.replaceMissing row) = .ok start ∧
      model.method.isSupported = false ∧ .ofCause (.unsupportedMethod model.method) = e) ∨
    ∃ segment seen, model.Asks row segment seen ∧
      Ensemble.turn model.method seen segment.member = .error e := by
  -- The finishing of the outputs does not fail.
  have hreport : ∀ start, (do
      let results ← model.combine start
      .ok (results.map (Output.finish model.output model.primary))) = .error e ↔
        model.combine start = .error e := fun start => by
    rw [Outcome.bind_eq_error_iff]
    refine or_iff_left ?_
    rintro ⟨results, _, h⟩
    cases h
  rw [score_eq, Outcome.bind_eq_error_iff]
  simp only [hreport]
  refine or_congr_right ?_
  constructor
  · rintro ⟨start, hstart, h⟩
    cases hmethod : model.method.isSupported with
    | false =>
      rw [combine, Ensemble.combine_of_not_isSupported hmethod] at h
      exact .inl ⟨start, hstart, rfl, Except.error.inj h⟩
    | true =>
      obtain ⟨before, segment, after, seen, hsegments, hturns, h⟩ :=
        (combine_eq_error_iff hmethod).1 h
      exact .inr ⟨segment, seen, ⟨hmethod, start, before, after, hstart, hsegments, hturns⟩, h⟩
  · rintro (⟨start, hstart, hmethod, rfl⟩ | ⟨segment, seen, hasks, h⟩)
    · exact ⟨start, hstart, Ensemble.combine_of_not_isSupported hmethod⟩
    · obtain ⟨hmethod, start, before, after, hstart, hsegments, hturns⟩ := hasks
      exact ⟨start, hstart,
        (combine_eq_error_iff hmethod).2 ⟨before, segment, after, seen, hsegments, hturns, h⟩⟩

end MiningModel

/-! ### All levels -/

namespace Model

variable {model : Model} {row : Row} {contexts : List Context} {cause : Cause} {e : Failure}

/-- Contexts and cause of a failure are those of a path, which is as long as the model is
    deep where the failure comes from. -/
theorem path_of_score_eq_error (h : model.score row = .error e) :
    model.Path row e.contexts e.cause := by
  induction model using Model.induction generalizing row e with
  | tree model =>
    obtain ⟨e', hscore, rfl⟩ := Outcome.inModel_eq_error_iff.1 h
    obtain ⟨cause, rfl⟩ := (model.bare_score _ e' hscore).exists_ofCause
    simpa [Failure.contexts, Failure.cause] using Path.tree hscore
  | regression model =>
    obtain ⟨e', hscore, rfl⟩ := Outcome.inModel_eq_error_iff.1 h
    rw [Outcome.map_eq_error_iff] at hscore
    obtain ⟨cause, rfl⟩ := (model.bare_score _ e' hscore).exists_ofCause
    simpa [Failure.contexts, Failure.cause] using Path.regression hscore
  | mining model ih =>
    obtain ⟨e', hscore, rfl⟩ := Outcome.inModel_eq_error_iff.1 h
    rw [Failure.contexts_inside, Failure.cause_inside]
    rcases MiningModel.score_eq_error_iff.1 hscore with
      hderived | ⟨start, hstart, hmethod, rfl⟩ | ⟨segment, seen, hasks, hturn⟩
    · -- No segment has its turn, as a derived field fails before.
      obtain ⟨before, field, after, seen, hfields, hbefore, hfield⟩ :=
        DerivedField.apply_eq_error_iff.1 hderived
      obtain ⟨cause, hvalue, rfl⟩ := DerivedField.eval_eq_error_iff.1 hfield
      exact .derivedField hfields hbefore hvalue
    · -- The method is refused, in the ensemble itself.
      rw [Failure.contexts, List.append_nil]
      exact .method hstart hmethod
    · -- The segment fails, in its guard or in its model, or has no number.
      rcases Ensemble.turn_eq_error_iff.1 hturn with
        hsegment | ⟨hsum, outputs, hsegment, hne, hwithin⟩
      · obtain ⟨e, rfl, hguard | ⟨hguard, hbelow⟩⟩ := Segment.score_eq_error_iff.1 hsegment
        · obtain ⟨cause, rfl⟩ := (Predicate.bare_evalAll _ _ e hguard).exists_ofCause
          exact .guard hasks hguard
        · exact .segment hasks hguard (ih segment hasks.mem hbelow)
      · obtain ⟨e, hnumber, rfl⟩ := Outcome.within_eq_error_iff.1 hwithin
        obtain ⟨cause, rfl⟩ := (Value.bare_toNumber _ e hnumber).exists_ofCause
        exact .prediction hasks hsum hsegment hne hnumber

/-- An ensemble puts its name around what fails in it. -/
theorem score_mining_eq_error {model : MiningModel}
    (h : model.score (model.schema.replaceMissing row) =
      .error ((Failure.ofCause cause).inside contexts)) :
    (Model.mining model).score row =
      .error ((Failure.ofCause cause).inside (Context.named model.name ++ contexts)) := by
  rw [Failure.inside_append]
  exact Outcome.inModel_eq_error_iff.2 ⟨_, h, rfl⟩

/-- Where a path leads, the model does fail. -/
theorem Path.score_eq (h : model.Path row contexts cause) :
    model.score row = .error ((Failure.ofCause cause).inside contexts) := by
  induction h with
  | @tree model row cause h => exact Outcome.inModel_eq_error_iff.2 ⟨.ofCause cause, h, rfl⟩
  | @regression model row cause h =>
    exact Outcome.inModel_eq_error_iff.2 ⟨.ofCause cause, Outcome.map_eq_error_iff.2 h, rfl⟩
  | @method model row start hstart hmethod =>
    rw [← List.append_nil (Context.named model.name)]
    refine score_mining_eq_error (MiningModel.score_eq_error_iff.2 (.inr (.inl ?_)))
    exact ⟨start, hstart, hmethod, rfl⟩
  | @derivedField model row seen before after field cause hfields hbefore h =>
    refine score_mining_eq_error (MiningModel.score_eq_error_iff.2 (.inl ?_))
    refine DerivedField.apply_eq_error_iff.2 ⟨before, field, after, seen, hfields, hbefore, ?_⟩
    exact DerivedField.eval_eq_error_iff.2 ⟨cause, h, rfl⟩
  | @guard model row seen segment cause hasks h =>
    refine score_mining_eq_error (MiningModel.score_eq_error_iff.2 (.inr (.inr ?_)))
    refine ⟨segment, seen, hasks, Ensemble.turn_eq_error_iff.2 (.inl ?_)⟩
    exact Segment.score_eq_error_iff.2 ⟨.ofCause cause, rfl, .inl h⟩
  | @prediction model row seen segment outputs cause hasks hsum hscore hne h =>
    refine score_mining_eq_error (MiningModel.score_eq_error_iff.2 (.inr (.inr ?_)))
    refine ⟨segment, seen, hasks, Ensemble.turn_eq_error_iff.2 (.inr ?_)⟩
    refine ⟨hsum, outputs, hscore, hne, ?_⟩
    exact Outcome.within_eq_error_iff.2 ⟨.ofCause cause, h, rfl⟩
  | @segment model row seen segment contexts cause hasks hguard _ ih =>
    refine score_mining_eq_error (MiningModel.score_eq_error_iff.2 (.inr (.inr ?_)))
    refine ⟨segment, seen, hasks, Ensemble.turn_eq_error_iff.2 (.inl ?_)⟩
    -- The path in the segment's model gives the failure that the segment is put around.
    exact Segment.score_eq_error_iff.2 ⟨_, rfl, .inr ⟨hguard, ih⟩⟩

/-- The failures of a model for a row are those that a path leads to: the contexts are the
    names, segments and derived fields along the path, each once, and the rest is the root.
    It is never a context itself, and its kind is the kind of the failure. -/
theorem score_eq_error_iff_path (model : Model) (row : Row) (e : Failure) :
    (model.score row = .error e ↔ model.Path row e.contexts e.cause) ∧
      e.contexts.foldr Failure.within e.root = e ∧ e.root.Bare ∧ e.kind = e.root.kind := by
  refine ⟨⟨path_of_score_eq_error, fun h => ?_⟩, e.foldr_within_root, e.bare_root,
    e.kind_root.symm⟩
  rw [h.score_eq, e.inside_contexts]

example :
    let leaf : Node := { Node.leaf "" with id := some "end", score := none }
    let tree : TreeModel :=
      { TreeModel.constant "mood" "" with name := some "inner", root := leaf }
    let segment : Segment := { Segment.guarded .always (.tree tree) with id := some "first" }
    let model : MiningModel :=
      { MiningModel.plain .selectFirst [segment] with name := some "outer" }
    (Model.mining model).score ∅ = .error (.within (.model "outer") (.within (.segment "first")
      (.within (.model "inner") (.ofCause (.terminalWithoutScore "end"))))) :=
  rfl

end Model

end Scoring
