import Scoring.Proofs.Causes
import Scoring.Proofs.Chain
import Scoring.Proofs.Derivation

/-!
# Nested ensembles

An ensemble that does nothing but combine its segments (`MiningModel.OnlyCombines`) can be
a segment of another one with the same method. If the method hands on outputs, the segments
of the inner ensemble can as well stand in the outer one, in the place of the segment that
they made up (`MiningModel.combine_inline`).

The two ensembles have the same outputs. Their failures have different contexts, as those
of the inner ensemble are in one more segment, so what is compared is the outcome reduced
to the root of a failure (`Outcome.bare`).

Around a single segment without a guard, such an ensemble cannot be seen from outside but
for the context of the segment: it goes by the name of that segment's output, and scores
every row as the segment's model does (`MiningModel.OnlyCombines.score_of_single`).
-/

namespace Scoring

/-! ### Outcomes without contexts -/

namespace Outcome

variable {α β : Type} {x y : Outcome α} {f g : α → Outcome β}

/-- The outcome, with a failure reduced to its root. -/
def bare (x : Outcome α) : Outcome α :=
  match x with
  | .ok a => .ok a
  | .error e => .error e.root

/-- Roots pass through a sequence of evaluations. -/
theorem bare_bind : (x >>= f).bare = x.bare >>= fun a => (f a).bare := by
  rcases x with _ | _ <;> rfl

/-- A context does not change the root. -/
@[simp] theorem bare_within (c : Context) : (x.within c).bare = x.bare := by
  rcases x with _ | _ <;> rfl

/-- The name of a model does not change the root. -/
@[simp] theorem bare_inModel (name : Option String) : (x.inModel name).bare = x.bare := by
  rcases name with _ | name
  · rfl
  · exact bare_within (.model name)

/-- Evaluations in sequence have the same root if each has. -/
theorem bare_bind_congr (hxy : x.bare = y.bare) (hfg : ∀ a, (f a).bare = (g a).bare) :
    (x >>= f).bare = (y >>= g).bare := by
  rw [bare_bind, bare_bind, hxy, funext hfg]

end Outcome

/-! ### Members in the place of one -/

namespace Ensemble

variable {member : Member} {before inner after : List Member} {row : Row}

/-- The first prediction among members in two parts is looked for in the first part, and then in
    the second. -/
theorem selectFirst_append (xs ys : List Member) (row : Row) : selectFirst row (xs ++ ys) = (do
    match ← selectFirst row xs with
    | some outputs => .ok (some outputs)
    | none => selectFirst row ys) := by
  induction xs with
  | nil => rfl
  | cons member xs ih =>
    rw [List.cons_append, selectFirst, selectFirst, ih]
    rcases member.score row with _ | _ | _ <;> rfl

/-- A search comes to the same with members in the place of one that searches them itself. -/
theorem bare_selectFirst_inline (h : (member.score row).bare = (selectFirst row inner).bare) :
    (selectFirst row (before ++ member :: after)).bare =
      (selectFirst row (before ++ (inner ++ after))).bare := by
  rw [selectFirst_append, selectFirst_append before]
  refine Outcome.bare_bind_congr rfl fun selected => ?_
  -- Only if nothing before has predicted, the search comes to the member.
  rcases selected with _ | outputs
  · rw [selectFirst, selectFirst_append]
    exact Outcome.bare_bind_congr h fun _ => rfl
  · rfl

/-- A chain comes to the same with members in the place of one that chains them itself, whatever
    row it has by then. -/
theorem bare_chain_inline (h : ∀ seen, (member.score seen).bare = (chain inner seen).bare) :
    (chain (before ++ member :: after) row).bare =
      (chain (before ++ (inner ++ after)) row).bare := by
  rw [chain_append, chain_append before]
  refine Outcome.bare_bind_congr rfl fun earlier => Outcome.bare_bind_congr ?_ fun _ => rfl
  -- The inner chain and the member go on in the same way, with the same row.
  rw [chain_cons, chain_append]
  exact Outcome.bare_bind_congr (h _) fun _ => rfl

/-- Of a single member, all that it outputs is handed on. A chain would not hand on outputs
    without entries, so there must be none. -/
theorem combine_single {method : MultipleModelMethod} (hhands : method.HandsOn) (primary : String)
    (target : Target) (hmember : member.score row ≠ .ok (some ∅)) :
    combine method primary target [member] row = member.score row := by
  rcases hhands with rfl | rfl
  · rw [combine, selectFirst]
    rcases member.score row with _ | _ | _ <;> rfl
  · rw [combine, chain_cons]
    cases hscore : member.score row with
    | error e => rfl
    | ok outputs =>
      have hheld := Record.unlessEmpty_getD fun hempty => hmember (hempty ▸ hscore)
      -- The outputs are merged with none, and then tested for entries.
      exact congrArg Except.ok hheld

/-- A member whose outcomes are those of a combination can be replaced by what is combined
    there. -/
theorem bare_combine_inline {method : MultipleModelMethod} (hhands : method.HandsOn)
    {primary primary' : String} {target target' : Target}
    (h : ∀ seen, (member.score seen).bare = (combine method primary' target' inner seen).bare)
    (primary'' : String) :
    (combine method primary target (before ++ member :: after) row).bare =
      (combine method primary'' target (before ++ (inner ++ after)) row).bare := by
  rcases hhands with rfl | rfl
  · exact bare_selectFirst_inline (h row)
  · exact bare_chain_inline h

end Ensemble

/-! ### Segments in the place of one -/

/-- A segment without a guard leaves it all to its model. -/
theorem Segment.score_of_unguarded {segment : Segment} (hguard : segment.predicates = [])
    (row : Row) :
    segment.score row = Outcome.within (.segment segment.label) (segment.model.score row) := by
  rw [score_eq, hguard]
  rfl

/-- A schema without replacements leaves rows as they are. -/
theorem MiningSchema.replaceMissing_eq_self {schema : MiningSchema}
    (h : ∀ field ∈ schema.fields, field.missingValueReplacement = none) (row : Row) :
    schema.replaceMissing row = row := by
  obtain ⟨fields⟩ := schema
  rw [replaceMissing]
  induction fields with
  | nil => rfl
  | cons field fields ih =>
    obtain ⟨hfield, hfields⟩ := List.forall_mem_cons.1 h
    rw [List.foldl_cons, MiningField.replaceMissing, hfield]
    exact ih hfields

namespace MiningModel

/-- An ensemble does nothing but combine its segments: it replaces no missing values,
    derives no fields, and has no output fields. -/
structure OnlyCombines (model : MiningModel) : Prop where
  replaces : ∀ field ∈ model.schema.fields, field.missingValueReplacement = none
  derives : model.derivedFields = []
  reports : model.output = none

/-- What only combines its segments has the outcome of that, within its name. -/
theorem OnlyCombines.score_eq {model : MiningModel} (h : model.OnlyCombines) (row : Row) :
    (Model.mining model).score row = (model.combine row).inModel model.name := by
  change Outcome.inModel model.name (model.score (model.schema.replaceMissing row)) = _
  rw [MiningSchema.replaceMissing_eq_self h.replaces, MiningModel.score_eq, h.derives, h.reports,
    DerivedField.apply_nil, Outcome.ok_bind]
  rcases model.combine row with _ | _ | _ <;> rfl

/-- A segment without a guard has the outcomes of its ensemble. -/
theorem OnlyCombines.bare_score_segment {model : MiningModel} (h : model.OnlyCombines)
    {segment : Segment} (hguard : segment.predicates = []) (hmodel : segment.model = .mining model)
    (row : Row) : (segment.score row).bare = (model.combine row).bare := by
  rw [Segment.score_eq, hguard, hmodel, Outcome.bare_within]
  change ((Model.mining model).score row).bare = _
  rw [h.score_eq, Outcome.bare_inModel]

/-- An ensemble that hands on outputs, with an ensemble of the same method as one of its
    segments, without a guard, combines to the same as with the inner segments in the place
    of that segment: to the same outputs, or to none, or to a failure with the same root. -/
theorem combine_inline {model inner : MiningModel} {before after : List Segment}
    {segment : Segment} (hhands : model.method.HandsOn)
    (hsegments : model.segments = before ++ segment :: after)
    (hguard : segment.predicates = []) (hmodel : segment.model = .mining inner)
    (hmethod : inner.method = model.method) (hinner : inner.OnlyCombines) (row : Row) :
    (model.combine row).bare =
      ({ model with segments := before ++ inner.segments ++ after }.combine row).bare := by
  have hscore : ∀ seen, (segment.member.score seen).bare =
      (Ensemble.combine model.method inner.primary (inner.targets.head?.getD .plain)
        (inner.segments.map (·.member)) seen).bare := by
    rw [← hmethod]
    exact hinner.bare_score_segment hguard hmodel
  rw [combine, hsegments, combine, List.map_append, List.map_cons, List.append_assoc,
    List.map_append, List.map_append]
  exact Ensemble.bare_combine_inline hhands hscore _

/-- The ensemble in the middle of a chain reads what the first segment outputs, and the last
    segment reads what the ensemble does. All three have their entries in the end, with the
    ensemble in the chain and with its segment in its place. -/
theorem combine_inline_chain :
    let first : Segment := .guarded .always (.tree (.constant "mood" "warm"))
    let inner : MiningModel := .plain .modelChain
      [.guarded (.simple "mood" .equal (some "warm")) (.tree (.constant "place" "lake"))]
    let nested : Segment := ⟨none, 1, [], .mining inner⟩
    let last : Segment :=
      .guarded (.simple "place" .equal (some "lake")) (.tree (.constant "plan" "swim"))
    let model : MiningModel := .plain .modelChain [first, nested, last]
    let outputs : Outputs :=
      .ofList [("mood", .text "warm"), ("place", .text "lake"), ("plan", .text "swim")]
    model.method.HandsOn ∧ inner.OnlyCombines ∧ model.combine ∅ = .ok (some outputs) ∧
      ({ model with segments := [first] ++ inner.segments ++ [last] }.combine ∅).bare =
        .ok (some outputs) := by
  intro first inner nested last model outputs
  have hhands : model.method.HandsOn := .inr rfl
  have hinner : inner.OnlyCombines := ⟨nofun, rfl, rfl⟩
  have hsegments : model.segments = [first] ++ nested :: [last] := rfl
  have hmodel : model.combine ∅ = .ok (some outputs) := by decide +kernel
  refine ⟨hhands, hinner, hmodel, ?_⟩
  rw [← combine_inline hhands hsegments rfl rfl rfl hinner ∅, hmodel]
  rfl

/-! ### An ensemble around one model -/

/-- An ensemble without a name and a target that hands on the outputs of one segment, which
    has no guard, and does nothing else is transparent. It goes by the same primary name as
    the model of the segment, and has the same outputs, or none, or the same failure in the
    context of the segment. -/
theorem OnlyCombines.score_of_single {model : MiningModel} (h : model.OnlyCombines)
    (hname : model.name = none) (htarget : model.schema.target? = none)
    (hhands : model.method.HandsOn) {segment : Segment} (hsegments : model.segments = [segment])
    (hguard : segment.predicates = []) :
    model.primary = segment.model.primary ∧ ∀ row, (Model.mining model).score row =
      Outcome.within (.segment segment.label) (segment.model.score row) := by
  constructor
  · -- Without a target the primary name is that of the first model.
    rw [primary_eq, htarget, hsegments]
    cases segment
    rfl
  · intro row
    calc (Model.mining model).score row
        = model.combine row := by rw [h.score_eq, hname, Outcome.inModel]
      _ = segment.score row := by
          rw [combine, hsegments]
          exact Ensemble.combine_single hhands _ _ (segment.score_ne_empty row)
      _ = Outcome.within (.segment segment.label) (segment.model.score row) :=
          Segment.score_of_unguarded hguard row

/-- The failure of a tree in a chain of its own. -/
theorem OnlyCombines.score_of_single_failing :
    let leaf : Node := { Node.leaf "" with id := some "end", score := none }
    let tree : TreeModel :=
      { TreeModel.constant "mood" "" with name := some "inner", root := leaf }
    let segment : Segment := ⟨some "only", 1, [], .tree tree⟩
    let model : MiningModel := .plain .modelChain [segment]
    model.OnlyCombines ∧ model.name = none ∧ model.schema.target? = none ∧
      model.method.HandsOn ∧ model.primary = "mood" ∧
      (Model.mining model).score ∅ =
        .error (.within (.segment "only") (.within (.model "inner")
          (.ofCause (.terminalWithoutScore "end")))) := by
  intro leaf tree segment model
  have honly : model.OnlyCombines := ⟨nofun, rfl, rfl⟩
  have hhands : model.method.HandsOn := .inr rfl
  have hsegments : model.segments = [segment] := rfl
  obtain ⟨hprimary, hscore⟩ := honly.score_of_single rfl rfl hhands hsegments rfl
  exact ⟨honly, rfl, rfl, hhands, hprimary, hscore ∅⟩

end MiningModel

end Scoring
