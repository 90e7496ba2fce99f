import Scoring.Proofs.Agreement
import Scoring.Proofs.Plain

/-!
# The fields that a score depends on

A model looks at a row only through the names it mentions. Two rows that agree on
these have the same score, with the same failure if there is one
(`Model.score_eq_of_agreeOn`): nothing else in a row matters, whatever the model is
made of.

The reason is the same at every level. A descent reads only the fields of the guards
it may come to, a table those of its predictors, and a combination of members what
its members read, whichever of them it asks and with whatever outputs it extends
their rows (`Ensemble.readsOnly_combine`).
-/

namespace Scoring

/-! ### Trees -/

/-- A branch reads only some fields: its guard does, and so does a descent into it. -/
def Branch.ReadsOnly (fields : List String) (branch : Branch) : Prop :=
  Scoring.ReadsOnly fields (fun row => branch.predicate.eval row) ∧
    Scoring.ReadsOnly fields branch.descend

/-- A descent into the default child reads what the branches read. -/
theorem Branch.readsOnly_descendDefault {fields : List String} {node : Node}
    {branches : List Branch} (hb : ∀ branch ∈ branches, branch.ReadsOnly fields) :
    Scoring.ReadsOnly fields (descendDefault node branches) := by
  intro r s h
  rw [descendDefault, descendDefault]
  cases node.defaultChild with
  | none => rfl
  | some id =>
    simp only
    cases hfind : branches.find? (·.id = some id) with
    | none => rfl
    | some branch => exact (hb branch (List.mem_of_find?_eq_some hfind)).2 h

/-- A choice among branches reads what the branches read. -/
theorem Branch.readsOnly_choose {fields : List String} {policy : DescentPolicy} {node : Node}
    {branches rest : List Branch} (hb : ∀ branch ∈ branches, branch.ReadsOnly fields)
    (hrest : rest ⊆ branches) :
    Scoring.ReadsOnly fields (fun row => choose policy node branches row rest) := by
  intro r s h
  induction rest with
  | nil => rfl
  | cons branch rest ih =>
    obtain ⟨hguard, hbelow⟩ := hb branch (hrest List.mem_cons_self)
    have ih := ih fun b hb => hrest (List.mem_cons_of_mem _ hb)
    simp only [choose, hguard h, hbelow h, readsOnly_descendDefault hb h, ih]

/-- A descent reads only the fields that the nodes mention. -/
theorem Node.readsOnly_descend (policy : DescentPolicy) (node : Node) :
    ReadsOnly node.mentions (node.descend policy) := by
  induction node using Node.induction with
  | node node ih =>
    intro r s h
    -- A branch reads what its child mentions, which the node mentions too.
    have hb : ∀ b ∈ node.children.map (branch policy), b.ReadsOnly node.mentions := by
      intro b hb
      obtain ⟨child, hc, rfl⟩ := List.mem_map.1 hb
      have hsub : child.mentions ⊆ node.mentions := mentions_subset_of_mem hc
      have hguard := child.predicate.readsOnly_eval.mono child.predicate_mentions_subset
      exact ⟨hguard.mono hsub, (ih child hc).mono hsub⟩
    rw [descend_eq, descend_eq]
    split
    · rfl
    · exact Branch.readsOnly_choose hb (List.Subset.refl _) h

/-- A tree reads only the fields that its nodes mention. -/
theorem TreeModel.readsOnly_score (tree : TreeModel) :
    ReadsOnly tree.root.mentions tree.score := fun r s h => by
  have hguard : tree.root.predicate.eval r = tree.root.predicate.eval s :=
    tree.root.predicate.readsOnly_eval (h.mono tree.root.predicate_mentions_subset)
  simp only [score, terminal, hguard, tree.root.readsOnly_descend tree.policy h]

/-! ### Regression models -/

/-- A product reads only the fields of its factors. -/
theorem Predictor.readsOnly_product (factors : List FieldRef) (acc : Float) :
    ReadsOnly (factors.map (·.field)) (fun row => product row acc factors) := fun r s h => by
  induction factors generalizing acc with
  | nil => rfl
  | cons ref refs ih =>
    have hfactor : ref.factor r = ref.factor s := by
      rw [FieldRef.factor, FieldRef.factor, h ref.field List.mem_cons_self]
    have ih := fun acc => ih acc fun field hf => h field (List.mem_cons_of_mem _ hf)
    simp only [product, hfactor]
    simp only [ih]

/-- A predictor reads only the fields it mentions. -/
theorem Predictor.readsOnly_contribution (predictor : Predictor) :
    ReadsOnly predictor.mentions (fun row => predictor.contribution row) := fun r s h => by
  cases predictor with
  | numeric name exponent coefficient =>
    simp only [contribution, h name List.mem_cons_self]
  | categorical name value coefficient =>
    simp only [contribution, h name List.mem_cons_self]
  | term name coefficient factors =>
    simp only [contribution, readsOnly_product factors 1 h]

/-- A table reads only the fields that its predictors mention. -/
theorem RegressionTable.readsOnly_score (table : RegressionTable) :
    ReadsOnly table.mentions (fun row => table.score row) := fun r s h => by
  simp only [score]
  -- The sum of the predictors so far is the same for both rows, whatever it is.
  generalize table.intercept = total
  rw [mentions] at h
  generalize table.predictors = predictors at h
  induction predictors generalizing total with
  | nil => rfl
  | cons predictor predictors ih =>
    rw [List.flatMap_cons] at h
    have hfirst : predictor.contribution r = predictor.contribution s :=
      predictor.readsOnly_contribution (h.mono (List.subset_append_left _ _))
    have ih := fun total => ih total (h.mono (List.subset_append_right _ _))
    simp only [addContributions, hfirst, ih]

/-- A regression model reads only the fields that its tables mention. -/
theorem RegressionModel.readsOnly_score (model : RegressionModel) :
    ReadsOnly (model.tables.flatMap (·.mentions)) model.score := fun r s h => by
  have htable : ∀ table ∈ model.tables, table.score r = table.score s := fun table ht =>
    table.readsOnly_score (h.mono (subset_flatMap_of_mem ht))
  simp only [score]
  cases model.function with
  | regression =>
    simp only [scoreNumber]
    generalize model.tables = tables at htable
    -- Only a single table is scored; otherwise the model is refused.
    match tables with
    | [] | _ :: _ :: _ => rfl
    | [table] => simp only [htable table List.mem_cons_self]
  | classification =>
    have hscores : classScores r model.tables = classScores s model.tables := by
      revert htable
      induction model.tables with
      | nil => exact fun _ => rfl
      | cons table tables ih =>
        intro htable
        have ih := ih fun table ht => htable table (List.mem_cons_of_mem _ ht)
        simp only [classScores, htable table List.mem_cons_self, ih]
    simp only [scoreClass, hscores]

/-! ### Ensembles -/

namespace Ensemble

variable {fields : List String} {members : List Member}
  (hm : ∀ member ∈ members, ReadsOnly fields member.score)

include hm

/-- A search for the first prediction reads what the members read. -/
theorem readsOnly_selectFirst : ReadsOnly fields (fun row => selectFirst row members) := by
  intro r s h
  induction members with
  | nil => rfl
  | cons member members ih =>
    have ih := ih fun m hmem => hm m (List.mem_cons_of_mem _ hmem)
    simp only [selectFirst, hm member List.mem_cons_self h, ih]

/-- A vote reads what the members read. -/
theorem readsOnly_ballots : ReadsOnly fields (fun row => ballots row members) := by
  intro r s h
  induction members with
  | nil => rfl
  | cons member members ih =>
    have ih := ih fun m hmem => hm m (List.mem_cons_of_mem _ hmem)
    simp only [ballots, vote?, hm member List.mem_cons_self h, ih]

/-- The predicted numbers depend on what the members read. -/
theorem readsOnly_numbers : ReadsOnly fields (fun row => numbers row members) := by
  intro r s h
  induction members with
  | nil => rfl
  | cons member members ih =>
    have ih := ih fun m hmem => hm m (List.mem_cons_of_mem _ hmem)
    simp only [numbers, number?, hm member List.mem_cons_self h, ih]

/-- A chain reads what its members read, and for the rest what it has put into the row itself. -/
theorem readsOnly_gather (gathered : Outputs) : ReadsOnly fields (gather gathered members) := by
  intro r s h
  induction members generalizing gathered r s with
  | nil => rfl
  | cons member members ih =>
    have ih := @ih fun m hmem => hm m (List.mem_cons_of_mem _ hmem)
    rw [gather, gather, hm member List.mem_cons_self h]
    match member.score s with
    | .error e => rfl
    | .ok none => exact ih gathered h
    -- The rows of the members after this one get the same outputs.
    | .ok (some outputs) => exact ih (gathered.merge outputs) (h.merge outputs)

/-- A chain from the beginning reads what its members read. -/
theorem readsOnly_chain : ReadsOnly fields (chain members) := fun r s h => by
  rw [chain, chain, readsOnly_gather hm ∅ h]

/-- A combination reads what its members read, by every method. -/
theorem readsOnly_combine (method : MultipleModelMethod) (primary : String) (target : Target) :
    ReadsOnly fields (combine method primary target members) := by
  intro r s h
  have hselect := readsOnly_selectFirst hm h
  have hballots := readsOnly_ballots hm h
  have hnumbers := readsOnly_numbers hm h
  cases method with
  | selectFirst => exact hselect
  | majorityVote => simp only [combine, majorityVote, hballots]
  | average => simp only [combine, combineNumbers, hnumbers]
  | weightedAverage => simp only [combine, combineNumbers, hnumbers]
  | sum => simp only [combine, combineNumbers, hnumbers]
  | modelChain => exact readsOnly_chain hm h
  | weightedMajorityVote => rfl
  | median => rfl
  | max => rfl
  | selectAll => rfl

end Ensemble

/-! ### Models -/

/-- A segment reads what its guard and its model mention. -/
theorem Segment.readsOnly_score {segment : Segment}
    (hmodel : ReadsOnly segment.model.mentions segment.model.score) :
    ReadsOnly segment.mentions segment.score := fun r s h => by
  rw [mentions_eq] at h
  have hguard : Predicate.evalAll r segment.predicates = Predicate.evalAll s segment.predicates :=
    Predicate.readsOnly_evalAll (List.subset_append_left _ _) h
  rw [score_eq, score_eq, hguard, hmodel (h.mono (List.subset_append_right _ _))]

/-- An ensemble reads what its derived fields and segments mention. -/
theorem MiningModel.readsOnly_score {model : MiningModel}
    (hsegments : ∀ segment ∈ model.segments,
      ReadsOnly segment.model.mentions segment.model.score) :
    ReadsOnly model.mentions model.score := by
  have hm : ∀ member ∈ model.segments.map (·.member), ReadsOnly model.mentions member.score := by
    intro member hmem
    obtain ⟨segment, hs, rfl⟩ := List.mem_map.1 hmem
    exact (Segment.readsOnly_score (hsegments segment hs)).mono (segment_subset_of_mem hs)
  intro r s h
  -- Derived fields are put in first, and then the members are combined.
  rw [score_eq, score_eq]
  refine ReadsOnly.after_apply (fun r s h => ?_) (fun field hf => derived_subset_of_mem hf) h
  have hcombine : model.combine r = model.combine s := Ensemble.readsOnly_combine hm _ _ _ h
  rw [hcombine]

/-- A model reads only the fields that it mentions, itself or in what it is made of. -/
theorem Model.readsOnly_score (model : Model) : ReadsOnly model.mentions model.score := by
  induction model using Model.induction with
  -- Missing values are replaced first, in fields that the schema mentions.
  | tree model =>
    intro r s h
    have hrow := (h.replaceMissing (List.subset_append_left _ _)).mono
      (List.subset_append_right _ _)
    exact congrArg (Outcome.inModel model.name) (model.readsOnly_score hrow)
  | regression model =>
    intro r s h
    have hrow := (h.replaceMissing (List.subset_append_left _ _)).mono
      (List.subset_append_right _ _)
    exact congrArg (fun o => Outcome.inModel model.name (some <$> o)) (model.readsOnly_score hrow)
  | mining model ih =>
    intro r s h
    have hrow := h.replaceMissing model.replaced_subset
    exact congrArg (Outcome.inModel model.name) (MiningModel.readsOnly_score ih hrow)

/-- Rows that agree on the names a model mentions have the same score: the same
    outputs, none for both, or the same failure in the same contexts. -/
theorem Model.score_eq_of_agreeOn {model : Model} {r s : Row}
    (h : AgreeOn model.mentions r s) : model.score r = model.score s :=
  model.readsOnly_score h

/-- An entry that is absent is as good as none, and a name that is not mentioned is not
    looked at. -/
theorem Model.score_eq_of_absent_entry :
    let model : Model := .mining (.plain .modelChain
      [.guarded (.simple "size" .isMissing none) (.tree (.constant "y" "a")),
        .guarded (.simple "y" .isNotMissing none) (.tree (.constant "z" "b"))])
    let r : Row := .single "size" .absent
    let s : Row := .single "note" (.text "new")
    AgreeOn model.mentions r s ∧ model.score r = model.score s :=
  ⟨by decide, score_eq_of_agreeOn (by decide)⟩

end Scoring
