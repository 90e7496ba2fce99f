import Mathlib.Data.List.Forall2
import Scoring.Proofs.Descent
import Scoring.Proofs.Misfits
import Scoring.Proofs.Plain
import Scoring.Proofs.Record

/-!
# Scoring with more data

A row extends another (`Record.Extends`) if it has all the values that the other has,
and perhaps some where the other is absent. What is decided of a row may depend on
what the row lacks: a predicate may ask for that, and a descent may go by a default
child. This module is about what does not depend on it.

* A *steady* predicate (`Predicate.Steady`) asks for values only, and joins the
  answers by `and` and `or`. Once it is decided it stays so in every extension of the
  row, unless it fails (`Predicate.eval_extends`): a literal may not fit a value that
  was absent before.
* A descent that gives up at the first unknown guard has found all guards on its way
  decided. If they are steady, it ends in the same node for every extension of the
  row, unless a guard fails (`TreeModel.terminal_extends`).
-/

namespace Scoring

open Relation

/-- A row extends another: it has the same value in every field that is not absent in
    the other. -/
def Record.Extends (s r : Row) : Prop :=
  ∀ field, r.value field ≠ .absent → s.value field = r.value field

/-- A value for an absent field extends a row. -/
theorem Record.extends_insert {r : Row} {k : String} (h : r.value k = .absent) (v : Value) :
    (r.insert k v).Extends r := by
  intro field hfield
  have hne : k ≠ field := fun hk => hfield (hk ▸ h)
  rw [Record.value_insert, if_neg hne]

/-! ### Answers -/

namespace Truth

/-- A definite answer stays the same in a second outcome, unless that is a failure. -/
def Upheld (before after : Outcome Truth) : Prop :=
  ∀ answer answer', before = .ok answer → answer ≠ .unknown → after = .ok answer' →
    answer' = answer

/-- Where `yes` is upheld, no other answer can come. -/
theorem Upheld.eq_yes {x y : Outcome Truth} (h : Upheld x y) (hx : x = .ok .yes) {answer : Truth}
    (hy : y = .ok answer) : answer = .yes :=
  h .yes answer hx (by decide) hy

/-- Where `no` is upheld, no other answer can come. -/
theorem Upheld.eq_no {x y : Outcome Truth} (h : Upheld x y) (hx : x = .ok .no) {answer : Truth}
    (hy : y = .ok answer) : answer = .no :=
  h .no answer hx (by decide) hy

/-- An outcome upholds itself. -/
theorem Upheld.refl (x : Outcome Truth) : Upheld x x := fun _ _ hx _ hx' =>
  Except.ok.inj (hx'.symm.trans hx)

/-- An unknown answer may become anything. -/
theorem upheld_unknown (x : Outcome Truth) : Upheld (.ok .unknown) x := fun _ _ hx hne _ =>
  absurd (Except.ok.inj hx).symm hne

/-- The negation of an answer is upheld if the answer is. -/
theorem Upheld.negate {x y : Outcome Truth} (h : Upheld x y) :
    Upheld (Truth.negate <$> x) (Truth.negate <$> y) := by
  intro t u hx hne hy
  obtain ⟨t', hx', rfl⟩ := Outcome.map_eq_ok_iff.1 hx
  obtain ⟨u', hy', rfl⟩ := Outcome.map_eq_ok_iff.1 hy
  rw [h t' u' hx' (fun ht => hne (by rw [ht]; rfl)) hy']

/-- After an unknown part, the answer of a conjunction is definite only if it is `no`,
    and the rest of the parts make it so. -/
theorem all_unknown_cons {xs : List (Outcome Truth)} {t : Truth}
    (h : all (.ok .unknown :: xs) = .ok t) (hne : t ≠ .unknown) :
    t = .no ∧ all xs = .ok .no := by
  rw [all, Outcome.ok_bind] at h
  obtain ⟨u, hu, h⟩ := Outcome.bind_eq_ok_iff.1 h
  cases u with
  | no => exact ⟨(Except.ok.inj h).symm, hu⟩
  | yes => exact absurd (Except.ok.inj h).symm hne
  | unknown => exact absurd (Except.ok.inj h).symm hne

/-- A conjunction upholds its answer if its parts do. -/
theorem Upheld.all {xs ys : List (Outcome Truth)} (h : List.Forall₂ Upheld xs ys) :
    Upheld (Truth.all xs) (Truth.all ys) := by
  induction h with
  | nil => exact .refl _
  | @cons x y xs ys hxy _ ih =>
    intro t u hx hne hy
    match x, y with
    | .error _, _ => cases hx
    | _, .error _ => cases hy
    | .ok .yes, .ok a =>
      obtain rfl := hxy.eq_yes rfl rfl
      exact ih _ _ hx hne hy
    | .ok .no, .ok a =>
      obtain rfl := hxy.eq_no rfl rfl
      exact Except.ok.inj (hy.symm.trans hx)
    | .ok .unknown, .ok a =>
      -- The answer is `no`, by a later part, whatever this part comes to.
      obtain ⟨rfl, hno⟩ := all_unknown_cons hx hne
      cases a with
      | no => exact (Except.ok.inj hy).symm
      | yes => exact ih _ _ hno hne hy
      | unknown =>
        rw [Truth.all, Outcome.ok_bind] at hy
        obtain ⟨v, hv, hy⟩ := Outcome.bind_eq_ok_iff.1 hy
        obtain rfl := ih _ _ hno hne hv
        exact (Except.ok.inj hy).symm

/-- A disjunction is the conjunction of the parts the other way round, the other way
    round. -/
theorem any_eq_negate_all (xs : List (Outcome Truth)) :
    any xs = negate <$> all (xs.map (negate <$> ·)) := by
  induction xs with
  | nil => rfl
  | cons x xs ih =>
    rw [any, List.map_cons, all, ih]
    rcases x with _ | _ | _ | _
    · rfl
    · rfl
    · rfl
    · cases all (xs.map (negate <$> ·)) with
      -- An unknown part: the answer of the others decides.
      | error _ => rfl
      | ok t => cases t <;> rfl

/-- A disjunction upholds its answer if its parts do. -/
theorem Upheld.any {xs ys : List (Outcome Truth)} (h : List.Forall₂ Upheld xs ys) :
    Upheld (Truth.any xs) (Truth.any ys) := by
  rw [any_eq_negate_all, any_eq_negate_all]
  refine (Upheld.all ?_).negate
  exact List.forall₂_map_left_iff.2 (List.forall₂_map_right_iff.2 (h.imp fun _ _ => Upheld.negate))

end Truth

/-! ### Predicates -/

namespace Predicate

/-- A predicate asks for values only, and not for what is missing. -/
inductive Steady : Predicate → Prop
  | always : Steady .always
  | never : Steady .never
  | simple {field : String} {operator : Operator} {literal : Option String} :
      operator ≠ .isMissing → operator ≠ .isNotMissing → Steady (.simple field operator literal)
  | set {field : String} {operator : SetOperator} {literals : List String} :
      Steady (.set field operator literals)
  | compound {operator : BooleanOperator} {parts : List Predicate} :
      operator = .and ∨ operator = .or → (∀ part ∈ parts, Steady part) →
      Steady (.compound operator parts)

/-- What a steady predicate decides it decides for every extension of the row. -/
theorem Steady.upheld {predicate : Predicate} (hp : predicate.Steady) {r s : Row}
    (h : s.Extends r) : Truth.Upheld (predicate.eval r) (predicate.eval s) := by
  induction hp with
  | always => exact .refl _
  | never => exact .refl _
  -- For an absent value the answer is unknown, and any other value is the same in both rows.
  | @simple field operator literal hm hn =>
    rw [eval, eval]
    by_cases habsent : r.value field = .absent
    · rw [habsent, evalSimple_absent (Operator.compares_of_ne hm hn)]
      exact Truth.upheld_unknown _
    · rw [h field habsent]
      exact .refl _
  | @set field operator literals =>
    rw [eval, eval]
    by_cases habsent : r.value field = .absent
    · rw [habsent]
      exact Truth.upheld_unknown _
    · rw [h field habsent]
      exact .refl _
  | @compound operator parts hop _ ih =>
    rw [eval, eval, evalEach_eq_map, evalEach_eq_map]
    have hparts : List.Forall₂ Truth.Upheld (parts.map (eval r)) (parts.map (eval s)) := by
      rw [List.forall₂_map_left_iff, List.forall₂_map_right_iff, List.forall₂_same]
      exact ih
    rcases hop with rfl | rfl
    · exact .all hparts
    · exact .any hparts

/-- More data decides no guard otherwise: an answer that a steady predicate gives for a row
    is its answer for every extension of the row, unless it fails there. It does not become
    unknown again. -/
theorem eval_extends {predicate : Predicate} {r s : Row} {answer : Truth}
    (hp : predicate.Steady) (h : s.Extends r) (hr : predicate.eval r = .ok answer)
    (hdecided : answer ≠ .unknown) :
    predicate.eval s = .ok answer ∨ ∃ e, predicate.eval s = .error e := by
  cases heval : predicate.eval s with
  | error e => exact .inr ⟨e, rfl⟩
  | ok answer' =>
    obtain rfl := hp.upheld h answer answer' hr hdecided heval
    exact .inl rfl

/-- The shape decides the conjunction as long as the size is unknown. With the size the
    disjunction decides it before the shape is looked at, in the same way. -/
theorem eval_extends_insert_size :
    let guard : Predicate := .compound .and
      [.compound .or [.simple "size" .equal (some "small"), .simple "color" .equal (some "red")],
        .set "shape" .isIn ["cube", "cone"]]
    let r : Row := (Record.single "color" (.text "blue")).insert "shape" (.text "ball")
    let s : Row := r.insert "size" (.text "large")
    guard.eval r = .ok .no ∧ (guard.eval s = .ok .no ∨ ∃ e, guard.eval s = .error e) := by
  intro guard r s
  have heval : guard.eval r = .ok .no := rfl
  have hlook : (Predicate.compound .or
      [.simple "size" .equal (some "small"), .simple "color" .equal (some "red")]).Steady :=
    .compound (.inr rfl) (List.forall_mem_cons.2
      ⟨.simple nofun nofun, List.forall_mem_singleton.2 (.simple nofun nofun)⟩)
  have hguard : guard.Steady :=
    .compound (.inl rfl) (List.forall_mem_cons.2 ⟨hlook, List.forall_mem_singleton.2 .set⟩)
  exact ⟨heval, eval_extends hguard (Record.extends_insert rfl _) heval nofun⟩

end Predicate

/-! ### Trees -/

namespace Node

/-- The guards of a node and of all nodes below it are steady. -/
inductive Steady : Node → Prop
  | intro {node : Node} : node.predicate.Steady → (∀ child ∈ node.children, Steady child) →
      Steady node

/-- The guard of a steady node is steady. -/
theorem Steady.predicate {node : Node} : node.Steady → node.predicate.Steady
  | .intro h _ => h

/-- The children of a steady node are steady. -/
theorem Steady.child {node : Node} : node.Steady → ∀ child ∈ node.children, child.Steady
  | .intro _ h => h

variable {policy : DescentPolicy} {r s : Row}

/-- Children that are passed over are so for every extension of the row, unless one of
    them fails. -/
theorem Steady.passedOver_or_fails {node : Node} (hsteady : node.Steady) (h : s.Extends r)
    (hpolicy : policy.missingValue = .nullPrediction) {before rest : List Node}
    (hsplit : node.children = before ++ rest) (hbefore : ∀ c ∈ before, c.PassedOver policy r) :
    (∀ c ∈ before, c.PassedOver policy s) ∨ ∃ e, Fails policy s node e := by
  rcases all_passedOver_or_first policy s before with
    hall | ⟨earlier, child, later, rfl, hearlier, hchild⟩
  · exact .inl hall
  have hmem : child ∈ earlier ++ child :: later := List.mem_append_right _ List.mem_cons_self
  -- The guard did not hold before, so that it fails now if it is not passed over.
  have hno := (hbefore child hmem).eval_eq hpolicy
  have hupheld := (hsteady.child child (hsplit ▸ List.mem_append_left _ hmem)).predicate.upheld h
  cases heval : child.predicate.eval s with
  | error e =>
    refine .inr ⟨e, .guard ⟨earlier, later ++ rest, ?_, hearlier⟩ heval⟩
    rw [hsplit, List.append_assoc, List.cons_append]
  | ok answer =>
    obtain rfl := hupheld.eq_no hno heval
    exact absurd (.inl heval) hchild

/-- A step for a row is a step for every extension of the row, unless the node fails. -/
theorem Step.of_extends {node next : Node} (hstep : Step policy r node next)
    (hsteady : node.Steady) (h : s.Extends r) (hpolicy : policy.missingValue = .nullPrediction) :
    Step policy s node next ∨ ∃ e, Fails policy s node e := by
  cases hstep with
  -- No descent by this policy goes to a default child.
  | default _ hdefault _ _ =>
    rw [hpolicy] at hdefault
    cases hdefault
  | taken hasks hyes =>
    have hupheld := (hsteady.child next hasks.mem_children).predicate.upheld h
    obtain ⟨before, after, hsplit, hbefore⟩ := hasks
    rcases hsteady.passedOver_or_fails h hpolicy hsplit hbefore with hbefore | hfails
    · have hasks : node.Asks policy s next := ⟨before, after, hsplit, hbefore⟩
      cases heval : next.predicate.eval s with
      | error e => exact .inr ⟨e, .guard hasks heval⟩
      | ok answer =>
        obtain rfl := hupheld.eq_yes hyes heval
        exact .inl (.taken hasks heval)
    · exact .inr hfails

/-- A node accepts for every extension of the row, unless it fails. -/
theorem Accepts.of_extends {node : Node} (haccepts : Accepts policy r node)
    (hsteady : node.Steady) (h : s.Extends r) (hpolicy : policy.missingValue = .nullPrediction) :
    Accepts policy s node ∨ ∃ e, Fails policy s node e := by
  cases haccepts with
  | leaf hnil => exact .inl (.leaf hnil)
  | unknown _ hlast =>
    rw [hpolicy] at hlast
    cases hlast
  | exhausted hall hlast =>
    obtain ⟨hne, hall⟩ := hall
    rcases hsteady.passedOver_or_fails h hpolicy (List.append_nil _).symm hall with hall | hfails
    · exact .inl (.exhausted ⟨hne, hall⟩ hlast)
    · exact .inr hfails

/-- A descent through steady guards that gives up at the first unknown one ends in the
    same node for every extension of the row, unless a guard fails. -/
theorem Steady.descend_extends {node n : Node} (hsteady : node.Steady) (h : s.Extends r)
    (hpolicy : policy.missingValue = .nullPrediction)
    (hdescend : node.descend policy r = .ok (some n)) :
    node.descend policy s = .ok (some n) ∨ ∃ e, node.descend policy s = .error e := by
  obtain ⟨hpath, haccepts⟩ := descend_eq_some_iff.1 hdescend
  clear hdescend
  -- Both descents go the same way, as long as the second does not fail.
  induction hpath using ReflTransGen.head_induction_on with
  | refl =>
    rcases haccepts.of_extends hsteady h hpolicy with haccepts | ⟨e, hfails⟩
    · exact .inl haccepts.descend_eq
    · exact .inr ⟨e, hfails.descend_eq⟩
  | head hstep _ ih =>
    rcases hstep.of_extends hsteady h hpolicy with hstep' | ⟨e, hfails⟩
    · rw [hstep'.descend_eq]
      exact ih (hsteady.child _ hstep.mem_children)
    · exact .inr ⟨e, hfails.descend_eq⟩

end Node

/-- A prediction that is made without a guess stays: with steady guards, of which the
    first unknown one ends the descent, a terminal node is the terminal node of every
    extension of the row, unless a guard fails there. -/
theorem TreeModel.terminal_extends {tree : TreeModel} {r s : Row} {n : Node}
    (hpolicy : tree.policy.missingValue = .nullPrediction) (hsteady : tree.root.Steady)
    (h : s.Extends r) (hterminal : tree.terminal r = .ok (some n)) :
    tree.terminal s = .ok (some n) ∨ ∃ e, tree.terminal s = .error e := by
  rw [terminal] at hterminal
  obtain ⟨answer, hroot, hdescend⟩ := Outcome.bind_eq_ok_iff.1 hterminal
  cases answer with
  | no => cases hdescend
  | unknown => cases hdescend
  | yes =>
    rw [terminal]
    cases heval : tree.root.predicate.eval s with
    | error e => exact .inr ⟨e, rfl⟩
    | ok answer =>
      obtain rfl := (hsteady.predicate.upheld h).eq_yes hroot heval
      exact hsteady.descend_extends h hpolicy hdescend

/-- The first child is passed over although the size is not known yet. -/
theorem TreeModel.terminal_extends_insert_size :
    let small : Predicate := .compound .and
      [.simple "size" .equal (some "small"), .simple "color" .equal (some "blue")]
    let red : Node := { Node.leaf "warm" with predicate := .set "color" .isIn ["red", "orange"] }
    let root : Node := { Node.leaf "mild" with
      children := [{ Node.leaf "cold" with predicate := small }, red] }
    let tree : TreeModel := { constant "mood" "mild" with
      policy := ⟨.nullPrediction, .returnLastPrediction⟩
      root := root }
    let r : Row := .single "color" (.text "red")
    let s : Row := r.insert "size" (.text "small")
    tree.terminal r = .ok (some red) ∧
      (tree.terminal s = .ok (some red) ∨ ∃ e, tree.terminal s = .error e) := by
  intro small red root tree r s
  have hterminal : tree.terminal r = .ok (some red) := rfl
  have hsmall : small.Steady := .compound (.inl rfl)
    (List.forall_mem_cons.2
      ⟨.simple nofun nofun, List.forall_mem_singleton.2 (.simple nofun nofun)⟩)
  have hroot : root.Steady := .intro .always
    (List.forall_mem_cons.2 ⟨.intro hsmall nofun, List.forall_mem_singleton.2 (.intro .set nofun)⟩)
  exact ⟨hterminal, terminal_extends rfl hroot (Record.extends_insert rfl _) hterminal⟩

end Scoring
