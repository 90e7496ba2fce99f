import Scoring.Proofs.Plain
import Scoring.Proofs.Turns
import Scoring.Proofs.Whole

/-!
# Votes

A majority vote counts the votes of its members in one pass and looks for the winner in
another. The first pass comes to the categories in the order of their first votes, each with
its number of votes (`Ensemble.tally_eq_counts`); this is exact as long as the votes are
fewer than `2 ^ 53`. The second finds the first category with the greatest number
(`Ensemble.winner_eq_argmax`).

What is put out are the numbers of votes and, under the primary name, the winner
(`Ensemble.majorityVote_counts`). The winner is lost if some vote is for a category that has
the primary name, as the number of votes for this is then put in its place
(`Ensemble.get?_primary_majorityVote`).
-/

namespace Scoring

namespace Ensemble

open Double

/-- The vote that outputs cast: the text of the prediction under the primary name, unless
    it is missing. -/
def ballot? (primary : String) (outputs : Outputs) : Option String :=
  if (outputs.value primary).isMissing then none else some (outputs.value primary).display

/-- The votes for a row, in the order of the members. -/
def votes (row : Row) (members : List Member) : List String :=
  members.filterMap fun member =>
    match member.score row with
    | .ok (some outputs) => ballot? member.primary outputs
    | _ => none

variable {members : List Member} {row : Row} {primary category : String} {cast : List String}
  {e : Failure}

/-! ### Casting votes -/

theorem length_votes_le : (votes row members).length ≤ members.length :=
  List.length_filterMap_le _ _

theorem votes_singleton_of_score {member : Member} {outputs : Outputs}
    (h : member.score row = .ok (some outputs)) :
    votes row [member] = (ballot? member.primary outputs).toList := by
  simp only [votes, List.filterMap_cons, h, List.filterMap_nil]
  cases ballot? member.primary outputs <;> rfl

/-- Asking a member that does not fail adds its vote to the ballots, if it casts one. -/
theorem ballots_cons_of_score {member : Member} {outputs : Option Outputs}
    (h : member.score row = .ok outputs) : ballots row (member :: members) =
      (votes row [member] ++ ·) <$> ballots row members := by
  cases outputs with
  | none =>
    have hvotes : votes row [member] = [] := by simp [votes, h]
    rw [ballots, vote?, h, hvotes]
    exact (id_map _).symm
  | some outputs =>
    have hvote : vote? row member = .ok (ballot? member.primary outputs) := by
      rw [vote?, h]
      rfl
    rw [ballots, hvote, votes_singleton_of_score h]
    cases ballot? member.primary outputs with
    | none => exact (id_map _).symm
    | some category => rfl

theorem votes_cons (member : Member) (members : List Member) :
    votes row (member :: members) = votes row [member] ++ votes row members := by
  rw [votes, ← List.singleton_append, List.filterMap_append]
  rfl

theorem ballots_cons_of_error {member : Member} (h : member.score row = .error e) :
    ballots row (member :: members) = .error e := by
  rw [ballots, vote?, h]
  rfl

/-- The ballots are the votes of all members, unless some member fails. -/
theorem ballots_eq_ok_iff : ballots row members = .ok cast ↔
    (∀ member ∈ members, ∃ outputs, member.score row = .ok outputs) ∧
      cast = votes row members := by
  induction members generalizing cast with
  | nil => simp [ballots, votes, eq_comm]
  | cons member members ih =>
    rw [List.forall_mem_cons]
    -- By the order of asking, the first member settles the matter if it fails, and else the
    -- members behind it do.
    cases hscore : member.score row with
    | error failure => simp [ballots_cons_of_error hscore]
    | ok outputs =>
      rw [ballots_cons_of_score hscore, Outcome.map_eq_ok_iff, votes_cons member members]
      constructor
      · rintro ⟨later, hlater, rfl⟩
        obtain ⟨hmembers, rfl⟩ := ih.1 hlater
        exact ⟨⟨⟨outputs, rfl⟩, hmembers⟩, rfl⟩
      · rintro ⟨⟨_, hmembers⟩, rfl⟩
        exact ⟨_, ih.2 ⟨hmembers, rfl⟩, rfl⟩

/-- The ballots fail as the first member does that fails. -/
theorem ballots_eq_error_iff : ballots row members = .error e ↔
    ∃ before member after, members = before ++ member :: after ∧
      (∀ earlier ∈ before, ∃ outputs, earlier.score row = .ok outputs) ∧
      member.score row = .error e := by
  induction members with
  | nil => simp [ballots]
  | cons first members ih =>
    cases hscore : first.score row with
    | error failure =>
      rw [ballots_cons_of_error hscore]
      constructor
      · intro h
        obtain rfl := Except.error.inj h
        exact ⟨[], first, members, rfl, List.forall_mem_nil _, hscore⟩
      · rintro ⟨_ | ⟨earlier, before⟩, member, after, hmembers, hbefore, h⟩
        · -- The first member does not fail, so it is not the one.
          obtain ⟨rfl, rfl⟩ := List.cons.inj hmembers
          exact congrArg _ (Except.error.inj (hscore.symm.trans h))
        · -- A member before the failing one does not fail.
          obtain ⟨rfl, _⟩ := List.cons.inj hmembers
          obtain ⟨_, hearlier⟩ := hbefore first List.mem_cons_self
          cases hscore.symm.trans hearlier
    | ok outputs =>
      rw [ballots_cons_of_score hscore, Outcome.map_eq_error_iff, ih]
      constructor
      · rintro ⟨before, member, after, rfl, hbefore, h⟩
        exact ⟨first :: before, member, after, rfl,
          List.forall_mem_cons.2 ⟨⟨outputs, hscore⟩, hbefore⟩, h⟩
      · rintro ⟨_ | ⟨earlier, before⟩, member, after, hmembers, hbefore, h⟩
        · obtain ⟨rfl, rfl⟩ := List.cons.inj hmembers
          cases hscore.symm.trans h
        · obtain ⟨rfl, rfl⟩ := List.cons.inj hmembers
          exact ⟨before, member, after, rfl, (List.forall_mem_cons.1 hbefore).2, h⟩

/-! ### Counting -/

theorem count_bounds (hlt : cast.length < 2 ^ 53) (h : category ∈ cast) :
    0 < cast.count category ∧ cast.count category < 2 ^ 53 :=
  ⟨List.count_pos_iff.2 h, Nat.lt_of_le_of_lt List.count_le_length hlt⟩

theorem eraseDups_concat (cast : List String) (category : String) :
    (cast ++ [category]).eraseDups =
      if category ∈ cast then cast.eraseDups else cast.eraseDups ++ [category] := by
  rw [List.eraseDups_append]
  by_cases h : category ∈ cast
  · simp [List.removeAll, h]
  · -- No vote before is for the category, so nothing removes it.
    rw [if_neg h, List.removeAll, List.filter_cons_of_pos (by simpa using h)]
    rfl

theorem nodup_eraseDups (cast : List String) : cast.eraseDups.Nodup := by
  induction cast using List.reverseRecOn with
  | nil => exact List.nodup_nil
  | append_singleton cast category ih =>
    rw [eraseDups_concat]
    split
    · exact ih
    · rename_i hnew
      rw [List.nodup_append_comm]
      exact List.nodup_cons.2 ⟨fun h => hnew (List.mem_eraseDups.1 h), ih⟩

section

variable {categories : List String} {number : String → Float}

/-- A vote for a category that has votes is added to these, wherever it stands. -/
theorem addVote_map_of_mem (hnodup : categories.Nodup) (h : category ∈ categories) :
    addVote category (categories.map fun c => (c, number c)) =
      categories.map fun c => (c, if c = category then number c + 1 else number c) := by
  induction categories with
  | nil => cases h
  | cons first categories ih =>
    obtain ⟨hfirst, hnodup⟩ := List.nodup_cons.1 hnodup
    rw [List.map_cons, List.map_cons, addVote]
    by_cases heq : first = category
    · -- The category is counted here, and does not come again.
      rw [if_pos heq, if_pos heq]
      refine congrArg _ (List.map_congr_left fun c hc => ?_)
      rw [if_neg fun hcategory : c = category => hfirst (heq ▸ hcategory ▸ hc)]
    · rw [if_neg heq, if_neg heq, ih hnodup ((List.mem_cons.1 h).resolve_left (Ne.symm heq))]

/-- A vote for a new category comes behind all others. -/
theorem addVote_map_of_not_mem (h : category ∉ categories) :
    addVote category (categories.map fun c => (c, number c)) =
      categories.map (fun c => (c, number c)) ++ [(category, 1)] := by
  induction categories with
  | nil => rfl
  | cons first categories ih =>
    obtain ⟨hne, h⟩ := List.ne_and_not_mem_of_not_mem_cons h
    rw [List.map_cons, addVote, if_neg (Ne.symm hne), ih h, List.cons_append]

end

/-- The number of votes for each category, in the order of their first votes. -/
def counts (cast : List String) : List (String × Float) :=
  cast.eraseDups.map fun c => (c, Float.ofNat (cast.count c))

/-- One more vote is counted under its category, which is new or has votes already. -/
theorem addVote_counts (hlt : cast.length + 1 < 2 ^ 53) :
    addVote category (counts cast) = counts (cast ++ [category]) := by
  rw [counts, counts, eraseDups_concat]
  split
  · rename_i hmem
    -- The place of a category that has votes is that of its first vote.
    rw [addVote_map_of_mem (nodup_eraseDups cast) (List.mem_eraseDups.2 hmem)]
    refine List.map_congr_left fun c hc => ?_
    have hbounds := count_bounds (Nat.lt_of_succ_lt hlt) (List.mem_eraseDups.1 hc)
    rw [List.count_append, List.count_singleton]
    by_cases heq : c = category
    · -- The addition is exact, as no number of votes exceeds that of all votes.
      have hle := List.count_le_length (a := c) (l := cast)
      rw [if_pos heq, if_pos (by simpa using heq.symm), ofNat_add_one hbounds.1 (by omega)]
    · rw [if_neg heq, if_neg (by simpa using Ne.symm heq), Nat.add_zero]
  · rename_i hnew
    -- The vote is the first for its category, which comes last, and the others keep their
    -- numbers.
    rw [addVote_map_of_not_mem fun h => hnew (List.mem_eraseDups.1 h), List.map_append]
    congr 1
    · refine List.map_congr_left fun c hc => ?_
      have hne : category ≠ c := fun heq => hnew (heq ▸ List.mem_eraseDups.1 hc)
      rw [List.count_append, List.count_singleton, if_neg (by simpa using hne), Nat.add_zero]
    · rw [List.map_singleton, List.count_append, List.count_eq_zero_of_not_mem hnew,
        List.count_singleton_self]
      rfl

/-- Fewer than `2 ^ 53` votes are counted exactly. -/
theorem tally_eq_counts (hlt : cast.length < 2 ^ 53) : tally cast = counts cast := by
  induction cast using List.reverseRecOn with
  | nil => rfl
  | append_singleton cast category ih =>
    rw [List.length_append, List.length_singleton] at hlt
    rw [tally, List.foldl_concat, ← tally, ih (Nat.lt_of_succ_lt hlt), addVote_counts hlt]

/-! ### The winner -/

/-- Of several votes for one category, the first counts for its place. -/
theorem argmax_eraseDups (number : String → ℕ) (cast : List String) :
    cast.eraseDups.argmax number = cast.argmax number := by
  induction cast using List.reverseRecOn with
  | nil => rfl
  | append_singleton cast category ih =>
    rw [eraseDups_concat]
    split
    · -- A category of the votes before has no more than the greatest number among them.
      rename_i hmem
      rw [ih, List.argmax_concat]
      cases hmax : cast.argmax number with
      | none => simp [List.argmax_eq_none.1 hmax] at hmem
      | some best =>
        have hle : number category ≤ number best := List.le_of_mem_argmax hmem hmax
        simp only
        rw [if_neg (Nat.not_lt.2 hle)]
    · -- A new category is compared with the greatest of the others on both sides.
      rw [List.argmax_concat, List.argmax_concat, ih]

theorem argmax_cons_cons (number : String → ℕ) (best next : String) (rest : List String) :
    (best :: next :: rest).argmax number =
      ((if number best < number next then next else best) :: rest).argmax number := by
  rw [List.argmax, List.foldl_cons, List.foldl_cons, List.argmax, List.foldl_cons]
  simp only [List.argAux]
  split <;> rfl

/-- The winner is the first category with the greatest number of votes. -/
theorem winner_eq_argmax {number : String → ℕ} {best : String} {rest : List String}
    (hnumber : ∀ c ∈ best :: rest, 0 < number c ∧ number c < 2 ^ 53) :
    (best :: rest).argmax number = some (winner (best, Float.ofNat (number best))
      (rest.map fun c => (c, Float.ofNat (number c)))) := by
  induction rest generalizing best with
  | nil => rfl
  | cons next rest ih =>
    obtain ⟨hbest, hnext, hrest⟩ :
        _ ∧ _ ∧ ∀ c ∈ rest, 0 < number c ∧ number c < 2 ^ 53 := by simpa using hnumber
    -- The doubles are compared as the numbers of votes are.
    have hlt := ofNat_lt_ofNat hbest.1 hnext.1 hbest.2 hnext.2
    rw [argmax_cons_cons, List.map_cons, winner]
    simp only [hlt]
    split
    · exact ih (List.forall_mem_cons.2 ⟨hnext, hrest⟩)
    · exact ih (List.forall_mem_cons.2 ⟨hbest, hrest⟩)

/-! ### The outputs -/

theorem get?_foldl_insert_number {categories : List String} {number : String → Float}
    {outputs : Outputs} {k : String} :
    ((categories.map fun c => (c, number c)).foldl
        (fun outputs (category, votes) => outputs.insert category (.number votes)) outputs).get? k =
      if k ∈ categories then some (.number (number k)) else outputs.get? k := by
  induction categories generalizing outputs with
  | nil => rfl
  | cons category categories ih =>
    rw [List.map_cons, List.foldl_cons, ih]
    -- What is put in last is what is read: a later category comes before this one.
    by_cases hlater : k ∈ categories
    · rw [if_pos hlater, if_pos (List.mem_cons_of_mem _ hlater)]
    · rw [if_neg hlater, Record.get?_insert]
      by_cases heq : category = k
      · rw [if_pos heq, if_pos (List.mem_cons.2 (.inl heq.symm)), heq]
      · rw [if_neg heq, if_neg (List.not_mem_cons_of_ne_of_not_mem (Ne.symm heq) hlater)]

theorem majorityVote_eq_ok_none (h : ballots row members = .ok []) :
    majorityVote primary members row = .ok none := by
  rw [majorityVote, h]
  rfl

/-- What a vote outputs is the number of votes under each category, and else the winner
    under the primary name. -/
theorem exists_majorityVote_eq (primary : String) {elected : String}
    (h : ballots row members = .ok cast) (hlt : cast.length < 2 ^ 53)
    (hmax : cast.argmax cast.count = some elected) :
    ∃ outputs, majorityVote primary members row = .ok (some outputs) ∧
      ∀ k, outputs.get? k =
        if k ∈ cast then some (.number (Float.ofNat (cast.count k)))
        else if primary = k then some (.text elected) else none := by
  have htally := tally_eq_counts hlt
  rw [counts] at htally
  rw [← argmax_eraseDups] at hmax
  -- The first pass has counted all votes, and the second begins at the first category.
  cases hcategories : cast.eraseDups with
  | nil =>
    rw [hcategories] at hmax
    cases hmax
  | cons first rest =>
    rw [hcategories] at htally hmax
    have hwinner := winner_eq_argmax fun c (hc : c ∈ first :: rest) =>
      count_bounds hlt (List.mem_eraseDups.1 (hcategories ▸ hc))
    obtain rfl := Option.some.inj (hmax.symm.trans hwinner)
    refine ⟨_, by rw [majorityVote, h, Outcome.ok_bind, htally, List.map_cons], fun k => ?_⟩
    rw [← List.map_cons (f := fun c => (c, Float.ofNat (cast.count c))), get?_foldl_insert_number,
      ← hcategories, Record.get?_insert, Record.get?_empty]
    simp only [List.mem_eraseDups]

/-- A vote that has outputs elects the first category with the greatest number of votes. -/
theorem exists_argmax_of_majorityVote {outputs : Outputs} (hlt : members.length < 2 ^ 53)
    (h : majorityVote primary members row = .ok (some outputs)) :
    ∃ elected, (votes row members).argmax (votes row members).count = some elected ∧
      ∀ k, outputs.get? k =
        if k ∈ votes row members then some (.number (Float.ofNat ((votes row members).count k)))
        else if primary = k then some (.text elected) else none := by
  have hvote := h
  rw [majorityVote] at h
  obtain ⟨cast, hballots, _⟩ := Outcome.bind_eq_ok_iff.1 h
  obtain ⟨_, rfl⟩ := ballots_eq_ok_iff.1 hballots
  cases hmax : (votes row members).argmax (votes row members).count with
  | none =>
    -- Without votes there would be no outputs.
    rw [List.argmax_eq_none.1 hmax] at hballots
    cases (majorityVote_eq_ok_none hballots).symm.trans hvote
  | some elected =>
    obtain ⟨counted, hcounted, hget⟩ := exists_majorityVote_eq primary hballots
      (Nat.lt_of_le_of_lt length_votes_le hlt) hmax
    obtain rfl := Option.some.inj (Except.ok.inj (hcounted.symm.trans hvote))
    exact ⟨elected, rfl, hget⟩

/-! ### Segments -/

variable {segments : List Segment}

theorem ballots_segments_eq_error_iff : ballots row (segments.map (·.member)) = .error e ↔
    ∃ before segment after, segments = before ++ segment :: after ∧
      (∀ earlier ∈ before, ∃ outputs, earlier.score row = .ok outputs) ∧
      segment.score row = .error e := by
  rw [ballots_eq_error_iff]
  constructor
  · rintro ⟨before, member, after, hsplit, hbefore, h⟩
    obtain ⟨before, left, rfl, rfl, hleft⟩ := List.map_eq_append_iff.1 hsplit
    obtain ⟨segment, after, rfl, rfl, rfl⟩ := List.map_eq_cons_iff.1 hleft
    exact ⟨before, segment, after, rfl, fun earlier hearlier =>
      hbefore _ (List.mem_map_of_mem hearlier), h⟩
  · rintro ⟨before, segment, after, rfl, hbefore, h⟩
    exact ⟨before.map (·.member), segment.member, after.map (·.member), List.map_append,
      List.forall_mem_map.2 hbefore, h⟩

/-- Segments that vote for the categories, one after the other. -/
def electorate (categories : List String) : List Segment :=
  categories.map fun category => .guarded .always (.tree (.constant "y" category))

theorem score_of_mem_electorate {categories : List String} {segment : Segment}
    (h : segment ∈ electorate categories) : ∃ outputs, segment.score row = .ok outputs := by
  obtain ⟨category, _, rfl⟩ := List.mem_map.1 h
  rw [Segment.score_guarded_always, TreeModel.score_constant]
  exact ⟨_, rfl⟩

/-- Each segment of an electorate votes for its category, which is not missing. -/
theorem votes_electorate {categories : List String} (hne : "" ∉ categories) :
    votes row ((electorate categories).map (·.member)) = categories := by
  induction categories with
  | nil => rfl
  | cons category categories ih =>
    obtain ⟨hcategory, hcategories⟩ := List.ne_and_not_mem_of_not_mem_cons hne
    have hscore : (Segment.guarded .always (.tree (.constant "y" category))).member.score row =
        .ok (some (Record.single "y" (.text category))) := by
      simp only [Segment.member, Segment.score_guarded_always, TreeModel.score_constant,
        Outcome.within_ok]
    have hballot : ballot? "y" (Record.single "y" (.text category)) = some category := by
      have hcast : (Value.text category).isMissing = false := decide_eq_false hcategory.symm
      exact if_neg (Bool.eq_false_iff.1 hcast)
    rw [electorate, List.map_cons, List.map_cons, ← electorate, votes_cons _ (List.map _ _),
      ih hcategories, votes_singleton_of_score hscore]
    exact congrArg (·.toList ++ categories) hballot

theorem ballots_electorate {categories : List String} (hne : "" ∉ categories) :
    ballots row ((electorate categories).map (·.member)) = .ok categories :=
  ballots_eq_ok_iff.2 ⟨List.forall_mem_map.2 fun _ => score_of_mem_electorate,
    (votes_electorate hne).symm⟩

/-- A vote fails as the first segment does that fails. If none fails, it has no outputs if
    and only if no votes are cast. Otherwise there are under each category as many votes as
    were cast for it, and beside the categories there is only the primary name. The winner
    is there, the first category with the greatest number of votes, unless the primary name
    is that of a category. -/
theorem majorityVote_counts (hlt : segments.length < 2 ^ 53) :
    (∀ e, majorityVote primary (segments.map (·.member)) row = .error e ↔
      ∃ before segment after, segments = before ++ segment :: after ∧
        (∀ earlier ∈ before, ∃ outputs, earlier.score row = .ok outputs) ∧
        segment.score row = .error e) ∧
    ((∀ segment ∈ segments, ∃ outputs, segment.score row = .ok outputs) →
      ∀ cast, cast = votes row (segments.map (·.member)) →
        (majorityVote primary (segments.map (·.member)) row = .ok none ↔ cast = []) ∧
        (cast ≠ [] → ∃ outputs,
          majorityVote primary (segments.map (·.member)) row = .ok (some outputs) ∧
          (∀ c ∈ cast, ∃ x, outputs.get? c = some (.number x) ∧
            value? x = some (cast.count c : ℚ)) ∧
          ∑ c ∈ cast.toFinset, cast.count c = cast.length ∧
          (∀ k, k ∈ outputs ↔ k ∈ cast ∨ k = primary) ∧
          (primary ∉ cast →
            ∃ c ∈ cast.argmax cast.count, outputs.get? primary = some (.text c)))) := by
  constructor
  · intro e
    rw [majorityVote_eq_error_iff, ballots_segments_eq_error_iff]
  · rintro hscore cast hcast
    have hballots : ballots row (segments.map (·.member)) = .ok cast :=
      ballots_eq_ok_iff.2 ⟨List.forall_mem_map.2 hscore, hcast⟩
    have hcastlt : cast.length < 2 ^ 53 :=
      hcast ▸ Nat.lt_of_le_of_lt length_votes_le (by rwa [List.length_map])
    cases hmax : cast.argmax cast.count with
    | none =>
      obtain rfl := List.argmax_eq_none.1 hmax
      exact ⟨iff_of_true (majorityVote_eq_ok_none hballots) rfl, fun h => absurd rfl h⟩
    | some elected =>
      obtain ⟨outputs, hvote, hget⟩ := exists_majorityVote_eq primary hballots hcastlt hmax
      have hne : cast ≠ [] := List.ne_nil_of_mem (List.argmax_mem hmax)
      refine ⟨iff_of_false (fun h => ?_) hne, fun _ => ⟨outputs, hvote, fun c hc => ?_,
        List.sum_toFinset_count_eq_length cast, fun k => ?_, fun hfree => ?_⟩⟩
      · -- Some vote is cast, so there are outputs.
        cases hvote.symm.trans h
      · rw [hget, if_pos hc]
        obtain ⟨hpos, hcount⟩ := count_bounds hcastlt hc
        exact ⟨_, rfl, value?_ofNat hpos hcount⟩
      · rw [Record.mem_iff, hget]
        by_cases hk : k ∈ cast
        · simp [hk]
        · by_cases hprimary : primary = k <;> simp [hk, hprimary, eq_comm]
      · exact ⟨elected, rfl, by rw [hget, if_neg hfree, if_pos rfl]⟩

/-- Of two categories with two votes each, the first is the winner. -/
theorem majorityVote_counts_tie :
    ∃ outputs, majorityVote "y" ((electorate ["b", "a", "a", "b"]).map (·.member)) ∅ =
        .ok (some outputs) ∧
      (∃ x, outputs.get? "a" = some (.number x) ∧ value? x = some 2) ∧
      outputs.get? "y" = some (.text "b") := by
  have hlength : (electorate ["b", "a", "a", "b"]).length < 2 ^ 53 := by decide
  obtain ⟨_, hcounts⟩ := (majorityVote_counts hlength).2 (fun _ => score_of_mem_electorate)
    ["b", "a", "a", "b"] (votes_electorate (by decide)).symm
  obtain ⟨outputs, hvote, hnumber, _, _, helected⟩ := hcounts (by decide)
  refine ⟨outputs, hvote, hnumber "a" (by decide), ?_⟩
  obtain ⟨elected, hmax, helected⟩ := helected (by decide)
  obtain rfl := Option.some.inj hmax
  exact helected

/-- The winner of a vote is put out, unless there is a vote for a category that has the
    primary name. The number of votes for this category is put out instead. -/
theorem get?_primary_majorityVote {outputs : Outputs} (hlt : segments.length < 2 ^ 53)
    (h : majorityVote primary (segments.map (·.member)) row = .ok (some outputs)) :
    ∀ cast, cast = votes row (segments.map (·.member)) →
      (primary ∉ cast →
        ∃ c ∈ cast.argmax cast.count, outputs.get? primary = some (.text c)) ∧
      (primary ∈ cast →
        outputs.get? primary = some (.number (Float.ofNat (cast.count primary)))) := by
  rintro _ rfl
  obtain ⟨elected, hmax, hget⟩ := exists_argmax_of_majorityVote (by rwa [List.length_map]) h
  rw [hget]
  exact ⟨fun hfree => ⟨elected, hmax, by rw [if_neg hfree, if_pos rfl]⟩, fun hk => if_pos hk⟩

/-- No vote is for the primary name, and the winner is put out. -/
theorem get?_primary_majorityVote_distinct :
    ∃ outputs, majorityVote "y" ((electorate ["a", "b", "a"]).map (·.member)) ∅ =
        .ok (some outputs) ∧
      outputs.get? "y" = some (.text "a") := by
  have hne : "" ∉ ["a", "b", "a"] := by decide
  obtain ⟨outputs, hvote, _⟩ := exists_majorityVote_eq "y" (ballots_electorate hne) (by decide)
    (by decide : ["a", "b", "a"].argmax ["a", "b", "a"].count = some "a")
  obtain ⟨elected, hmax, helected⟩ := (get?_primary_majorityVote (by decide) hvote _
    (votes_electorate hne).symm).1 (by decide)
  obtain rfl := Option.some.inj hmax
  exact ⟨outputs, hvote, helected⟩

/-- A vote for the primary name takes the place of the winner. -/
theorem exists_winner_replaced :
    ¬ ∀ (segments : List Segment) (row : Row) (primary : String) (outputs : Outputs),
      majorityVote primary (segments.map (·.member)) row = .ok (some outputs) →
        ∃ c ∈ (votes row (segments.map (·.member))).argmax
          (votes row (segments.map (·.member))).count, outputs.get? primary = some (.text c) := by
  intro hall
  obtain ⟨outputs, hvote, hget⟩ := exists_majorityVote_eq "y"
    (ballots_electorate (by decide)) (by decide)
    (by decide : ["a", "y", "a"].argmax ["a", "y", "a"].count = some "a")
  obtain ⟨_, _, htext⟩ := hall _ ∅ _ _ hvote
  rw [hget] at htext
  cases htext

end Ensemble

end Scoring
