import Mathlib.Logic.Relation
import Scoring.Batch

/-!
# Schedules of a batch

Several threads share a batch: it is cut into pieces in any way that `Batch.IsCut` allows, and
the threads work through them at the same time. At any moment something is left of each piece,
and there is a slot for every item of the batch, which holds the result of the item once there
is one (`Batch.Work`). A step takes the next item of any piece and puts its result into the slot
at the place of the item (`Batch.Work.Step`); nothing is said on which piece it is, so the
pieces go on and come to an end in any order.

* Every slot holds the result of its item, or the item is still left in some piece. Each
  step keeps this (`Batch.Work.Faithful.step`), hence every schedule does.
* A step leaves one item less, so a schedule can always be finished
  (`Batch.Work.exists_isDone`).

Whatever the cut and the schedule, a batch yields the results of its items in their order
(`Batch.yields_iff_eq_map`).
-/

namespace Scoring.Batch

open Relation

variable {α β : Type}

/-! ### Work -/

/-- A batch at work. -/
structure Work (α β : Type) where
  /-- What is left of each piece, with the place of its first item in the batch. -/
  left : List (Nat × List α)
  /-- The results so far, each in the place of its item. -/
  slots : List (Option β)

/-- Pieces that follow each other, with their places, of which the first is given. -/
def placed (place : Nat) : List (List α) → List (Nat × List α)
  | [] => []
  | piece :: pieces => (place, piece) :: placed (place + piece.length) pieces

namespace Work

/-- The work on pieces that has not begun: all is left, and all slots are empty. -/
def start (pieces : List (List α)) : Work α β :=
  ⟨placed 0 pieces, List.replicate pieces.flatten.length none⟩

/-- The next item of some piece gets its result. -/
inductive Step (f : α → β) : Work α β → Work α β → Prop
  | next {before after : List (Nat × List α)} {place : Nat} {x : α} {rest : List α}
      {slots : List (Option β)} :
      Step f ⟨before ++ (place, x :: rest) :: after, slots⟩
        ⟨before ++ (place + 1, rest) :: after, slots.set place (some (f x))⟩

/-- Nothing is left of any piece. -/
def IsDone (work : Work α β) : Prop := ∀ piece ∈ work.left, piece.2 = []

/-- The slots and what is left agree with the batch: every item that is left is the one at
    its place, and every slot holds the result of its item unless the item is left. -/
structure Faithful (f : α → β) (xs : List α) (work : Work α β) : Prop where
  length_eq : work.slots.length = xs.length
  item_eq : ∀ piece ∈ work.left, ∀ i x, piece.2[i]? = some x → xs[piece.1 + i]? = some x
  filled_or_left : ∀ i < xs.length, work.slots[i]? = some (xs[i]?.map f) ∨
    ∃ piece ∈ work.left, piece.1 ≤ i ∧ i < piece.1 + piece.2.length

variable {f : α → β} {xs : List α} {work next : Work α β}

/-- A piece is the one in the middle, or one of the others. -/
theorem mem_middle_iff {before after : List (Nat × List α)} {middle piece : Nat × List α} :
    piece ∈ before ++ middle :: after ↔ piece = middle ∨ piece ∈ before ++ after := by
  rw [List.perm_middle.mem_iff, List.mem_cons]

/-- A step keeps slots and pieces in agreement with the batch: the slot that it fills gets
    the result of the item at its place, and all others stay as they are. -/
theorem Faithful.step (h : Faithful f xs work) (hstep : Step f work next) :
    Faithful f xs next := by
  cases hstep with
  | @next before after place x rest slots =>
    have hmiddle : (place, x :: rest) ∈ before ++ (place, x :: rest) :: after :=
      mem_middle_iff.2 (.inl rfl)
    have hother : ∀ {piece}, piece ∈ before ++ after →
        piece ∈ before ++ (place, x :: rest) :: after :=
      fun hpiece => mem_middle_iff.2 (.inr hpiece)
    constructor
    case length_eq => exact (List.length_set ..).trans h.length_eq
    case item_eq =>
      intro piece hpiece i y hy
      rcases mem_middle_iff.1 hpiece with rfl | hpiece
      · -- The items after the first have moved up by one place.
        have hy := h.item_eq _ hmiddle (i + 1) y hy
        rwa [Nat.add_right_comm, Nat.add_assoc]
      · exact h.item_eq piece (hother hpiece) i y hy
    case filled_or_left =>
      intro i hi
      by_cases hplace : i = place
      · subst hplace
        have hx : xs[i]? = some x := h.item_eq _ hmiddle 0 x rfl
        have hslot : i < slots.length := Nat.lt_of_lt_of_eq hi h.length_eq.symm
        exact .inl (by rw [hx, List.getElem?_set_self hslot]; rfl)
      · rcases h.filled_or_left i hi with hfilled | ⟨piece, hpiece, hle, hlt⟩
        · -- Another slot was filled, and still is.
          exact .inl ((List.getElem?_set_ne (Ne.symm hplace)).trans hfilled)
        · -- The item is left in the piece of the step, though not as its first one, or in
          -- another piece.
          rcases mem_middle_iff.1 hpiece with rfl | hpiece
          · refine .inr ⟨(place + 1, rest), mem_middle_iff.2 (.inl rfl), ?_, ?_⟩
            · exact Nat.lt_of_le_of_ne hle (Ne.symm hplace)
            · dsimp only [List.length_cons] at hlt ⊢
              omega
          · exact .inr ⟨piece, mem_middle_iff.2 (.inr hpiece), hle, hlt⟩

/-- Every schedule keeps slots and pieces in agreement with the batch. -/
theorem Faithful.of_steps (h : Faithful f xs work) (hsteps : ReflTransGen (Step f) work next) :
    Faithful f xs next := by
  induction hsteps with
  | refl => exact h
  | tail _ hstep ih => exact ih.step hstep

/-- When nothing is left, all slots are filled. -/
theorem Faithful.slots_eq (h : Faithful f xs work) (hdone : work.IsDone) :
    work.slots = (xs.map f).map some := by
  refine List.ext_getElem? fun i => ?_
  rw [List.getElem?_map, List.getElem?_map]
  by_cases hi : i < xs.length
  · rcases h.filled_or_left i hi with hfilled | ⟨piece, hpiece, hle, hlt⟩
    · rw [hfilled, List.getElem?_eq_getElem hi]
      rfl
    · rw [hdone piece hpiece, List.length_nil] at hlt
      omega
  · rw [List.getElem?_eq_none (by rw [h.length_eq]; omega), List.getElem?_eq_none (by omega)]
    rfl

/-! ### From the beginning to the end -/

/-- The items of a piece are those of the batch at its place. -/
theorem item_eq_of_mem_placed {pieces : List (List α)} {place : Nat} {piece : Nat × List α}
    (h : piece ∈ placed place pieces) {i : Nat} {x : α} (hx : piece.2[i]? = some x) :
    ∃ j, piece.1 = place + j ∧ pieces.flatten[j + i]? = some x := by
  induction pieces generalizing place with
  | nil => cases h
  | cons first pieces ih =>
    rcases List.mem_cons.1 h with rfl | h
    · obtain ⟨hi, _⟩ := List.getElem?_eq_some_iff.1 hx
      refine ⟨0, rfl, ?_⟩
      rw [List.flatten_cons, Nat.zero_add, List.getElem?_append_left hi]
      exact hx
    · obtain ⟨j, hj, hx⟩ := ih h
      -- It is one of the later pieces, which come after the items of the first.
      refine ⟨first.length + j, by omega, ?_⟩
      rw [List.flatten_cons, Nat.add_assoc, List.getElem?_append_right (by omega)]
      simpa using hx

/-- Every place of a batch is in one of the pieces. -/
theorem exists_mem_placed {pieces : List (List α)} {i : Nat} (h : i < pieces.flatten.length)
    (place : Nat) : ∃ piece ∈ placed place pieces,
      piece.1 ≤ place + i ∧ place + i < piece.1 + piece.2.length := by
  induction pieces generalizing place i with
  | nil => cases h
  | cons first pieces ih =>
    rw [List.flatten_cons, List.length_append] at h
    by_cases hi : i < first.length
    · exact ⟨_, List.mem_cons_self, Nat.le_add_right _ _, Nat.add_lt_add_left hi place⟩
    · obtain ⟨piece, hpiece, hle, hlt⟩ :=
        ih (i := i - first.length) (by omega) (place + first.length)
      exact ⟨piece, List.mem_cons_of_mem _ hpiece, by omega, by omega⟩

/-- Before anything is done, everything is left and agrees with the batch. -/
theorem faithful_start (f : α → β) (pieces : List (List α)) :
    Faithful f pieces.flatten (start pieces) where
  length_eq := List.length_replicate
  item_eq piece hpiece i x hx := by
    obtain ⟨j, hj, hx⟩ := item_eq_of_mem_placed hpiece hx
    rwa [hj, Nat.zero_add]
  filled_or_left i hi := by
    obtain ⟨piece, hpiece, hle, hlt⟩ := exists_mem_placed hi 0
    rw [Nat.zero_add] at hle hlt
    exact .inr ⟨piece, hpiece, hle, hlt⟩

/-- The number of items that are left. -/
def size (work : Work α β) : Nat := (work.left.flatMap (·.2)).length

/-- A step leaves one item less. -/
theorem Step.size_eq (h : Step f work next) : work.size = next.size + 1 := by
  cases h
  simp only [size, List.flatMap_append, List.flatMap_cons, List.length_append, List.length_cons]
  omega

/-- Unless all is done, some piece has an item left that can be taken. -/
theorem isDone_or_exists_step (f : α → β) (work : Work α β) :
    work.IsDone ∨ ∃ next, Step f work next := by
  by_cases h : ∃ piece ∈ work.left, piece.2 ≠ []
  · obtain ⟨⟨place, items⟩, hpiece, hitems⟩ := h
    obtain ⟨before, after, hleft⟩ := List.append_of_mem hpiece
    obtain ⟨x, rest, rfl⟩ := List.exists_cons_of_ne_nil hitems
    obtain ⟨left, slots⟩ := work
    cases hleft
    exact .inr ⟨_, .next⟩
  · exact .inl fun piece hpiece => Classical.byContradiction fun hitems => h ⟨piece, hpiece, hitems⟩

/-- However far a schedule has come, it can be finished. -/
theorem exists_isDone (f : α → β) (work : Work α β) :
    ∃ last, ReflTransGen (Step f) work last ∧ last.IsDone := by
  rcases isDone_or_exists_step f work with hdone | ⟨next, hstep⟩
  · exact ⟨work, .refl, hdone⟩
  · have := hstep.size_eq
    obtain ⟨last, hsteps, hdone⟩ := exists_isDone f next
    exact ⟨last, .head hstep hsteps, hdone⟩
termination_by work.size

end Work

/-! ### What a batch yields -/

/-- A batch yields results: if one thread has it, those of its items one after the other;
    otherwise what the slots hold at the end of some schedule, on some cut into pieces
    that are long enough. -/
inductive Yields (parallelism : Parallelism) (f : α → β) (xs : List α) : List β → Prop
  | sequential : parallelism.allowsParallel = false → Yields parallelism f xs (xs.map f)
  | parallel {pieces : List (List α)} {last : Work α β} {results : List β} :
      parallelism.allowsParallel = true →
      IsCut (parallelism.minPieceLength xs.length.toUInt64).toNat xs pieces →
      ReflTransGen (Work.Step f) (.start pieces) last → last.IsDone →
      last.slots = results.map some → Yields parallelism f xs results

/-- However a batch is cut and scheduled, it yields the results of its items in their
    order; and it does yield them. -/
theorem yields_iff_eq_map {parallelism : Parallelism} {f : α → β} {xs : List α} {results : List β} :
    Yields parallelism f xs results ↔ results = xs.map f := by
  constructor
  · rintro (_ | ⟨_, hcut, hsteps, hdone, hresults⟩)
    · rfl
    · have hslots := ((Work.faithful_start f _).of_steps hsteps).slots_eq hdone
      rw [hcut.flatten_eq, hresults] at hslots
      exact (List.map_inj_right fun _ _ => Option.some.inj).1 hslots
  · rintro rfl
    cases hparallel : parallelism.allowsParallel with
    | false => exact .sequential hparallel
    | true =>
      -- The batch may be left whole, and then there is one piece for all schedules.
      have hcut : IsCut (parallelism.minPieceLength xs.length.toUInt64).toNat xs [xs] :=
        ⟨List.flatten_singleton, .inr rfl⟩
      obtain ⟨last, hsteps, hdone⟩ := Work.exists_isDone f (.start [xs])
      have hslots := ((Work.faithful_start f _).of_steps hsteps).slots_eq hdone
      rw [hcut.flatten_eq] at hslots
      exact .parallel hparallel hcut hsteps hdone hslots

/-- A batch of rows yields one list of results, and that is what scoring the batch comes
    to, whatever the threads, the cut into pieces and the order in which these get on: it has
    a result for each row, in the place of the row, which is the result of the row by itself.
    So a row, and the failure of a row, has a part in its own result only, and the settings
    have none. -/
theorem yields_score_iff [ThreadPool] (settings : BatchSettings) (model : Model) (rows : List Row) :
    (∀ results, Yields (settings.parallelism rows.length) model.score rows results ↔
      results = score settings model rows) ∧
    (score settings model rows).length = rows.length ∧
    (∀ i : Nat, (score settings model rows)[i]? = rows[i]?.map model.score) ∧
    (∀ i row, score settings model (rows.set i row) =
      (score settings model rows).set i (model.score row)) ∧
    ∀ settings', score settings' model rows = score settings model rows := by
  simp only [score_eq]
  refine ⟨fun results => yields_iff_eq_map, List.length_map _, fun i => List.getElem?_map ..,
    fun i row => List.map_set .., fun _ => trivial⟩

end Scoring.Batch
