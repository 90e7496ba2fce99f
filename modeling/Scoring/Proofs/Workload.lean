import Mathlib.Algebra.Order.BigOperators.Group.List
import Mathlib.Algebra.Order.Ring.Nat
import Scoring.Batch

/-!
# Workloads

How many threads a batch is worth, and how long its pieces have to be, is worked out in words of 64
bits, with divisions that round in opposite directions. Two facts in natural numbers say all that
comes of it:

* there are as many threads as were given and as have enough items each, and one at least
  (`Parallelism.toNat_threads_correctFor`), where the items per thread are rounded down;
* the length of the pieces is the least one, not zero, with which the threads have a piece each for
  all items (`Parallelism.minPieceLength_le_iff`), where it is rounded up.

The words are never too short for this, and no divisor is zero: computed with checks
(`Parallelism.correctForChecked`, `Parallelism.minPieceLengthChecked`), the results are the same.
-/

namespace Scoring

/-! ### Checked words -/

/-- What a calculation with words can come to grief on. -/
inductive WordFault
  | zeroDivisor
  /-- A sum is greater than all words. -/
  | overflow
  deriving DecidableEq, Repr

namespace Word

/-- The quotient of two words, rounded down. -/
def quotient (x y : UInt64) : Except WordFault UInt64 :=
  if y = 0 then .error .zeroDivisor else .ok (x / y)

/-- What a division of two words leaves. -/
def remainder (x y : UInt64) : Except WordFault UInt64 :=
  if y = 0 then .error .zeroDivisor else .ok (x % y)

/-- The sum of two words. -/
def sum (x y : UInt64) : Except WordFault UInt64 :=
  if x.toNat + y.toNat < UInt64.size then .ok (x + y) else .error .overflow

end Word

namespace Parallelism

variable {p : Parallelism} {items least : UInt64}

/-- `correctFor`, with checks of its arithmetic. -/
def correctForChecked (p : Parallelism) (items least : UInt64) : Except WordFault Parallelism :=
  match p with
  | sequential => .ok sequential
  | parallel threads => do
    let share ← Word.quotient items (max least 1)
    let effective := max (min threads share) 1
    .ok (if effective ≤ 1 then sequential else parallel effective)

/-- `minPieceLength`, with checks of its arithmetic. -/
def minPieceLengthChecked (p : Parallelism) (items : UInt64) : Except WordFault UInt64 := do
  let share ← Word.quotient items p.threads
  let rest ← Word.remainder items p.threads
  let length ← if rest = 0 then .ok share else Word.sum share 1
  .ok (max length 1)

/-! ### Threads -/

theorem toNat_threads_pos (p : Parallelism) : 0 < p.threads.toNat := by
  cases p with
  | sequential => decide
  | parallel given =>
    rw [threads, UInt64.toNat_max, UInt64.toNat_one]
    omega

theorem allowsParallel_iff : p.allowsParallel ↔ 1 < p.threads.toNat := by
  cases p with
  | sequential => decide
  | parallel given =>
    rw [allowsParallel, decide_eq_true_eq, UInt64.lt_iff_toNat_lt, threads, UInt64.toNat_max,
      UInt64.toNat_one]
    omega

/-- The threads that are given, as far as each has enough items, and one at least. -/
theorem toNat_effective (given items least : UInt64) :
    (max (min given (items / max least 1)) 1).toNat =
      max (min given.toNat (items.toNat / max least.toNat 1)) 1 := by
  rw [UInt64.toNat_max, UInt64.toNat_min, UInt64.toNat_div, UInt64.toNat_max, UInt64.toNat_one]

theorem correctFor_parallel (given items least : UInt64) :
    (parallel given).correctFor items least =
      if max (min given.toNat (items.toNat / max least.toNat 1)) 1 ≤ 1 then sequential
      else parallel (max (min given (items / max least 1)) 1) := by
  simp only [correctFor, UInt64.le_iff_toNat_le, toNat_effective, UInt64.toNat_one]

/-- There are as many threads as were given, as far as each has enough items, and one at least. -/
theorem toNat_threads_correctFor (p : Parallelism) (items least : UInt64) :
    (p.correctFor items least).threads.toNat =
      max (min p.threads.toNat (items.toNat / max least.toNat 1)) 1 := by
  cases p with
  | sequential =>
    rw [correctFor, threads, UInt64.toNat_one]
    omega
  | parallel given =>
    have hgiven : (parallel given).threads.toNat = max given.toNat 1 := UInt64.toNat_max given 1
    rw [hgiven, correctFor_parallel]
    split
    · rw [threads, UInt64.toNat_one]
      omega
    · rw [threads, UInt64.toNat_max, toNat_effective, UInt64.toNat_one]
      omega

/-- What has been corrected needs no correction. -/
theorem correctFor_correctFor (p : Parallelism) (items least : UInt64) :
    (p.correctFor items least).correctFor items least = p.correctFor items least := by
  cases p with
  | sequential => rfl
  | parallel given =>
    have heffective := toNat_effective given items least
    rw [correctFor_parallel]
    split
    · rfl
    · -- The number of threads is a minimum already, and taking it again changes nothing.
      rw [correctFor_parallel, if_neg (by omega)]
      congr 1
      rw [← UInt64.toNat_inj, toNat_effective]
      omega

/-- The arithmetic of the threads has no divisor that is zero. -/
theorem correctForChecked_eq (p : Parallelism) (items least : UInt64) :
    p.correctForChecked items least = .ok (p.correctFor items least) := by
  cases p with
  | sequential => rfl
  | parallel given =>
    have hdivisor : max least 1 ≠ 0 := by
      rw [← UInt64.toNat_inj.ne, UInt64.toNat_max, UInt64.toNat_one, UInt64.toNat_zero]
      omega
    rw [correctForChecked, Word.quotient, if_neg hdivisor]
    rfl

/-! ### Pieces -/

/-- A quotient that is not exact is not the greatest word. -/
theorem toNat_div_add_one_lt {x y : UInt64} (h : x % y ≠ 0) :
    (x / y).toNat + 1 < UInt64.size := by
  have hx : x.toNat < UInt64.size := x.toNat_lt
  rw [← UInt64.toNat_inj.ne, UInt64.toNat_mod, UInt64.toNat_zero] at h
  rw [UInt64.toNat_div]
  -- A divisor of two at least makes the quotient smaller, and one leaves no remainder.
  rcases Nat.lt_or_ge 1 y.toNat with hy | hy
  · have hpos : 0 < x.toNat := Nat.pos_of_ne_zero fun hzero => h (by rw [hzero, Nat.zero_mod])
    have hlt : x.toNat / y.toNat < x.toNat := Nat.div_lt_self hpos hy
    omega
  · have hzero : y.toNat = 0 := by
      by_contra hne
      exact h (by rw [show y.toNat = 1 by omega, Nat.mod_one])
    rw [hzero, Nat.div_zero]
    decide

/-- The arithmetic of the pieces has no divisor that is zero, and rounding up does not exceed a
    word. -/
theorem minPieceLengthChecked_eq (p : Parallelism) (items : UInt64) :
    p.minPieceLengthChecked items = .ok (p.minPieceLength items) := by
  have hdivisor : p.threads ≠ 0 := by
    rw [← UInt64.toNat_inj.ne, UInt64.toNat_zero]
    exact Nat.ne_of_gt p.toNat_threads_pos
  rw [minPieceLengthChecked, Word.quotient, Word.remainder, if_neg hdivisor,
    if_neg hdivisor, minPieceLength]
  by_cases hrest : items % p.threads = 0
  · simp [hrest, bind, Except.bind]
  · have hsum : Word.sum (items / p.threads) 1 = .ok (items / p.threads + 1) :=
      if_pos (toNat_div_add_one_lt hrest)
    simp [hrest, hsum, bind, Except.bind]

/-- The length of the pieces is the quotient of items and threads, rounded up, and one at least. -/
theorem toNat_minPieceLength (p : Parallelism) (items : UInt64) :
    (p.minPieceLength items).toNat =
      max (items.toNat / p.threads.toNat + if items.toNat % p.threads.toNat = 0 then 0 else 1)
        1 := by
  rw [minPieceLength, UInt64.toNat_max, UInt64.toNat_one]
  by_cases hrest : items % p.threads = 0
  · have hmod : items.toNat % p.threads.toNat = 0 := by
      rw [← UInt64.toNat_mod, hrest, UInt64.toNat_zero]
    rw [if_pos hrest, if_pos hmod, UInt64.add_zero, UInt64.toNat_div, Nat.add_zero]
  · have hmod : items.toNat % p.threads.toNat ≠ 0 := by
      rwa [← UInt64.toNat_mod, ← UInt64.toNat_zero, UInt64.toNat_inj.ne]
    -- The sum does not wrap around.
    have hlt := toNat_div_add_one_lt hrest
    rw [if_neg hrest, if_neg hmod, UInt64.toNat_add, UInt64.toNat_one, Nat.mod_eq_of_lt hlt,
      UInt64.toNat_div]

/-- The length of the pieces is the least one, not zero, with which the threads have a piece each
    for all items. -/
theorem minPieceLength_le_iff {n : Nat} :
    (p.minPieceLength items).toNat ≤ n ↔ 1 ≤ n ∧ items.toNat ≤ p.threads.toNat * n := by
  have hthreads := p.toNat_threads_pos
  rw [toNat_minPieceLength, Nat.max_le, and_comm, and_congr_right_iff]
  intro _
  have hdivision := Nat.div_add_mod items.toNat p.threads.toNat
  split
  · rename_i hrest
    rw [hrest, Nat.add_zero] at hdivision
    rw [Nat.add_zero]
    conv_rhs => rw [← hdivision]
    exact (Nat.mul_le_mul_left_iff hthreads).symm
  · rename_i hrest
    -- Something remains: pieces as long as the quotient are too short, and with one more they
    -- are not.
    constructor
    · intro h
      exact Nat.le_of_lt (Nat.lt_of_lt_of_le (Nat.lt_mul_div_succ _ hthreads)
        (Nat.mul_le_mul_left _ h))
    · intro h
      by_contra hlt
      have := Nat.mul_le_mul_left p.threads.toNat (Nat.le_of_lt_succ (Nat.lt_of_not_le hlt))
      omega

/-- However items are cut into pieces that are long enough, there are no more pieces than
    threads. -/
theorem length_le_threads {lengths : List Nat} (hsum : lengths.sum = items.toNat)
    (hlengths : ∀ length ∈ lengths, (p.minPieceLength items).toNat ≤ length) :
    lengths.length ≤ p.threads.toNat := by
  obtain ⟨hpos, hitems⟩ := minPieceLength_le_iff.1 (Nat.le_refl (p.minPieceLength items).toNat)
  have hle : lengths.length * (p.minPieceLength items).toNat ≤
      p.threads.toNat * (p.minPieceLength items).toNat :=
    calc lengths.length * (p.minPieceLength items).toNat
        ≤ lengths.sum := List.card_nsmul_le_sum lengths _ hlengths
      _ = items.toNat := hsum
      _ ≤ p.threads.toNat * (p.minPieceLength items).toNat := hitems
  exact Nat.le_of_mul_le_mul_right hle hpos

/-- The threads and the pieces for so many items, of which each thread should have some least
    number, or one if that is zero.

    * Nothing is divided by zero on the way, and no word is too short.
    * There are as many threads as were given, as far as each has enough items. In any case there is
      one thread, and there are never more than were given.
    * Where there are several threads, each has enough items, and no piece is shorter than that.
    * What has been corrected is not corrected any further.
    * For more items there are no fewer threads.
    * However the items are cut into pieces of the length given or longer, there are no more pieces
      than threads. -/
theorem workload_bounds (p : Parallelism) (items least : UInt64) :
    let q := p.correctFor items least
    p.correctForChecked items least = .ok q ∧
    q.minPieceLengthChecked items = .ok (q.minPieceLength items) ∧
    q.threads.toNat = max (min p.threads.toNat (items.toNat / max least.toNat 1)) 1 ∧
    (1 ≤ q.threads ∧ q.threads ≤ max 1 p.threads) ∧
    (q.allowsParallel → q.threads.toNat * max least.toNat 1 ≤ items.toNat ∧
      max least 1 ≤ q.minPieceLength items) ∧
    q.correctFor items least = q ∧
    (∀ more, items ≤ more → q.threads ≤ (p.correctFor more least).threads) ∧
    ∀ lengths : List Nat, lengths.sum = items.toNat →
      (∀ length ∈ lengths, (q.minPieceLength items).toNat ≤ length) →
      lengths.length ≤ q.threads.toNat := by
  intro q
  have hthreads : q.threads.toNat = max (min p.threads.toNat (items.toNat / max least.toNat 1)) 1 :=
    toNat_threads_correctFor p items least
  refine ⟨correctForChecked_eq p items least, minPieceLengthChecked_eq q items, hthreads,
    ⟨?_, ?_⟩, ?_, correctFor_correctFor p items least, ?_, fun lengths => length_le_threads⟩
  · exact UInt64.le_iff_toNat_le.2 q.toNat_threads_pos
  · rw [UInt64.le_iff_toNat_le, UInt64.toNat_max, UInt64.toNat_one]
    omega
  · intro hparallel
    rw [allowsParallel_iff] at hparallel
    have hshare : q.threads.toNat ≤ items.toNat / max least.toNat 1 := by omega
    have hitems : q.threads.toNat * max least.toNat 1 ≤ items.toNat :=
      (Nat.le_div_iff_mul_le (by omega)).1 hshare
    refine ⟨hitems, ?_⟩
    -- With shorter pieces the threads would not have all items.
    have hpieces := (minPieceLength_le_iff.1 (Nat.le_refl (q.minPieceLength items).toNat)).2
    rw [UInt64.le_iff_toNat_le, UInt64.toNat_max, UInt64.toNat_one]
    exact Nat.le_of_mul_le_mul_left (Nat.le_trans hitems hpieces) q.toNat_threads_pos
  · intro more hmore
    -- More items give every thread a greater share.
    have hshare : items.toNat / max least.toNat 1 ≤ more.toNat / max least.toNat 1 :=
      Nat.div_le_div_right (UInt64.le_iff_toNat_le.1 hmore)
    rw [UInt64.le_iff_toNat_le, toNat_threads_correctFor p more least]
    omega

/-- Of eight threads four have a hundred items each, and of three threads each has four of ten items
    at most. -/
example : (parallel 8).correctFor 400 100 = parallel 4 ∧ (parallel 3).minPieceLength 10 = 4 := by
  decide

end Parallelism

end Scoring
