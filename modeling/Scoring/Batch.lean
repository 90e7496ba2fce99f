import Scoring.Json.Decode
import Scoring.Model

/-!
# Batches

A batch of rows is scored row by row, and a row that fails leaves the others alone.
The rows may be shared out among several threads: a batch is then cut into *pieces*,
each scored by itself, and the results are put together in the order of the rows.
`Parallelism` says how many threads there are, and so how long the pieces have to be;
it has no influence on the results (`Batch.map_eq`).

How many threads there are to begin with, and where a batch is cut, is for the
`ThreadPool` to say. All that is known of its cuts is that the pieces follow each other
and are long enough (`Batch.IsCut`).

Threads and rows are counted in words of 64 bits.
-/

namespace Scoring

/-- How many threads work on a batch. -/
inductive Parallelism
  | sequential
  /-- Up to so many threads. -/
  | parallel (threads : UInt64)
  deriving DecidableEq, Repr

namespace Parallelism

/-- The parallelism for a number of threads. Zero leaves the choice open, and then there
    are as many as are `available`. -/
def ofThreads (available threads : UInt64) : Parallelism :=
  if threads = 0 then parallel available
  else if threads = 1 then sequential
  else parallel threads

/-- Whether there is more than one thread. -/
def allowsParallel : Parallelism → Bool
  | sequential => false
  | parallel threads => 1 < threads

/-- The number of threads, one at least. -/
def threads : Parallelism → UInt64
  | sequential => 1
  | parallel threads => max threads 1

/-- The parallelism with no more threads than have at least `least` items each. -/
def correctFor (parallelism : Parallelism) (items least : UInt64) : Parallelism :=
  match parallelism with
  | sequential => sequential
  | parallel threads =>
    let effective := max (min threads (items / max least 1)) 1
    if effective ≤ 1 then sequential else parallel effective

/-- The least length of the pieces into which a batch is cut, so that there are no more
    pieces than threads: the items divided by the threads, rounded up. -/
def minPieceLength (parallelism : Parallelism) (items : UInt64) : UInt64 :=
  let threads := parallelism.threads
  -- Rounding up cannot exceed a word, as by one thread everything is divisible.
  let length := items / threads + (if items % threads = 0 then 0 else 1)
  max length 1

end Parallelism

/-- A list is cut into pieces that follow each other, none shorter than `least` unless
    there is only one. -/
structure Batch.IsCut {α : Type} (least : Nat) (xs : List α) (pieces : List (List α)) : Prop where
  flatten_eq : pieces.flatten = xs
  least_le : (∀ piece ∈ pieces, least ≤ piece.length) ∨ pieces = [xs]

/-- The threads that batches are shared out among. -/
class ThreadPool where
  /-- How many threads there are when the choice is left open. -/
  available : UInt64
  /-- The pieces of a list, given the least length that they are to have. -/
  cut {α : Type} (least : Nat) (xs : List α) : List (List α)
  isCut_cut {α : Type} (least : Nat) (xs : List α) : Batch.IsCut least xs (cut least xs)

/-- The settings of batches. -/
structure BatchSettings where
  /-- The number of threads; zero leaves the choice open. -/
  threads : UInt64
  /-- The least number of rows that are worth a thread. -/
  minRowsPerThread : UInt64
  deriving DecidableEq

namespace BatchSettings

/-- The settings that hold unless others are given. -/
def default : BatchSettings := ⟨0, 64⟩

open Json (withDefault)

/-- A natural number of 64 bits. -/
def word64? (v : Json) : Option UInt64 := do
  let n ← v.integer?
  if 0 ≤ n ∧ n < UInt64.size then some (UInt64.ofNat n.toNat) else none

/-- The settings that a JSON value describes. -/
def ofJson? (v : Json) : Option BatchSettings := do
  let members ← v.fields? ["n_threads", "min_rows_per_thread"]
  let threads ← withDefault "n_threads" default.threads word64? members
  let minRowsPerThread ←
    withDefault "min_rows_per_thread" default.minRowsPerThread word64? members
  some ⟨threads, minRowsPerThread⟩

/-- Settings as a JSON value. -/
def toJson (settings : BatchSettings) : Json := .object [
  ("n_threads", .integer settings.threads.toNat),
  ("min_rows_per_thread", .integer settings.minRowsPerThread.toNat)]

/-- The threads that there are when the settings leave the choice open. -/
def availableThreads [ThreadPool] : UInt64 := ThreadPool.available

/-- The parallelism of the settings for a batch of so many rows. -/
def parallelism [ThreadPool] (settings : BatchSettings) (rows : Nat) : Parallelism :=
  (Parallelism.ofThreads availableThreads settings.threads).correctFor rows.toUInt64
    settings.minRowsPerThread

end BatchSettings

namespace Batch

variable [ThreadPool] {α β : Type}

/-- A function applied to every item of a batch, piece by piece. -/
def map (parallelism : Parallelism) (f : α → β) (xs : List α) : List β :=
  if parallelism.allowsParallel then
    let least := (parallelism.minPieceLength xs.length.toUInt64).toNat
    ((ThreadPool.cut least xs).map fun piece => piece.map f).flatten
  else xs.map f

/-- The pieces follow each other, and so do the results of their items. -/
theorem map_eq (parallelism : Parallelism) (f : α → β) (xs : List α) :
    map parallelism f xs = xs.map f := by
  simp only [map]
  split
  · rw [← List.map_flatten, (ThreadPool.isCut_cut _ xs).flatten_eq]
  · rfl

/-- The results of a model for the rows of a batch, in their order. -/
def score (settings : BatchSettings) (model : Model) (rows : List Row) :
    List (Outcome (Option Outputs)) :=
  map (settings.parallelism rows.length) model.score rows

theorem score_eq (settings : BatchSettings) (model : Model) (rows : List Row) :
    score settings model rows = rows.map model.score :=
  map_eq (settings.parallelism rows.length) model.score rows

end Batch

end Scoring
