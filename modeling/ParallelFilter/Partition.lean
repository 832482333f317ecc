import ParallelFilter.Error

/-! Splitting `[0, total)` into one contiguous range per worker. Every worker gets the whole part of
`total / workers`. What is left over is either dropped or dealt out one unit at a time to the first
workers. -/

namespace ParallelFilter

/-- What becomes of the units that do not divide evenly. -/
inductive Strategy where
  /-- They are dropped. -/
  | truncate
  /-- The first workers take one more unit each. -/
  | balanced
  deriving DecidableEq

/-- How many workers take one unit more than the others. -/
def Strategy.extra (strategy : Strategy) (total workers : Nat) : Nat :=
  match strategy with
  | .truncate => 0
  | .balanced => total % workers

/-- The ranges of `count` consecutive workers, the first of them having `index` and beginning at
`start`. The workers below `extra` take `chunk + 1` units, the others `chunk`. -/
def slices (chunk extra : Nat) : (count index start : Nat) → List Span
  | 0, _, _ => []
  | count + 1, index, start =>
    let stop := start + (chunk + if index < extra then 1 else 0)
    ⟨start, stop, by omega⟩ :: slices chunk extra count (index + 1) stop

/-- One range for each of `workers` workers. -/
def partition (strategy : Strategy) (total workers : Nat) : Except Error (List Span) := do
  checkWorkers workers
  return slices (total / workers) (strategy.extra total workers) workers 0 0

theorem length_slices (chunk extra count index start : Nat) :
    (slices chunk extra count index start).length = count := by
  induction count generalizing index start with
  | zero => rfl
  | succ count ih => simp [slices, ih]

end ParallelFilter
