import ParallelFilter.Span

/-! Faults: what is recorded when a predicate fails or panics on a value. A failure names the value; a
panic does not carry it. -/

namespace ParallelFilter

structure Fault where
  worker : Nat
  range : Span
  /-- The value that was being evaluated, unless the predicate panicked. -/
  value : Option Nat
  reason : String
  deriving DecidableEq

namespace Fault

def text (fault : Fault) : String :=
  "worker " ++ toString fault.worker ++ " on " ++ fault.range.text ++ " failed" ++
    (match fault.value with
      | some value => " at " ++ toString value
      | none => "") ++
    ": " ++ fault.reason

/-- The faults ordered by worker; those of one worker keep their order. -/
def sort (faults : List Fault) : List Fault :=
  faults.mergeSort fun left right => left.worker ≤ right.worker

end Fault

end ParallelFilter
