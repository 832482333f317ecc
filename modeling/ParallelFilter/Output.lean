import ParallelFilter.Report
import ParallelFilter.Error

/-! What a finished job produced: the values in the order in which they were drained, the report, and
the ranges. -/

namespace ParallelFilter

structure Output where
  values : List Nat
  report : Report
  ranges : List Span
  deriving DecidableEq

namespace Output

/-- How many units the workers were given. -/
def covered (output : Output) : Nat :=
  Span.covered output.ranges

/-- The values that lie in each of the ranges, in the order in which they were drained. -/
def byRange (output : Output) : List (List Nat) :=
  output.ranges.map fun range => output.values.filter range.contains

/-- The values of a job that ran to its end. Faults come first, with the values that were drained all
the same; a cancellation comes second. -/
def result (output : Output) : Except Error (List Nat) :=
  if output.report.faults ≠ [] then .error (.workerFaults output.report.faults output.values)
  else if output.report.wasCancelled then .error .cancelled
  else .ok output.values

theorem result_eq_ok {output : Output} {values : List Nat} :
    output.result = .ok values ↔
      output.report.faults = [] ∧ output.report.wasCancelled = false ∧ output.values = values := by
  unfold result
  split
  · rename_i hfaults
    simp only [reduceCtorEq, hfaults, false_and]
  · rename_i hfaults
    have hfaults := Decidable.of_not_not hfaults
    split
    · rename_i hcancelled
      simp only [reduceCtorEq, hcancelled, Bool.true_eq_false, false_and, and_false]
    · rename_i hcancelled
      rw [Except.ok.injEq, and_iff_right hfaults, and_iff_right (Bool.eq_false_iff.mpr hcancelled)]

theorem result_eq_cancelled {output : Output} :
    output.result = .error .cancelled ↔ output.report.faults = [] ∧
      output.report.wasCancelled = true := by
  unfold result
  split
  · rename_i hfaults
    simp only [Except.error.injEq, reduceCtorEq, hfaults, false_and]
  · rename_i hfaults
    have hfaults := Decidable.of_not_not hfaults
    split
    · rename_i hcancelled
      simp only [hfaults, hcancelled, and_self]
    · rename_i hcancelled
      simp only [reduceCtorEq, hcancelled, and_false]

theorem result_eq_workerFaults {output : Output} {faults : List Fault} {values : List Nat} :
    output.result = .error (.workerFaults faults values) ↔
      output.report.faults ≠ [] ∧ output.report.faults = faults ∧ output.values = values := by
  unfold result
  split
  · rename_i hfaults
    rw [Except.error.injEq, Error.workerFaults.injEq, and_iff_right hfaults]
  · rename_i hfaults
    rw [iff_false_intro hfaults, false_and, iff_false]
    split <;> simp

end Output

end ParallelFilter
