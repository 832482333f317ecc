import ParallelFilter.Fault

/-! What is known about a job when its workers have stopped: how each worker's run ended, and the faults
on the way. -/

namespace ParallelFilter

/-- How a worker's run ended. -/
inductive Status where
  /-- The whole range was evaluated. -/
  | completed
  /-- The job was cancelled first. -/
  | cancelled
  /-- The drain was gone, so there was nobody to send to. -/
  | disconnected
  /-- The predicate failed or panicked. -/
  | faulted
  deriving DecidableEq

structure WorkerSummary where
  worker : Nat
  range : Span
  /-- How many values the predicate decided. -/
  evaluated : Nat
  /-- How many values were sent. -/
  accepted : Nat
  status : Status
  deriving DecidableEq

/-- What a worker leaves when it is gone. -/
structure WorkerOutcome where
  summary : WorkerSummary
  fault : Option Fault
  deriving DecidableEq

structure Report where
  workers : List WorkerSummary
  faults : List Fault
  deriving DecidableEq

namespace Report

/-- The report on the outcomes of all workers, which came in any order: the workers by their ids, the
faults in the order in which they came. -/
def ofOutcomes (outcomes : List WorkerOutcome) : Report :=
  ⟨(outcomes.map (·.summary)).mergeSort fun left right => left.worker ≤ right.worker,
    outcomes.filterMap (·.fault)⟩

def accepted (report : Report) : Nat :=
  (report.workers.map (·.accepted)).foldr (· + ·) 0

def evaluated (report : Report) : Nat :=
  (report.workers.map (·.evaluated)).foldr (· + ·) 0

/-- Whether some worker stopped because of a cancellation. -/
def wasCancelled (report : Report) : Bool :=
  report.workers.any (·.status == .cancelled)

/-- It does not matter in which order the outcomes came. -/
theorem wasCancelled_ofOutcomes (outcomes : List WorkerOutcome) :
    (ofOutcomes outcomes).wasCancelled = outcomes.any (·.summary.status == .cancelled) := by
  rw [wasCancelled, ofOutcomes, (List.mergeSort_perm _ _).any_eq, List.any_map]
  rfl

/-- Whether every worker evaluated its whole range. -/
def isComplete (report : Report) : Bool :=
  report.workers.all (·.status == .completed)

/-- The same report with its faults ordered by worker. -/
def sortFaults (report : Report) : Report :=
  { report with faults := Fault.sort report.faults }

end Report

end ParallelFilter
