import ParallelFilter.Fault

/-! What can go wrong with a job, as causes, and the text of each cause. -/

namespace ParallelFilter

/-- The largest number of workers that a job, a partition or a result channel accepts. -/
def maxWorkers : Nat := 65536

/-- The largest number of places that a channel can count. -/
def maxCapacity : Nat := 2305843009213693951

/-- Why an argument was refused. -/
inductive ArgumentFault where
  | noWorkers
  | tooManyWorkers (workers : Nat)
  | noCapacity
  | noYieldInterval
  | reversedRange (start stop : Nat)
  | rangeCount (ranges workers : Nat)
  | noChannels
  | other (reason : String)
  deriving DecidableEq

def ArgumentFault.message : ArgumentFault → String
  | .noWorkers => "worker count must be greater than 0"
  | .tooManyWorkers workers =>
    "worker count " ++ toString workers ++ " exceeds the maximum of " ++ toString maxWorkers
  | .noCapacity => "channel capacity must be greater than 0"
  | .noYieldInterval => "yield interval must be greater than 0"
  | .reversedRange start stop =>
    "range start " ++ toString start ++ " is past its end " ++ toString stop
  | .rangeCount ranges workers =>
    toString ranges ++ " ranges for a channel sized for " ++ toString workers ++ " workers"
  | .noChannels => "multiplexer has no channels"
  | .other reason => reason

/-- How the order in which workers finish and the channel closes can be broken. -/
inductive OrderingFault where
  /-- The channel was found closed while workers still held their tickets. -/
  | closedEarly (arrived expected : Nat)
  /-- Every worker ended, and some of them never arrived at the barrier. -/
  | unarrived (arrived expected : Nat)
  | other (context : String)
  deriving DecidableEq

def OrderingFault.message : OrderingFault → String
  | .closedEarly arrived expected =>
    "result channel closed after " ++ toString arrived ++ " of " ++ toString expected ++
      " workers finished"
  | .unarrived arrived expected =>
    "all worker tasks ended but only " ++ toString arrived ++ " of " ++ toString expected ++
      " arrived"
  | .other context => context

/-- Why no workers could be started where the call was made. -/
inductive RuntimeFault where
  /-- There is no runtime to start workers on. -/
  | absent
  /-- A blocking call was made from inside a runtime. -/
  | nested
  | other (context : String)
  deriving DecidableEq

def RuntimeFault.message : RuntimeFault → String
  | .absent =>
    "no Tokio runtime to start workers on: there is no reactor running, must be called from the " ++
      "context of a Tokio 1.x runtime"
  | .nested => "cannot block inside an async runtime, use Pipeline::run instead"
  | .other context => context

inductive Error where
  | invalidArgument (fault : ArgumentFault)
  | orderingViolation (fault : OrderingFault)
  /-- Some workers faulted; `accepted` holds the values that were drained all the same. -/
  | workerFaults (faults : List Fault) (accepted : List Nat)
  | cancelled
  | runtime (fault : RuntimeFault)
  | channel (context : String)
  /-- A channel with more than `maxCapacity` places was asked for, which ends the call at once. -/
  | capacityOverflow
  deriving DecidableEq

def Error.message : Error → String
  | .invalidArgument fault => "Invalid argument: " ++ fault.message
  | .orderingViolation fault => "Ordering violation: " ++ fault.message
  | .workerFaults faults _ =>
    toString faults.length ++ " worker fault(s); first: " ++
      ((faults.head?.map Fault.text).getD "none")
  | .cancelled => "Job cancelled"
  | .runtime fault => "Runtime error: " ++ fault.message
  | .channel context => "Channel error: " ++ context
  | .capacityOverflow =>
    "a semaphore may not have more than MAX_PERMITS permits (" ++ toString maxCapacity ++ ")"

/-- A worker count is accepted from one to `maxWorkers`. -/
def checkWorkers (workers : Nat) : Except Error Unit :=
  if workers = 0 then .error (.invalidArgument .noWorkers)
  else if maxWorkers < workers then .error (.invalidArgument (.tooManyWorkers workers))
  else .ok ()

/-- The range from `start` to `stop`, refused if it runs backwards. -/
def Span.make (start stop : Nat) : Except Error Span :=
  if start_le_stop : start ≤ stop then .ok ⟨start, stop, start_le_stop⟩
  else .error (.invalidArgument (.reversedRange start stop))

theorem checkWorkers_eq_ok {workers : Nat} :
    checkWorkers workers = .ok () ↔ 0 < workers ∧ workers ≤ maxWorkers := by
  unfold checkWorkers
  split
  · simp [*]
  · split <;> simp <;> omega

end ParallelFilter
