import ParallelFilter.Command.Invocation
import ParallelFilter.Pipeline

/-! The filter command: it runs one job, tells how many values matched, and, if asked, counts the
matches once more one after another and prints them. -/

namespace ParallelFilter.Command

/-- Why a command failed. -/
inductive Failure where
  /-- The job could not be run. -/
  | job (error : Error)
  /-- The job was run, and not to its end. -/
  | incomplete (error : Error)
  /-- The two counts differ. -/
  | countsDiffer (parallel sequential : Nat)
  deriving DecidableEq

def Failure.message : Failure → String
  | .job error => error.message
  | .incomplete error => "filter job did not complete: " ++ error.message
  | .countsDiffer parallel sequential =>
    "pipeline accepted " ++ toString parallel ++ " values but the sequential loop accepted " ++
      toString sequential

/-- What a command printed, and whether it failed. -/
structure Transcript where
  lines : List String
  failure : Option Failure

/-- The printed text: each line ends with a line feed. -/
def Transcript.printed (transcript : Transcript) : String :=
  String.join (transcript.lines.map fun line => line ++ "\n")

/-- How many numbers below `bound` are accepted. -/
def countBelow (accepts : Nat → Bool) (bound : Nat) : Nat :=
  bound.fold (fun value _ count => if accepts value then count + 1 else count) 0

/-- A filter job that was run. -/
structure FilterOutcome where
  output : Output
  sequential : Option Nat

namespace FilterOutcome

/-- A job that has given its output, and the count for comparison if it was asked for. -/
def ofOutput (request : FilterRequest) (output : Output) : FilterOutcome where
  output
  sequential :=
    if request.compareSequential then some (countBelow request.predicate.accepts output.covered)
      else none

/-- The lines of the report. The times are given: that of the job, and that of the sequential count. -/
def report (run : FilterOutcome) (request : FilterRequest) (workers : Nat)
    (jobTime countTime : String) :
    List String :=
  let covered := run.output.covered
  [toString run.output.values.length ++ " of " ++ toString covered ++ " values matched " ++
    request.predicate.title ++ " on " ++ toString workers ++ " workers in " ++ jobTime] ++
  (if covered < request.total then
    [toString (request.total - covered) ++ " trailing values were not assigned to any worker"]
  else []) ++
  run.output.report.faults.map (fun fault => "fault: " ++ fault.text) ++
  (match run.sequential with
    | some count => ["sequential: " ++ toString count ++ " values in " ++ countTime]
    | none => []) ++
  (if request.print then (run.output.values.mergeSort (· ≤ ·)).map toString else [])

/-- Whether the run failed. The counts are compared only when every worker went through its range. -/
def failure? (run : FilterOutcome) : Option Failure :=
  let accepted := run.output.values.length
  let report := run.output.report
  let differing := run.sequential.filter fun count =>
    report.faults.isEmpty && !report.wasCancelled && count != accepted
  match differing with
  | some count => some (.countsDiffer accepted count)
  | none =>
    match run.output.result with
    | .ok _ => none
    | .error error => some (.incomplete error)

end FilterOutcome

/-- Starts the job of a request on a pipeline that may be shut down already. -/
def startFilter (settings : Settings) (request : FilterRequest) (workers : Nat) (isShutdown : Bool) :
    Except Error Execution := do
  let pipeline ← Pipeline.make settings
  let job ← Job.make request.total workers (Predicate.ofBool request.predicate.accepts)
  { pipeline with isShutdown }.start job true

/-- Runs the job of a request to its end. It is `none` when the job can never finish. -/
def runFilter (settings : Settings) (request : FilterRequest) (workers : Nat) (isShutdown : Bool) :
    Option (Except Error FilterOutcome) :=
  match startFilter settings request workers isShutdown with
  | .error error => some (.error error)
  | .ok running => running.finish.map fun output => output.map (.ofOutput request)

/-- What the filter command prints, and whether it fails. -/
def filterTranscript (settings : Settings) (request : FilterRequest) (workers : Nat)
    (isShutdown : Bool) (jobTime countTime : String) : Option Transcript :=
  (runFilter settings request workers isShutdown).map fun
    | .error error => ⟨[], some (.job error)⟩
    | .ok run => ⟨run.report request workers jobTime countTime, run.failure?⟩

end ParallelFilter.Command
