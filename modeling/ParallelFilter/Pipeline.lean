import ParallelFilter.Job
import ParallelFilter.Output
import ParallelFilter.Pool.Schedule

/-! Jobs from start to finish. A pipeline has settings that were checked and a token above the tokens of
its jobs. Starting a job splits its total, makes the result channel and the pool; finishing it drains
what is left and waits for the pool. -/

namespace ParallelFilter

structure Pipeline where
  settings : Settings
  settings_valid : settings.validate = .ok ()
  /-- Whether the pipeline was shut down. -/
  isShutdown : Bool

/-- A job whose workers were started. -/
structure Execution where
  ranges : List Span
  rules : Rules
  pool : Pool

namespace Execution

/-- Waits for up to `count` values. Fewer come only when the drain has ended. -/
def receive (job : Execution) (count : Nat) : List Nat × Option Polled × Execution :=
  match job with
  | ⟨ranges, rules, pool⟩ =>
    match pool.receive rules count #[] with
    | (values, ended, pool) => (values.toList, ended, ⟨ranges, rules, pool⟩)

def cancel (scope : Scope) (job : Execution) : Execution :=
  { job with pool.token := job.pool.token.cancel scope }

def dropDrain (job : Execution) : Execution :=
  { job with pool.link := job.pool.link.dropDrain }

/-- All values still to come, and how the drain ended. -/
def collect (job : Execution) : List Nat × Polled × Execution :=
  match job with
  | ⟨ranges, rules, pool⟩ =>
    match pool.drain rules #[] with
    | (values, ended, pool) => (values.toList, ended, ⟨ranges, rules, pool⟩)

/-- Waits for the report. It is `none` when the workers can never finish. -/
def report (job : Execution) : Option (Except Error Report) × Execution :=
  match job with
  | ⟨ranges, rules, pool⟩ =>
    match pool.settle rules with
    | (result, pool) => (result, ⟨ranges, rules, pool⟩)

/-- Drains what is left, drops the drain, and waits for the report. An error of the pool comes before a
violation that the drain has seen. -/
def finish (job : Execution) : Option (Except Error Output) :=
  match job.collect with
  | (values, ended, drained) =>
    match ended with
    | .pending | .value _ => none
    | .finished => drained.dropDrain.report.1.map fun result => do
        return ⟨values, ← result, job.ranges⟩
    | .violation fault => drained.dropDrain.report.1.map fun result => do
        let _ ← result
        throw (.orderingViolation fault)

theorem receive_eq (job : Execution) (count : Nat) : job.receive count =
    ((job.pool.receive job.rules count #[]).1.toList, (job.pool.receive job.rules count #[]).2.1,
      { job with pool := (job.pool.receive job.rules count #[]).2.2 }) := rfl

theorem collect_eq (job : Execution) : job.collect =
    ((job.pool.drain job.rules #[]).1.toList, (job.pool.drain job.rules #[]).2.1,
      { job with pool := (job.pool.drain job.rules #[]).2.2 }) := rfl

theorem report_eq (job : Execution) : job.report =
    ((job.pool.settle job.rules).1, { job with pool := (job.pool.settle job.rules).2 }) := rfl

end Execution

namespace Pipeline

/-- A pipeline, refused if its settings are. -/
def make (settings : Settings) : Except Error Pipeline :=
  match h : settings.validate with
  | .ok () => .ok ⟨settings, h, false⟩
  | .error error => .error error

def shutdown (pipeline : Pipeline) : Pipeline :=
  { pipeline with isShutdown := true }

/-- Starts a job. Without a runtime to start workers on it is refused before anything else is looked
at. -/
def start (pipeline : Pipeline) (job : Job) (inRuntime : Bool) : Except Error Execution := do
  if !inRuntime then throw (.runtime .absent)
  let settings := pipeline.settings
  let ranges ← partition settings.strategy job.total job.workers
  let link ← ResultChannel.make settings.capacity ranges.length
  let pool ← Pool.start ranges link { pool := pipeline.isShutdown }
  return ⟨ranges, .ofSettings settings job.predicate, pool⟩

theorem start_eq_ok {pipeline : Pipeline} {job : Job} {execution : Execution}
    (h : pipeline.start job true = .ok execution) :
    ∃ ranges link pool,
      partition pipeline.settings.strategy job.total job.workers = .ok ranges ∧
      ResultChannel.make pipeline.settings.capacity ranges.length = .ok link ∧
      Pool.start ranges link { pool := pipeline.isShutdown } = .ok pool ∧
      execution = ⟨ranges, .ofSettings pipeline.settings job.predicate, pool⟩ := by
  simp only [start, bind, Except.bind, pure, Except.pure, Bool.not_true, Bool.false_eq_true,
    if_false] at h
  split at h
  · cases h
  · rename_i ranges hranges
    split at h
    · cases h
    · rename_i link hlink
      split at h
      · cases h
      · rename_i pool hpool
        cases h
        exact ⟨ranges, link, pool, hranges, hlink, hpool, rfl⟩

/-- Runs a job to its end. It is `none` when the job can never finish. -/
def run (pipeline : Pipeline) (job : Job) : Option (Except Error Output) :=
  match pipeline.start job true with
  | .error error => some (.error error)
  | .ok running => running.finish

/-- Runs a job to its end and gives its values; the blocking form, refused inside a runtime. -/
def runBlocking (settings : Settings) (job : Job) (inRuntime : Bool) :
    Option (Except Error (List Nat)) :=
  match make settings with
  | .error error => some (.error error)
  | .ok pipeline =>
    if inRuntime then some (.error (.runtime .nested))
    else (pipeline.run job).map fun output => output.bind Output.result

end Pipeline

end ParallelFilter
