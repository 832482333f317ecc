import ParallelFilter.Pipeline

/-! Running jobs in the hands of their caller, one move at a time. The caller may take values from
the drain before the job is finished. Finishing it drains what is left, drops the drain once it has
ended, and waits for the report. The workers, the closer, those who join and whoever cancels move in
between, in any order; `Execution.finish` is the order of a single thread. -/

namespace ParallelFilter

/-- How far a job is finished. -/
inductive Stage where
  /-- Nobody has begun to finish it. -/
  | held
  /-- What is left is drained. -/
  | draining
  /-- The drain was dropped, and the report is waited for. -/
  | settling
  deriving DecidableEq

structure Session where
  job : Execution
  stage : Stage
  /-- What the caller took from the drain before the job was finished, oldest first. -/
  taken : List Nat
  /-- What was drained to finish the job, oldest first. -/
  values : List Nat
  /-- The violation with which the drain ended meanwhile. -/
  violation : Option OrderingFault

namespace Session

inductive Event where
  /-- A move without the caller: of the workers, the closer, those who join, or whoever cancels. -/
  | behind (event : ParallelFilter.Event)
  /-- The drain is asked for a value, by the caller or to finish the job. -/
  | receive
  /-- The caller begins to finish the job. -/
  | finish
  /-- The drain, which has ended, is dropped. -/
  | leave
  deriving DecidableEq

def ofExecution (job : Execution) : Session :=
  ⟨job, .held, [], [], none⟩

/-- Keeps what the drain has answered. -/
def note (session : Session) (pool : Pool) : Polled → Session
  | .value value =>
    match session.stage with
    | .held => { session with job.pool := pool, taken := session.taken ++ [value] }
    | .draining | .settling => { session with job.pool := pool, values := session.values ++ [value] }
  | .violation fault =>
    match session.stage with
    | .held => { session with job.pool := pool }
    | .draining | .settling => { session with job.pool := pool, violation := some fault }
  | .finished | .pending => { session with job.pool := pool }

def step (session : Session) : Event → Option Session
  | .behind event =>
    if event = .receive ∨ event = .dropDrain then none
    else (session.job.pool.step session.job.rules event).map fun pool =>
      { session with job.pool := pool }
  | .receive =>
    if session.stage = .settling then none
    else (session.job.pool.step session.job.rules .receive).map fun pool =>
      session.note pool session.job.pool.link.poll.1
  | .finish => if session.stage = .held then some { session with stage := .draining } else none
  | .leave =>
    if session.stage = .draining ∧ session.job.pool.link.finished then
      (session.job.pool.step session.job.rules .dropDrain).map fun pool =>
        { session with job.pool := pool, stage := .settling }
    else none

/-- The session after the events, if they can happen one after another. -/
def follow (session : Session) (events : List Event) : Option Session :=
  events.foldlM step session

/-- What finishing the job gives, once the pool has its result. An error of the pool comes before a
violation. -/
def output? (session : Session) : Option (Except Error Output) :=
  match session.stage with
  | .held | .draining => none
  | .settling => session.job.pool.result?.map fun result => do
    let report ← result
    match session.violation with
    | some fault => throw (.orderingViolation fault)
    | none => return ⟨session.values, report, session.job.ranges⟩

end Session

end ParallelFilter
