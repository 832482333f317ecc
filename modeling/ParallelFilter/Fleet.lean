import ParallelFilter.Session

/-! All jobs of one pipeline, side by side. They share the pipeline's token and nothing else: each
job has workers, a channel and a drain of its own, and a token of its own below the pipeline's. Jobs
are started, moved on, cancelled and left by their callers in any order, and the pipeline may be
shut down at any time. -/

namespace ParallelFilter

namespace Session

/-- What may happen to one job of several. -/
inductive Touch where
  | go (event : Event)
  /-- The job is cancelled through its handle or through a clone of its token, be it for the first
  time or not. -/
  | cancel
  /-- The drain is dropped before the job was finished, be it for the first time or not. -/
  | dropDrain
  deriving DecidableEq

/-- The session after the touch, if the touch can happen. -/
def touch (session : Session) : Touch → Option Session
  | .go event => session.step event
  | .cancel => some { session with job := session.job.cancel .job }
  | .dropDrain => some { session with job := session.job.dropDrain }

/-- The session with the pipeline's token as it is now. -/
def share (session : Session) (isShutdown : Bool) : Session :=
  { session with job.pool.token.pool := isShutdown }

end Session

structure Fleet where
  pipeline : Pipeline
  /-- The jobs that were started, in this order. The pipeline's token is looked up with a job, so
  what is stored of it here is not read. -/
  sessions : Array Session

namespace Fleet

inductive Event where
  /-- A job is started, or refused. -/
  | start (job : Job) (inRuntime : Bool)
  /-- The pipeline is shut down, by itself or through the token that it was given. -/
  | shutdown
  | touch (index : Nat) (touch : Session.Touch)

def ofPipeline (pipeline : Pipeline) : Fleet :=
  ⟨pipeline, #[]⟩

/-- The job with the given number, if it was started. -/
def session? (fleet : Fleet) (index : Nat) : Option Session :=
  fleet.sessions[index]?.map fun session => session.share fleet.pipeline.isShutdown

/-- Stores a job that was looked up and touched. If it has cancelled the pipeline's token, it has
done so for all. -/
def put (fleet : Fleet) (index : Nat) (session : Session) : Fleet where
  pipeline := { fleet.pipeline with isShutdown := session.job.pool.token.pool }
  sessions := fleet.sessions.setIfInBounds index session

/-- One more job, which has just been started. -/
def enroll (fleet : Fleet) (execution : Execution) : Fleet :=
  { fleet with sessions := fleet.sessions.push (.ofExecution execution) }

/-- A job that is refused leaves everything as it is. -/
def start (fleet : Fleet) (job : Job) (inRuntime : Bool) : Fleet :=
  match fleet.pipeline.start job inRuntime with
  | .ok execution => fleet.enroll execution
  | .error _ => fleet

def shutdown (fleet : Fleet) : Fleet :=
  { fleet with pipeline := fleet.pipeline.shutdown }

/-- The fleet after the event, if the event can happen. -/
def step (fleet : Fleet) : Event → Option Fleet
  | .start job inRuntime => some (fleet.start job inRuntime)
  | .shutdown => some fleet.shutdown
  | .touch index touch =>
    (fleet.session? index).bind fun session => (session.touch touch).map (fleet.put index)

/-- The fleet after the events, if they can happen one after another. -/
def follow (fleet : Fleet) (events : List Event) : Option Fleet :=
  events.foldlM step fleet

end Fleet

end ParallelFilter
