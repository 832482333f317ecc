import ParallelFilter.ResultChannel
import ParallelFilter.Report
import ParallelFilter.Token

/-! One worker and what it can see: its range and counts, the result channel, and the job's token. A
worker goes through its range in ascending order, evaluates each value and sends those that are
accepted. It is suspended in two places only: while the channel is full, and after every so many
evaluations, to give way to the others. Each move of a worker is one `Station.step`; moves of other
workers, of the drain and of whoever cancels may come between any two of them, so also between the
look at the token at the head of the loop and the call of the predicate that follows it. -/

namespace ParallelFilter

/-- What all workers of a job go by. -/
structure Rules where
  predicate : Predicate
  /-- A worker gives way after this many evaluations. -/
  yieldInterval : Nat
  yieldInterval_pos : 0 < yieldInterval
  failFast : Bool

/-- The rules that the workers of a job go by. A yield interval of zero counts as one. -/
def Rules.ofSettings (settings : Settings) (predicate : Predicate) : Rules where
  predicate
  yieldInterval := max settings.yieldInterval 1
  yieldInterval_pos := by omega
  failFast := settings.failFast

/-- Why a worker stopped. -/
inductive Ending where
  | completed
  | cancelled
  | disconnected
  | failed (reason : String)
  | panicked (payload : PanicPayload)
  deriving DecidableEq

def Ending.status : Ending → Status
  | .completed => .completed
  | .cancelled => .cancelled
  | .disconnected => .disconnected
  | .failed _ | .panicked _ => .faulted

/-- What a stopped worker still has to give up, in this order. -/
inductive Remains where
  /-- Its sender, its ticket and its outcome. -/
  | sender
  /-- Its ticket and its outcome. -/
  | ticket
  /-- The cancellation of its job, and its outcome. -/
  | alarm
  /-- Its outcome, for whoever joins it. -/
  | outcome
  | nothing
  deriving DecidableEq

/-- What is left of a stopped worker when its ticket is gone. A panic is caught only then, so under
fail-fast it cancels the job so late; a failure has cancelled the job before. -/
def Ending.afterTicket (rules : Rules) : Ending → Remains
  | .panicked _ => if rules.failFast then .alarm else .outcome
  | _ => .outcome

/-- Where a worker stands between two moves. -/
inductive Phase where
  /-- At the head of its loop. -/
  | ready
  /-- Has looked at the token, and calls the predicate on its next value. -/
  | evaluating
  /-- Has accepted a value and not yet offered it to the channel. -/
  | offering (value : Nat)
  /-- Suspended, with an accepted value that the channel had no room for. -/
  | waiting (value : Nat)
  /-- Suspended to give way. -/
  | yielding
  | stopped (ending : Ending) (remains : Remains)
  deriving DecidableEq

structure Worker where
  id : Nat
  range : Span
  /-- How many values the predicate has decided. -/
  evaluated : Nat
  /-- How many values were sent. -/
  accepted : Nat
  phase : Phase
  deriving DecidableEq

namespace Worker

def ofRange (id : Nat) (range : Span) : Worker :=
  ⟨id, range, 0, 0, .ready⟩

/-- The value that is evaluated next. -/
def next (worker : Worker) : Nat :=
  worker.range.start + worker.evaluated

/-- How many values have not been evaluated yet. -/
def remaining (worker : Worker) : Nat :=
  worker.range.length - worker.evaluated

/-- Whether the worker still has moves of its own before it is suspended or has given up all it held. -/
def isActive (worker : Worker) : Bool :=
  match worker.phase with
  | .ready | .evaluating | .offering _ | .stopped _ .sender | .stopped _ .ticket
  | .stopped _ .alarm => true
  | .waiting _ | .yielding | .stopped _ .outcome | .stopped _ .nothing => false

/-- Whether the worker is suspended with an accepted value in hand. -/
def isWaiting (worker : Worker) : Bool :=
  match worker.phase with
  | .waiting _ => true
  | _ => false

/-- Whether the worker has given up all it held but its outcome. -/
def isGone (worker : Worker) : Bool :=
  match worker.phase with
  | .stopped _ .outcome | .stopped _ .nothing => true
  | _ => false

/-- Whether the worker's outcome was collected. -/
def isJoined (worker : Worker) : Bool :=
  match worker.phase with
  | .stopped _ .nothing => true
  | _ => false

/-- A bound on the worker's moves to come: every move that changes the worker lowers it. -/
def work (worker : Worker) : Nat :=
  match worker.phase with
  | .evaluating => 5 * (worker.remaining - 1) + 9
  | .ready => 5 * worker.remaining + 5
  | .yielding => 5 * worker.remaining + 6
  | .waiting _ => 5 * worker.remaining + 7
  | .offering _ => 5 * worker.remaining + 8
  | .stopped _ .sender => 4
  | .stopped _ .ticket => 3
  | .stopped _ .alarm => 2
  | .stopped _ .outcome => 1
  | .stopped _ .nothing => 0

/-- Why the worker stopped, if it has. -/
def ending? (worker : Worker) : Option Ending :=
  match worker.phase with
  | .stopped ending _ => some ending
  | _ => none

/-- The report of a stopped worker. -/
def report? (worker : Worker) : Option WorkerSummary :=
  worker.ending?.map fun ending =>
    ⟨worker.id, worker.range, worker.evaluated, worker.accepted, ending.status⟩

/-- The fault of a stopped worker: the value that was evaluated last for a failure, no value for a
panic. -/
def fault? (worker : Worker) : Option Fault :=
  match worker.ending? with
  | some (.failed reason) => some ⟨worker.id, worker.range, some worker.next, reason⟩
  | some (.panicked payload) =>
    some ⟨worker.id, worker.range, none, "panicked: " ++ payload.message⟩
  | _ => none

/-- What the worker leaves to whoever joins it, and the worker without it. -/
def join? (worker : Worker) : Option (WorkerOutcome × Worker) :=
  match worker.phase with
  | .stopped ending .outcome =>
    worker.report?.map fun summary =>
      (⟨summary, worker.fault?⟩, { worker with phase := .stopped ending .nothing })
  | _ => none

end Worker

/-- A worker at its place: the worker, the result channel it sends to, and the token it looks at. -/
structure Station where
  worker : Worker
  link : ResultChannel
  token : Token

namespace Station

/-- Where a worker goes when it is done with a value. -/
def afterValue (rules : Rules) (evaluated : Nat) : Phase :=
  if evaluated % rules.yieldInterval = 0 then .yielding else .ready

/-- Stops the worker; it still holds its sender and its ticket. -/
def stop : Station → Ending → Station
  | ⟨worker, link, token⟩, ending => ⟨{ worker with phase := .stopped ending .sender }, link, token⟩

/-- Calls the predicate on the next value. -/
def evaluate (rules : Rules) : Station → Station
  | ⟨worker, link, token⟩ =>
    match rules.predicate worker.next with
    | .failed reason =>
      stop ⟨worker, link, if rules.failFast then token.cancel .job else token⟩ (.failed reason)
    | .panicked payload => stop ⟨worker, link, token⟩ (.panicked payload)
    | .decided accepted cancels =>
      let evaluated := worker.evaluated + 1
      let phase := if accepted then .offering worker.next else afterValue rules evaluated
      ⟨{ worker with evaluated, phase }, link, token.cancel? cancels⟩

/-- Offers an accepted value to the channel; `blocked` tells what to do when there is no room. -/
def send (rules : Rules) : Station → (value : Nat) → (blocked : Station → Station) → Station
  | ⟨worker, ⟨channel, barrier, received, finished⟩, token⟩, value, blocked =>
    match channel.offer value with
    | .sent sent =>
      ⟨{ worker with
          accepted := worker.accepted + 1
          phase := afterValue rules worker.evaluated },
        ⟨sent, barrier, received, finished⟩, token⟩
    | .closed => stop ⟨worker, ⟨channel, barrier, received, finished⟩, token⟩ .disconnected
    | .full => blocked ⟨worker, ⟨channel, barrier, received, finished⟩, token⟩

/-- Suspends the worker until there is room, unless the job is cancelled already. -/
def await (value : Nat) : Station → Station
  | ⟨worker, link, token⟩ =>
    if token.isCancelled then stop ⟨worker, link, token⟩ .cancelled
    else ⟨{ worker with phase := .waiting value }, link, token⟩

/-- One move of the worker. At the head of the loop the end of the range is looked for first and the
cancellation second. A value in hand is first offered without a look at the token; once it had to
wait, the token is looked at first. A suspended worker that finds no room stays where it is. -/
def step (rules : Rules) (station : Station) : Station :=
  match station.worker.phase with
  | .ready =>
    if station.worker.evaluated < station.worker.range.length then
      if station.token.isCancelled then station.stop .cancelled
      else { station with worker.phase := .evaluating }
    else station.stop .completed
  | .evaluating => station.evaluate rules
  | .offering value => station.send rules value (await value)
  | .waiting value =>
    if station.token.isCancelled then station.stop .cancelled
    else station.send rules value id
  | .yielding => { station with worker.phase := .ready }
  | .stopped ending .sender =>
    match station with
    | ⟨worker, link, token⟩ =>
      ⟨{ worker with phase := .stopped ending .ticket }, link.dropSender, token⟩
  | .stopped ending .ticket =>
    match station with
    | ⟨worker, link, token⟩ =>
      ⟨{ worker with phase := .stopped ending (ending.afterTicket rules) }, link.dropTicket, token⟩
  | .stopped ending .alarm =>
    match station with
    | ⟨worker, link, token⟩ =>
      ⟨{ worker with phase := .stopped ending .outcome }, link, token.cancel .job⟩
  | .stopped _ .outcome | .stopped _ .nothing => station

/-- Whether a move would leave the worker as it is: it is parked on a full channel, or it is gone. -/
def isBlocked (station : Station) : Bool :=
  match station.worker.phase with
  | .waiting _ => !station.token.isCancelled && station.link.channel.isFull
  | .stopped _ .outcome | .stopped _ .nothing => true
  | _ => false

theorem work_stop (station : Station) (ending : Ending) : (station.stop ending).worker.work = 4 := rfl

theorem work_afterValue_le (rules : Rules) (worker : Worker) (evaluated accepted n : Nat)
    (h : worker.range.length - evaluated ≤ n) :
    ({ worker with evaluated, accepted, phase := afterValue rules evaluated } : Worker).work ≤
      5 * n + 6 := by
  unfold afterValue
  split <;> simp [Worker.work, Worker.remaining] <;> omega

theorem work_await_lt (value : Nat) (station : Station) :
    (await value station).worker.work < 5 * station.worker.remaining + 8 := by
  obtain ⟨worker, link, token⟩ := station
  simp only [await]
  split
  · rw [work_stop]; omega
  · simp [Worker.work, Worker.remaining]

theorem work_send_lt (rules : Rules) (station : Station) (value : Nat) (blocked : Station → Station)
    (n : Nat) (hn : 5 * station.worker.remaining + 6 < n)
    (h : (blocked station).worker.work < n) :
    (station.send rules value blocked).worker.work < n := by
  obtain ⟨worker, ⟨channel, barrier, received, finished⟩, token⟩ := station
  simp only [send]
  split
  · refine Nat.lt_of_le_of_lt (work_afterValue_le rules worker _ _ worker.remaining ?_) hn
    simp [Worker.remaining]
  · rw [work_stop]; omega
  · exact h

/-- While a worker is active, each move brings it nearer to its end. -/
theorem work_step_lt (rules : Rules) (station : Station) (h : station.worker.isActive = true) :
    (station.step rules).worker.work < station.worker.work := by
  obtain ⟨⟨id, range, evaluated, accepted, phase⟩, link, token⟩ := station
  cases phase with
  | ready =>
    simp only [step]
    split
    · split
      · rw [work_stop]; simp only [Worker.work]; omega
      · simp only [Worker.work, Worker.remaining]; omega
    · rw [work_stop]; simp only [Worker.work]; omega
  | evaluating =>
    simp only [step, evaluate]
    split
    · rw [work_stop]; simp only [Worker.work]; omega
    · rw [work_stop]; simp only [Worker.work]; omega
    · split
      · simp only [Worker.work, Worker.remaining]; omega
      · refine Nat.lt_of_le_of_lt
          (work_afterValue_le rules ⟨id, range, evaluated, accepted, .evaluating⟩
            (evaluated + 1) accepted
            (range.length - (evaluated + 1)) (Nat.le_refl _)) ?_
        simp only [Worker.work, Worker.remaining]; omega
  | offering value =>
    refine work_send_lt rules _ value _ _ ?_ (work_await_lt value _)
    simp [Worker.work, Worker.remaining]
  | waiting value => simp [Worker.isActive] at h
  | yielding => simp [Worker.isActive] at h
  | stopped ending remains =>
    cases remains with
    | sender => simp [step, Worker.work]
    | ticket =>
      simp only [step, Ending.afterTicket, Worker.work]
      cases ending <;> simp
      cases rules.failFast <;> simp
    | alarm => simp [step, Worker.work]
    | outcome => simp [Worker.isActive] at h
    | nothing => simp [Worker.isActive] at h

/-- The moves of a worker until it is suspended or gone. -/
def run (rules : Rules) (station : Station) : Station :=
  if station.worker.isActive then run rules (station.step rules) else station
termination_by station.worker.work
decreasing_by exact work_step_lt rules station (by assumption)

/-- Resumes the worker: it makes a move, whether it is suspended or not, and goes on until it is
suspended or gone. -/
def resume (rules : Rules) (station : Station) : Station :=
  (station.step rules).run rules

/-- The result channel after the worker was dropped where it stands: it gives up what it still holds,
its sender before its ticket. -/
def abandon (station : Station) : ResultChannel :=
  match station.worker.phase with
  | .ready | .evaluating | .offering _ | .waiting _ | .yielding | .stopped _ .sender =>
    station.link.dropSender.dropTicket
  | .stopped _ .ticket => station.link.dropTicket
  | .stopped _ .alarm | .stopped _ .outcome | .stopped _ .nothing => station.link

end Station

end ParallelFilter
