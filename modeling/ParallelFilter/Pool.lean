import ParallelFilter.Worker

/-! The workers of one job with all that they share: the result channel, the token, and the closer. The
closer holds a sender of its own and drops it only when the barrier has released it, so the channel
cannot close while a worker could still send. Whoever joins the workers takes their outcomes as they
are gone. `Pool.step` gives the moves of all parties, in whatever order they come; a move that would
change nothing is not offered. -/

namespace ParallelFilter

structure Pool where
  workers : Array Worker
  link : ResultChannel
  token : Token
  /-- The closer, as a waiter on the barrier. It holds its sender until it is released. -/
  closer : Waiter
  /-- The outcomes that were collected, in the order in which they were. -/
  outcomes : Array WorkerOutcome := #[]

/-- What may happen next to a running job. -/
inductive Event where
  /-- A worker makes a move. -/
  | work (worker : Nat)
  /-- A worker with a value in hand queues behind those who wait: the free places are kept for them. -/
  | queue (worker : Nat)
  /-- The closer makes a move. -/
  | close
  /-- The outcome of a worker that is gone is collected. -/
  | join (worker : Nat)
  /-- The drain is asked for a value. -/
  | receive
  | dropDrain
  | cancel (scope : Scope)
  deriving DecidableEq

namespace Pool

/-- A pool over the given ranges, one worker each, before any of them has moved. It is refused when the
channel was made for another number of workers. -/
def start (ranges : List Span) (link : ResultChannel) (token : Token) : Except Error Pool :=
  if ranges.length = link.barrier.expected then
    .ok {
      workers := (ranges.mapIdx Worker.ofRange).toArray
      link := { link with channel.senders := link.channel.senders + ranges.length }
      token
      closer := .fresh }
  else .error (.invalidArgument (.rangeCount ranges.length link.barrier.expected))

theorem start_eq_ok {ranges : List Span} {link : ResultChannel} {token : Token} {pool : Pool} :
    start ranges link token = .ok pool ↔
      ranges.length = link.barrier.expected ∧
        pool = {
          workers := (ranges.mapIdx Worker.ofRange).toArray
          link := { link with channel.senders := link.channel.senders + ranges.length }
          token
          closer := .fresh } := by
  unfold start
  split
  · rename_i hlength
    rw [Except.ok.injEq, eq_comm, and_iff_right hlength]
  · rename_i hlength
    simp only [reduceCtorEq, hlength, false_and]

/-- No worker has moved yet. -/
theorem exists_ofRange_of_start {ranges : List Span} {link : ResultChannel} {token : Token}
    {pool : Pool} (hstart : start ranges link token = .ok pool) {worker : Worker}
    (hworker : worker ∈ pool.workers) :
    ∃ id range, worker = Worker.ofRange id range := by
  obtain ⟨-, rfl⟩ := start_eq_ok.1 hstart
  obtain ⟨index, hindex, rfl⟩ := List.mem_mapIdx.1 (List.mem_toArray.1 hworker)
  exact ⟨index, _, rfl⟩

/-- What becomes of the channel of a pool that was refused: the tickets go first, then the sender. -/
def refuse (link : ResultChannel) : ResultChannel :=
  link.dropTickets.dropSender

/-- The worker with its surroundings. -/
def station (pool : Pool) (worker : Worker) : Station :=
  ⟨worker, pool.link, pool.token⟩

/-- How many workers are suspended for want of room. -/
def waiting (pool : Pool) : Nat :=
  pool.workers.countP Worker.isWaiting

/-- Whether the worker has a value to offer and each free place of the channel is kept for a worker
that waits already. -/
def mustQueue (pool : Pool) (worker : Worker) : Bool :=
  match worker.phase with
  | .offering _ =>
    pool.link.channel.receiving && !pool.link.channel.isFull &&
      pool.link.channel.capacity ≤ pool.link.channel.buffer.size + pool.waiting
  | _ => false

/-- One move of the closer. With its release it drops its sender. -/
def moveCloser : Pool → Pool
  | ⟨workers, link, token, closer, outcomes⟩ =>
    match closer with
    | .released => ⟨workers, link, token, .released, outcomes⟩
    | closer =>
      match closer.step link.barrier with
      | .released => ⟨workers, link.dropSender, token, .released, outcomes⟩
      | closer => ⟨workers, link, token, closer, outcomes⟩

/-- One resumption of the closer: the moves of one `Waiter.poll`. -/
def resumeCloser (pool : Pool) : Pool :=
  pool.moveCloser.moveCloser.moveCloser

/-- Collects the outcome of a worker, if it is gone. -/
def joinWorker : Pool → Nat → Pool
  | ⟨workers, link, token, closer, outcomes⟩, index =>
    if h : index < workers.size then
      match workers[index].join? with
      | some (outcome, worker) =>
        ⟨workers.set index worker, link, token, closer, outcomes.push outcome⟩
      | none => ⟨workers, link, token, closer, outcomes⟩
    else ⟨workers, link, token, closer, outcomes⟩

/-- The moves that a running job can make, and where they lead. -/
def step (rules : Rules) (pool : Pool) : Event → Option Pool
  | .work index =>
    if h : index < pool.workers.size then
      let station := pool.station pool.workers[index]
      if station.isBlocked then none
      else
        let moved := station.step rules
        some { pool with
          workers := pool.workers.set index moved.worker
          link := moved.link
          token := moved.token }
    else none
  | .queue index =>
    if h : index < pool.workers.size then
      let worker := pool.workers[index]
      match pool.mustQueue worker, worker.phase with
      | true, .offering value =>
        some { pool with
          workers := pool.workers.set index (Station.await value (pool.station worker)).worker }
      | _, _ => none
    else none
  | .close =>
    if pool.closer = .released ∨ pool.closer.isParked pool.link.barrier then none
    else some pool.moveCloser
  | .join index =>
    if (pool.workers[index]?.bind Worker.join?).isSome then some (pool.joinWorker index) else none
  | .receive =>
    if pool.link.channel.receiving ∧ ¬pool.link.finished then
      match pool.link.poll with
      | (.pending, _) => none
      | (_, link) => some { pool with link }
    else none
  | .dropDrain =>
    if pool.link.channel.receiving then some { pool with link := pool.link.dropDrain } else none
  | .cancel scope =>
    if pool.token.cancel scope = pool.token then none
    else some { pool with token := pool.token.cancel scope }

/-- The report on the outcomes that were collected. -/
def report (pool : Pool) : Report :=
  .ofOutcomes pool.outcomes.toList

/-- The result of the pool, once every outcome was collected and the closer has dropped its sender. -/
def result? (pool : Pool) : Option (Except Error Report) :=
  if pool.workers.all Worker.isJoined then
    if pool.link.barrier.isComplete then
      if pool.closer = .released then some (.ok pool.report) else none
    else
      some (.error (.orderingViolation
        (.unarrived pool.link.barrier.arrived pool.link.barrier.expected)))
  else none

/-- A bound on the moves to come of the workers, those who join them, and the closer. -/
def work (pool : Pool) : Nat :=
  pool.workers.foldl (fun total worker => total + worker.work) 0 +
    (match pool.closer with
      | .fresh => 2
      | .registered _ | .asleep _ => 1
      | .released => 0)

end Pool

end ParallelFilter
