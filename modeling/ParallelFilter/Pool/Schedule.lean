import ParallelFilter.Pool

/-! One way to run a pool, on a single thread. The consumer takes whatever is buffered without letting
the workers run. When it has to wait, every worker is resumed once, in the order of their ids, and
runs until it is suspended or gone; then the consumer looks again. The outcomes are collected when all
workers are gone, in the order of their ids. Where several workers interleave freely, any other order
of moves that the pool offers would do as well. -/

namespace ParallelFilter.Pool

/-- Resumes one worker, unless it is gone. -/
def resumeWorker (rules : Rules) : Pool → Nat → Pool
  | ⟨workers, link, token, closer, outcomes⟩, index =>
    if h : index < workers.size then
      if workers[index].isGone then ⟨workers, link, token, closer, outcomes⟩
      else
        match Station.resume rules ⟨workers[index], link, token⟩ with
        | ⟨worker, link, token⟩ => ⟨workers.set index worker, link, token, closer, outcomes⟩
    else ⟨workers, link, token, closer, outcomes⟩

/-- Resumes `count` workers, from `index` on, and then the closer. -/
def resumeFrom (rules : Rules) (pool : Pool) (index : Nat) : (count : Nat) → Pool
  | 0 => pool.resumeCloser
  | count + 1 => resumeFrom rules (pool.resumeWorker rules index) (index + 1) count

/-- Resumes every worker once, in the order of their ids. -/
def pass (rules : Rules) (pool : Pool) : Pool :=
  resumeFrom rules pool 0 pool.workers.size

/-- Waits for the next value, or for the end. The answer `pending` means that nobody can move any
more. -/
def await (rules : Rules) (pool : Pool) : Polled × Pool :=
  match pool.link.poll with
  | (.pending, _) =>
    let resumed := pool.pass rules
    if resumed.work < pool.work then await rules resumed else (.pending, resumed)
  | (polled, link) => (polled, { pool with link })
termination_by pool.work

/-- Waits for up to `count` values, oldest first. The second component tells what ended the wait, if it
was not the count. -/
def receive (rules : Rules) (pool : Pool) (count : Nat) (received : Array Nat) :
    Array Nat × Option Polled × Pool :=
  match count with
  | 0 => (received, none, pool)
  | count + 1 =>
    match pool.await rules with
    | (.value value, pool) => receive rules pool count (received.push value)
    | (ended, pool) => (received, some ended, pool)

/-- Takes everything that is buffered. -/
def takeBuffered : Pool → Array Nat → Array Nat × Pool
  | ⟨workers, link, token, closer, outcomes⟩, received =>
    match link.takeBuffered with
    | (values, link) => (received ++ values, ⟨workers, link, token, closer, outcomes⟩)

/-- Resumes `count` workers, from `index` on, and takes what is buffered after each of them. -/
def drainFrom (rules : Rules) (pool : Pool) (received : Array Nat) (index : Nat) :
    (count : Nat) → Array Nat × Pool
  | 0 => (received, pool.resumeCloser)
  | count + 1 =>
    match (pool.resumeWorker rules index).takeBuffered received with
    | (received, pool) => drainFrom rules pool received (index + 1) count

/-- Takes values until the drain ends. The second component is what ended it: `finished`, a violation,
or `pending` when nobody can move any more. -/
def drain (rules : Rules) (pool : Pool) (received : Array Nat) : Array Nat × Polled × Pool :=
  match pool.takeBuffered received with
  | (received, taken) =>
    match taken.link.poll with
    | (.pending, _) =>
      match taken.drainFrom rules received 0 taken.workers.size with
      | (received, resumed) =>
        if resumed.work < pool.work then drain rules resumed received
        else (received, .pending, resumed)
    | (ended, link) => (received, ended, { taken with link })
termination_by pool.work

/-- Collects the outcomes of `count` workers, from `index` on. -/
def joinFrom (pool : Pool) (index : Nat) : (count : Nat) → Pool
  | 0 => pool
  | count + 1 => joinFrom (pool.joinWorker index) (index + 1) count

/-- Collects the outcomes of all workers, once every one of them is gone. -/
def joinAll (pool : Pool) : Pool :=
  if pool.workers.all Worker.isGone then pool.joinFrom 0 pool.workers.size else pool

/-- Waits until the pool has its result. It is `none` when nobody can move any more. -/
def settle (rules : Rules) (pool : Pool) : Option (Except Error Report) × Pool :=
  match pool.result? with
  | some result => (some result, pool)
  | none =>
    let resumed := (pool.pass rules).joinAll
    if resumed.work < pool.work then settle rules resumed else (none, resumed)
termination_by pool.work

end ParallelFilter.Pool
