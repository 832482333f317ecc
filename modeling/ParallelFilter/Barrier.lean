/-! Completion barriers. A barrier counts the tickets that are still held and tells its waiters when the
last one goes. A ticket goes in two moves: the count is lowered, and if it was the last, the waiters
are notified. A waiter registers, looks whether the barrier is complete, and only then goes to sleep,
so a notification that falls between the look and the sleep still reaches it. -/

namespace ParallelFilter

structure Barrier where
  /-- How many tickets were given out. -/
  expected : Nat
  /-- How many of them are still held. -/
  remaining : Nat
  /-- How many times the waiters have been notified. -/
  notifications : Nat
  deriving DecidableEq

namespace Barrier

def ofExpected (expected : Nat) : Barrier :=
  ⟨expected, expected, 0⟩

def arrived (barrier : Barrier) : Nat :=
  barrier.expected - barrier.remaining

def isComplete (barrier : Barrier) : Bool :=
  barrier.remaining == 0

/-- The first move of a ticket that goes. -/
def lower (barrier : Barrier) : Barrier :=
  { barrier with remaining := barrier.remaining - 1 }

/-- The second move of the last ticket. -/
def notify (barrier : Barrier) : Barrier :=
  { barrier with notifications := barrier.notifications + 1 }

/-- Both moves of one ticket. -/
def arrive (barrier : Barrier) : Barrier :=
  if barrier.remaining = 1 then barrier.lower.notify else barrier.lower

end Barrier

/-- Where a waiter stands. A registration remembers how many notifications there were before it. -/
inductive Waiter where
  | fresh
  /-- Registered, and about to look whether the barrier is complete. -/
  | registered (seen : Nat)
  /-- Found the barrier incomplete, and sleeps until the next notification. -/
  | asleep (seen : Nat)
  | released
  deriving DecidableEq

namespace Waiter

/-- One move of a waiter. A sleeper that was not notified stays where it is. -/
def step (waiter : Waiter) (barrier : Barrier) : Waiter :=
  match waiter with
  | .fresh => .registered barrier.notifications
  | .registered seen => if barrier.isComplete then .released else .asleep seen
  | .asleep seen => if barrier.notifications = seen then .asleep seen else .fresh
  | .released => .released

/-- Whether the waiter sleeps and has been notified since it fell asleep. -/
def isWoken (waiter : Waiter) (barrier : Barrier) : Bool :=
  match waiter with
  | .asleep seen => barrier.notifications != seen
  | _ => false

/-- Whether the waiter sleeps and nothing has woken it. -/
def isParked (waiter : Waiter) (barrier : Barrier) : Bool :=
  match waiter with
  | .asleep seen => barrier.notifications == seen
  | _ => false

/-- As many moves as a waiter makes at one go: from its sleep, through a registration and a look, to
its release or back to sleep. -/
def poll (waiter : Waiter) (barrier : Barrier) : Waiter :=
  (((waiter.step barrier).step barrier).step barrier)

end Waiter

end ParallelFilter
