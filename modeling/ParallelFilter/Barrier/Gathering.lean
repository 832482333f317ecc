import ParallelFilter.Barrier

/-! A barrier among all who use it. Tickets are dropped, guests come to wait for the last of them,
and each guest is polled now and then. A drop and a poll are made of several moves each, and anybody
else may move between any two of them: between the lowering of the count and the notification, or
between a guest's look at the count and its going to sleep. -/

namespace ParallelFilter

/-- What has become of a ticket. -/
inductive Ticket where
  | held
  /-- It was the last to go: it has lowered the count, and is about to notify the waiters. -/
  | notifying
  | gone
  deriving DecidableEq

/-- How far the latest poll of a waiter has come. -/
inductive Poll where
  /-- There was none. -/
  | unstarted
  | running
  | pending
  | ready
  deriving DecidableEq

/-- A waiter and whoever polls it. -/
structure Guest where
  waiter : Waiter
  poll : Poll
  deriving DecidableEq

/-- One move of a guest that is being polled. The poll is over when the waiter is released, or has
found no reason to wake from its sleep. -/
def Guest.proceed (guest : Guest) (barrier : Barrier) : Guest where
  waiter := guest.waiter.step barrier
  poll :=
    if guest.waiter.step barrier = .released then .ready
    else if guest.waiter.isParked barrier then .pending
    else .running

structure Gathering where
  barrier : Barrier
  tickets : Array Ticket
  guests : Array Guest
  deriving DecidableEq

namespace Gathering

/-- What may happen next. -/
inductive Event where
  /-- The first move of a ticket that is dropped. -/
  | lower (ticket : Nat)
  /-- The second move of the last ticket. -/
  | notify (ticket : Nat)
  /-- Somebody comes to wait. -/
  | join
  | poll (guest : Nat)
  /-- The poll of a guest makes a move. -/
  | proceed (guest : Nat)
  deriving DecidableEq

/-- A new barrier with its tickets. -/
def ofExpected (expected : Nat) : Gathering :=
  ⟨.ofExpected expected, Array.replicate expected .held, #[]⟩

/-- The gathering after the event, if the event can happen. -/
def step (gathering : Gathering) : Event → Option Gathering
  | .lower ticket =>
    if h : ticket < gathering.tickets.size then
      if gathering.tickets[ticket] = .held then
        some { gathering with
          barrier := gathering.barrier.lower
          tickets := gathering.tickets.set ticket
            (if gathering.barrier.remaining = 1 then .notifying else .gone) }
      else none
    else none
  | .notify ticket =>
    if h : ticket < gathering.tickets.size then
      if gathering.tickets[ticket] = .notifying then
        some { gathering with
          barrier := gathering.barrier.notify
          tickets := gathering.tickets.set ticket .gone }
      else none
    else none
  | .join => some { gathering with guests := gathering.guests.push ⟨.fresh, .unstarted⟩ }
  | .poll guest =>
    if h : guest < gathering.guests.size then
      match gathering.guests[guest].poll with
      | .unstarted | .pending =>
        some { gathering with
          guests := gathering.guests.set guest { gathering.guests[guest] with poll := .running } }
      | .running | .ready => none
    else none
  | .proceed guest =>
    if h : guest < gathering.guests.size then
      if gathering.guests[guest].poll = .running then
        some { gathering with
          guests := gathering.guests.set guest (gathering.guests[guest].proceed gathering.barrier) }
      else none
    else none

/-- The gathering after the events, if they can happen one after another. -/
def follow (gathering : Gathering) (events : List Event) : Option Gathering :=
  events.foldlM step gathering

end Gathering

end ParallelFilter
