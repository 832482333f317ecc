import ParallelFilter.Channel
import ParallelFilter.Barrier
import ParallelFilter.Settings

/-! The result channel of a job: a bounded channel of accepted values, the barrier on which the
workers arrive, and the drain, which has the only receiver. The drain gives out what was sent, in
order, also after the channel was closed. It ends once the channel is closed and empty, and if
tickets are still held at that moment it reports the violation, once, before it ends. The receiver
may put a poll of the drain off though values are buffered, to let other tasks have their turn. -/

namespace ParallelFilter

structure ResultChannel where
  channel : Channel Nat
  barrier : Barrier
  /-- How many values the drain has given out. -/
  received : Nat
  /-- Whether the drain has ended. -/
  finished : Bool

/-- What the drain answers when it is asked for a value. -/
inductive Polled where
  | value (value : Nat)
  | violation (fault : OrderingFault)
  | finished
  /-- There is no answer yet: nothing is buffered and the channel is still open, or the receiver put the
  poll off. -/
  | pending
  deriving DecidableEq

namespace ResultChannel

/-- A channel for `workers` workers, with one sender and one ticket per worker. The capacity is checked
before the workers, and whether so many places can be counted at all comes last. -/
def make (capacity workers : Nat) : Except Error ResultChannel := do
  if capacity = 0 then throw (.invalidArgument .noCapacity)
  checkWorkers workers
  if maxCapacity < capacity then throw .capacityOverflow
  return ⟨.ofCapacity capacity 1, .ofExpected workers, 0, false⟩

theorem make_eq_ok {capacity workers : Nat} {link : ResultChannel} :
    make capacity workers = .ok link ↔
      (0 < capacity ∧ capacity ≤ maxCapacity) ∧ checkWorkers workers = .ok () ∧
        link = ⟨.ofCapacity capacity 1, .ofExpected workers, 0, false⟩ := by
  simp only [make, throw, throwThe, MonadExceptOf.throw, bind, Except.bind, pure, Except.pure]
  by_cases hcapacity : capacity = 0
  · simp [hcapacity]
  · cases checkWorkers workers with
    | error error => simp [hcapacity]
    | ok _ =>
      by_cases hoverflow : maxCapacity < capacity
      · simp [hcapacity, hoverflow, Nat.not_le.mpr hoverflow]
      · simp [hcapacity, hoverflow, Nat.pos_of_ne_zero hcapacity, Nat.not_lt.mp hoverflow, eq_comm]

def dropSender (link : ResultChannel) : ResultChannel :=
  { link with channel := link.channel.dropSender }

def dropTicket (link : ResultChannel) : ResultChannel :=
  { link with barrier := link.barrier.arrive }

/-- Gives up every ticket that is still held. -/
def dropTickets (link : ResultChannel) : ResultChannel :=
  Nat.repeat dropTicket link.barrier.remaining link

def dropDrain (link : ResultChannel) : ResultChannel :=
  { link with channel := link.channel.dropReceiver }

/-- The violation that stands when the channel is closed now. -/
def orderingFault (link : ResultChannel) : OrderingFault :=
  .closedEarly link.barrier.arrived link.barrier.expected

/-- Asks the drain for a value, without waiting, at a poll that its receiver does not put off. -/
def poll : ResultChannel → Polled × ResultChannel
  | ⟨channel, barrier, received, finished⟩ =>
    if finished then (.finished, ⟨channel, barrier, received, finished⟩)
    else
      match channel.take with
      | .value value channel => (.value value, ⟨channel, barrier, received + 1, finished⟩)
      | .empty => (.pending, ⟨channel, barrier, received, finished⟩)
      | .closed =>
        if barrier.isComplete then (.finished, ⟨channel, barrier, received, true⟩)
        else (.violation (.closedEarly barrier.arrived barrier.expected),
          ⟨channel, barrier, received, true⟩)

theorem poll_of_finished {link : ResultChannel} (h : link.finished = true) :
    link.poll = (.finished, link) := by
  obtain ⟨channel, barrier, received, finished⟩ := link
  rw [poll, if_pos h]

/-- Asks the drain for a value, where its receiver may put the poll off, whatever is buffered. A
drain that has ended does not ask its receiver any more. -/
def ask (link : ResultChannel) (stalls : Bool) : Polled × ResultChannel :=
  if stalls && !link.finished then (.pending, link) else link.poll

/-- What the drain answers at a poll that its receiver puts off. -/
def stalled (link : ResultChannel) : Polled :=
  if link.finished then .finished else .pending

@[simp] theorem ask_false (link : ResultChannel) : link.ask false = link.poll := rfl

/-- A poll that is put off leaves the channel as it was. -/
theorem ask_true (link : ResultChannel) : link.ask true = (link.stalled, link) := by
  unfold ask stalled
  cases hfinished : link.finished with
  | false => rfl
  | true => exact poll_of_finished hfinished

theorem stalled_eq_pending {link : ResultChannel} :
    link.stalled = .pending ↔ link.finished = false := by
  unfold stalled
  cases link.finished <;> decide

theorem stalled_ne_violation (link : ResultChannel) (fault : OrderingFault) :
    link.stalled ≠ .violation fault := by
  unfold stalled
  split <;> nofun

/-- Takes everything that is buffered. -/
def takeBuffered : ResultChannel → List Nat × ResultChannel
  | ⟨⟨capacity, buffer, senders, receiving⟩, barrier, received, finished⟩ =>
    (buffer.toList,
      ⟨⟨capacity, .empty, senders, receiving⟩, barrier, received + buffer.size, finished⟩)

theorem takeBuffered_eq (link : ResultChannel) : link.takeBuffered =
    (link.channel.buffer.toList,
      { link with
        channel.buffer := .empty
        received := link.received + link.channel.buffer.size }) := rfl

/-- What can be said about the number of items to come: at least so many, and at most so many where
there is a bound. -/
def sizeHint (link : ResultChannel) : Nat × Option Nat :=
  if link.finished then (0, some 0)
  else
    let buffered := link.channel.buffer.size
    (buffered, if link.channel.senders = 0 then some buffered else none)

/-- All the values still to come from a drain: `none` while the channel is open, and the violation in
their place if there is one. -/
def collect (link : ResultChannel) : Option (Except Error (List Nat)) :=
  let (values, link) := link.takeBuffered
  match link.poll.1 with
  | .finished => some (.ok values)
  | .violation fault => some (.error (.orderingViolation fault))
  | .value _ | .pending => none

end ResultChannel

end ParallelFilter
