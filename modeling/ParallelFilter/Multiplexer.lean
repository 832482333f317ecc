import ParallelFilter.Channel
import ParallelFilter.Error

/-! Several channels read by one loop, without waiting on any of them. A sweep probes every open channel
once, beginning after the one that was served last, and stops at the first value. A channel whose
senders are gone and that has nothing buffered is marked closed and not probed again. When a sweep
finds nothing, the loop sleeps for one tick, counts it, and goes on as its patience allows. A
cancellation cuts the sleep short, but where the tick is over too, either of them may be noticed first.
`Multiplexer.advance` and `Multiplexer.wake` give the single moves of a call, so producers may act
between any two of them. -/

namespace ParallelFilter

/-- What is done after an idle tick. -/
inductive Patience where
  /-- Give up at once. -/
  | exit
  /-- Sweep again after so many ticks of one call, and give up after one tick more. -/
  | retry (limit : Nat)
  /-- Sweep again, always. -/
  | forever
  deriving DecidableEq

/-- How many ticks one call can sleep through before it is given up; `unbounded` stands for a patience
without end. -/
def Patience.ticks (patience : Patience) (unbounded : Nat) : Nat :=
  match patience with
  | .exit => 1
  | .retry limit => limit + 1
  | .forever => unbounded

/-- A channel as the multiplexer knows it. -/
structure Lane (α β : Type) where
  channel : Channel α
  /-- The form in which a value is handed on, given how many values came before it. -/
  convert : Nat → α → β
  /-- Whether the channel was found closed and empty. -/
  closed : Bool := false
  /-- How many values were handed on. -/
  delivered : Nat := 0

/-- A value and the index of the channel that it came from. -/
structure Delivery (β : Type) where
  source : Nat
  value : β
  deriving DecidableEq

/-- A lane over a new channel, with its sender; there are channels only up to `maxCapacity`. -/
def Lane.make {α β : Type} (capacity : Nat) (convert : Nat → α → β) : Except Error (Lane α β) :=
  if maxCapacity < capacity then .error .capacityOverflow
  else .ok { channel := .ofCapacity capacity 1, convert }

structure Multiplexer (α β : Type) where
  lanes : Array (Lane α β)
  patience : Patience
  /-- Where the next sweep begins. -/
  cursor : Nat := 0
  /-- How many values were handed on, over all channels. -/
  received : Nat := 0
  idleTicks : Nat := 0
  cancelled : Bool := false

/-- What was counted so far. -/
structure MultiplexTally where
  received : Nat
  perSource : List Nat
  idleTicks : Nat
  deriving DecidableEq

/-- Where a call for the next value stands. The ticks are those slept through in this call. -/
inductive Turn (β : Type) where
  /-- In a sweep, with so many channels still to probe. -/
  | probing (left ticks : Nat)
  | sleeping (ticks : Nat)
  /-- The call has returned, with a value or without. -/
  | returned (item? : Option (Delivery β))

namespace Multiplexer

variable {α β : Type}

def tally (hub : Multiplexer α β) : MultiplexTally :=
  ⟨hub.received, hub.lanes.toList.map (·.delivered), hub.idleTicks⟩

/-- Whether every channel was found closed and empty. -/
def isExhausted (hub : Multiplexer α β) : Bool :=
  hub.lanes.all (·.closed)

/-- Probes one channel, when `left` channels are left after it. -/
def probe (hub : Multiplexer α β) (source : Nat) (left ticks : Nat) : Multiplexer α β × Turn β :=
  if h : source < hub.lanes.size then
    let lane := hub.lanes[source]
    if lane.closed then (hub, .probing left ticks)
    else
      match lane.channel.take with
      | .value value channel =>
        ({ hub with
            lanes := hub.lanes.set source { lane with channel, delivered := lane.delivered + 1 }
            cursor := (source + 1) % hub.lanes.size
            received := hub.received + 1 },
          .returned (some ⟨source, lane.convert lane.delivered value⟩))
      | .empty => (hub, .probing left ticks)
      | .closed =>
        ({ hub with lanes := hub.lanes.set source { lane with closed := true } },
          .probing left ticks)
  else (hub, .probing left ticks)

/-- The move of a call that slept through a tick and notices its end, whether it was cancelled
meanwhile or not. -/
def wake (hub : Multiplexer α β) (ticks : Nat) : Multiplexer α β × Turn β :=
  ({ hub with idleTicks := hub.idleTicks + 1 },
    match hub.patience with
    | .exit => .returned none
    | .retry limit =>
      if limit ≤ ticks then .returned none else .probing hub.lanes.size (ticks + 1)
    | .forever => .probing hub.lanes.size (ticks + 1))

/-- One move of a call. A cancellation is looked for after a sweep that found nothing, and during a
sleep, which it cuts short uncounted. This is so too where the tick is over and the cancellation is
noticed first; where the end of the tick is, the move is `wake`. -/
def advance (hub : Multiplexer α β) : Turn β → Multiplexer α β × Turn β
  | .probing 0 ticks =>
    (hub, if hub.isExhausted || hub.cancelled then .returned none else .sleeping ticks)
  | .probing (left + 1) ticks =>
    hub.probe ((hub.cursor + (hub.lanes.size - (left + 1))) % hub.lanes.size) left ticks
  | .sleeping ticks => if hub.cancelled then (hub, .returned none) else hub.wake ticks
  | .returned item? => (hub, .returned item?)

/-- The moves of a sweep, with `left` channels still to probe, up to a value, a sleep or the end of the
call. -/
def sweep (hub : Multiplexer α β) (ticks : Nat) : (left : Nat) → Multiplexer α β × Turn β
  | 0 => hub.advance (.probing 0 ticks)
  | left + 1 =>
    match hub.advance (.probing (left + 1) ticks) with
    | (hub, .probing _ _) => sweep hub ticks left
    | turned => turned

/-- What goes on around a multiplexer, with a state of its own. -/
structure Surroundings (σ α β : Type) where
  /-- What happens while one tick is slept through. -/
  tick : Multiplexer α β → σ → Multiplexer α β × σ
  /-- What happens after a value was handed on. -/
  served : Multiplexer α β → σ → Multiplexer α β × σ := fun hub around => (hub, around)

/-- How a call for the next value ended. -/
inductive Reception (β : Type) where
  | item (item : Delivery β)
  /-- The call returned without a value. -/
  | ended
  /-- The call still sleeps. -/
  | asleep (ticks : Nat)

/-- A call for the next value that may sleep through as many ticks as are granted. Inside the call
nobody else acts but during the ticks, and a cancellation during a tick is noticed before its end. -/
def next {σ : Type} (surroundings : Surroundings σ α β) (hub : Multiplexer α β) (around : σ)
    (ticks granted : Nat) : Reception β × Multiplexer α β × σ :=
  match hub.sweep ticks hub.lanes.size with
  | (hub, .returned (some item)) => (.item item, hub, around)
  | (hub, .returned none) | (hub, .probing _ _) => (.ended, hub, around)
  | (hub, .sleeping ticks) =>
    match granted with
    | 0 => (.asleep ticks, hub, around)
    | granted + 1 =>
      match surroundings.tick hub around with
      | (hub, around) =>
        match hub.advance (.sleeping ticks) with
        | (hub, .probing _ ticks) => next surroundings hub around ticks granted
        | (hub, _) => (.ended, hub, around)

/-- Calls for values, of which no more than `values` can come, until a call returns without one. Each
call may sleep through as many ticks as `granted` gives it. The result is `none` if a call would sleep
on. -/
def collect {σ : Type} (surroundings : Surroundings σ α β) (granted : Multiplexer α β → σ → Nat)
    (hub : Multiplexer α β) (around : σ) (items : Array (Delivery β)) (values : Nat) :
    Option (Array (Delivery β) × Multiplexer α β × σ) :=
  match next surroundings hub around 0 (granted hub around) with
  | (.ended, hub, around) => some (items, hub, around)
  | (.asleep _, _) => none
  | (.item item, hub, around) =>
    match values with
    | 0 => none
    | values + 1 =>
      match surroundings.served hub around with
      | (hub, around) => collect surroundings granted hub around (items.push item) values

/-- How many values are buffered, over all channels. -/
def buffered (hub : Multiplexer α β) : Nat :=
  hub.lanes.foldl (fun total lane => total + lane.channel.buffer.size) 0

/-- What becomes of a value that a producer sends. -/
inductive Sent where
  | sent
  | full
  /-- The multiplexer is gone. -/
  | closed
  /-- There is no such sender any more. -/
  | noSender
  deriving DecidableEq

def send (hub : Multiplexer α β) (source : Nat) (value : α) : Sent × Multiplexer α β :=
  if h : source < hub.lanes.size then
    let lane := hub.lanes[source]
    if lane.channel.senders = 0 then (.noSender, hub)
    else
      match lane.channel.offer value with
      | .sent channel => (.sent, { hub with lanes := hub.lanes.set source { lane with channel } })
      | .full => (.full, hub)
      | .closed => (.closed, hub)
  else (.noSender, hub)

/-- Whether the channel still has its sender. -/
def hasSender (hub : Multiplexer α β) (source : Nat) : Bool :=
  match hub.lanes[source]? with
  | some lane => lane.channel.senders != 0
  | none => false

/-- A producer drops its sender. -/
def dropSender (hub : Multiplexer α β) (source : Nat) : Multiplexer α β :=
  { hub with
    lanes := hub.lanes.modify source fun lane => { lane with channel := lane.channel.dropSender } }

/-- What the channels are once the multiplexer is gone. -/
def dropReceivers (hub : Multiplexer α β) : Multiplexer α β :=
  { hub with
    lanes := hub.lanes.map fun lane => { lane with channel := lane.channel.dropReceiver } }

end Multiplexer

end ParallelFilter
