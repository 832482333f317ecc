import ParallelFilter.Multiplexer.Timeline

/-! Multiplexers in use. Calls for the next value are made one after another. Producers send and
drop their senders, and somebody may cancel, between any two moves of a call. A call that sleeps may
be given up for another one. Nothing of this needs a clock: a tick is over whenever the call goes
on, and if somebody has cancelled by then, the call may notice either first. -/

namespace ParallelFilter

/-- A channel that is to be read, before anything was sent to it. -/
structure Port (α β : Type) where
  capacity : Nat
  senders : Nat
  /-- The form in which a value is handed on, given how many values came before it. -/
  convert : Nat → α → β

/-- What may happen next to a multiplexer in use. -/
inductive Signal (α : Type) where
  /-- Something happens outside the call. -/
  | outside (action : Action α)
  /-- A call for the next value is made. -/
  | call
  /-- The call makes a move. It notices a cancellation before the end of its tick. -/
  | proceed
  /-- The call, which was cancelled in its sleep, notices the end of its tick first. -/
  | elapse

/-- A multiplexer in use, with all that came in and went out. -/
structure Traffic (α β : Type) where
  hub : Multiplexer α β
  /-- Where the latest call stands. -/
  turn? : Option (Turn β)
  /-- What was sent, oldest first, each value with the index of its channel. -/
  sent : List (Nat × α)
  /-- What was handed on, oldest first. -/
  delivered : List (Delivery β)

variable {α β : Type}

def Port.lane (port : Port α β) : Lane α β where
  channel := .ofCapacity port.capacity port.senders
  convert := port.convert

/-- What a call hands on as it returns. -/
def Turn.item? : Turn β → Option (Delivery β)
  | .returned item? => item?
  | .probing _ _ | .sleeping _ => none

/-- What the action puts into a channel. -/
def Multiplexer.admits (hub : Multiplexer α β) : Action α → Option (Nat × α)
  | .send source value => if (hub.send source value).1 = .sent then some (source, value) else none
  | .close _ | .cancel => none

namespace Traffic

/-- A multiplexer of the given channels, before anything has happened. -/
def ofPorts (ports : List (Port α β)) (patience : Patience) : Traffic α β where
  hub := { lanes := (ports.map Port.lane).toArray, patience }
  turn? := none
  sent := []
  delivered := []

/-- The call makes a move from where it stands. -/
def proceed (traffic : Traffic α β) (turn : Turn β) : Traffic α β :=
  let moved := traffic.hub.advance turn
  { traffic with
    hub := moved.1
    turn? := some moved.2
    delivered := traffic.delivered ++ moved.2.item?.toList }

/-- The call that sleeps counts its tick, and goes on as the patience allows. -/
def wake (traffic : Traffic α β) (ticks : Nat) : Traffic α β :=
  let woken := traffic.hub.wake ticks
  { traffic with hub := woken.1, turn? := some woken.2 }

/-- What the signals do. A call is not left in the middle of a sweep. -/
def step (hasToken : Bool) (traffic : Traffic α β) : Signal α → Option (Traffic α β)
  | .outside action =>
    some { traffic with
      hub := Timeline.perform hasToken traffic.hub action
      sent := traffic.sent ++ (traffic.hub.admits action).toList }
  | .call =>
    match traffic.turn? with
    | some (.probing _ _) => none
    | some (.sleeping _) | some (.returned _) | none =>
      some { traffic with turn? := some (.probing traffic.hub.lanes.size 0) }
  | .proceed =>
    match traffic.turn? with
    | some (.probing left ticks) => some (traffic.proceed (.probing left ticks))
    | some (.sleeping ticks) => some (traffic.proceed (.sleeping ticks))
    | some (.returned _) | none => none
  | .elapse =>
    match traffic.turn? with
    | some (.sleeping ticks) => if traffic.hub.cancelled then some (traffic.wake ticks) else none
    | some (.probing _ _) | some (.returned _) | none => none

/-- The multiplexer after the signals, if they can come one after another. -/
def follow (hasToken : Bool) (traffic : Traffic α β) (signals : List (Signal α)) :
    Option (Traffic α β) :=
  signals.foldlM (step hasToken) traffic

/-- What was sent to one channel, oldest first. -/
def sentTo (traffic : Traffic α β) (source : Nat) : List α :=
  traffic.sent.filterMap fun entry => if entry.1 = source then some entry.2 else none

/-- What one channel has delivered, oldest first. -/
def deliveredBy (traffic : Traffic α β) (source : Nat) : List β :=
  traffic.delivered.filterMap fun item => if item.source = source then some item.value else none

end Traffic

end ParallelFilter
