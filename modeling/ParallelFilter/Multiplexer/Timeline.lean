import ParallelFilter.Multiplexer

/-! A multiplexer in time. What the producers will do is laid down in advance, as actions at given
times; the clock moves only while the multiplexer sleeps. A cancellation at the very end of a tick
still cuts it short. -/

namespace ParallelFilter

/-- Something that happens to a multiplexer from outside. -/
inductive Action (α : Type) where
  | send (source : Nat) (value : α)
  | close (source : Nat)
  | cancel

/-- Actions that happen together, at one time. -/
structure Appointment (α : Type) where
  time : Nat
  actions : List (Action α)

/-- The clock, and what is still to happen, earliest first. -/
structure Timeline (α : Type) where
  now : Nat
  appointments : List (Appointment α)

namespace Timeline

variable {α β : Type}

/-- Lays down actions for `delay` from now. -/
def add (timeline : Timeline α) (delay : Nat) (actions : List (Action α)) : Timeline α :=
  let time := timeline.now + delay
  { timeline with
    appointments :=
      timeline.appointments.takeWhile (·.time ≤ time) ++
        ⟨time, actions⟩ :: timeline.appointments.dropWhile (·.time ≤ time) }

/-- What an action does. A cancellation reaches the multiplexer only if it was given the token. -/
def perform (hasToken : Bool) (hub : Multiplexer α β) : Action α → Multiplexer α β
  | .send source value => (hub.send source value).2
  | .close source => hub.dropSender source
  | .cancel => { hub with cancelled := hub.cancelled || hasToken }

/-- Sleeps up to `deadline`, or up to the first cancellation before it. -/
def sleepFrom (hasToken : Bool) (deadline now : Nat) (hub : Multiplexer α β) :
    List (Appointment α) → Multiplexer α β × Timeline α
  | [] => (hub, ⟨max now deadline, []⟩)
  | appointment :: later =>
    if appointment.time ≤ deadline then
      let hub := appointment.actions.foldl (perform hasToken) hub
      if hub.cancelled then (hub, ⟨max now appointment.time, later⟩)
      else sleepFrom hasToken deadline (max now appointment.time) hub later
    else (hub, ⟨max now deadline, appointment :: later⟩)

def sleep (hasToken : Bool) (duration : Nat) (hub : Multiplexer α β) (timeline : Timeline α) :
    Multiplexer α β × Timeline α :=
  sleepFrom hasToken (timeline.now + duration) timeline.now hub timeline.appointments

/-- How many values are laid down to be sent. -/
def sends (timeline : Timeline α) : Nat :=
  (timeline.appointments.map fun appointment =>
    (appointment.actions.filter fun
      | .send _ _ => true
      | .close _ | .cancel => false).length).foldr (· + ·) 0

/-- How many ticks of the given length there are before nothing is left to happen. -/
def ticksLeft (tick : Nat) (timeline : Timeline α) : Nat :=
  match timeline.appointments.getLast? with
  | some last => (last.time - timeline.now) / tick + 1
  | none => 0

end Timeline

namespace Multiplexer

variable {α β : Type}

/-- A call for the next value that is given up after `limit`. The result is `none` then; the ticks that
were completed stay counted. -/
def nextWithin (tick limit : Nat) (hasToken : Bool) (hub : Multiplexer α β)
    (timeline : Timeline α) : Option (Option (Delivery β)) × Multiplexer α β × Timeline α :=
  let granted := if tick = 0 then hub.patience.ticks 0 else limit / tick
  match next { tick := Timeline.sleep hasToken tick } hub timeline 0 granted with
  | (.item item, hub, later) => (some (some item), hub, later)
  | (.ended, hub, later) => (some none, hub, later)
  | (.asleep _, hub, later) =>
    match later.sleep hasToken (timeline.now + limit - later.now) hub with
    | (hub, later) => (if hub.cancelled then some none else none, hub, later)

/-- Everything that can be received, with what was counted. The result is `none` if that never ends. -/
def collectAll (tick : Nat) (hasToken : Bool) (hub : Multiplexer α β) (timeline : Timeline α) :
    Option (Except Error (List (Delivery β)) × Multiplexer α β × Timeline α) :=
  if hub.lanes.isEmpty then some (.error (.invalidArgument .noChannels), hub, timeline)
  else
    (collect { tick := Timeline.sleep hasToken tick }
      (fun hub timeline => hub.patience.ticks (timeline.ticksLeft tick)) hub timeline #[]
      (hub.buffered + timeline.sends)).map
      fun (items, hub, timeline) => (.ok items.toList, hub, timeline)

/-- Everything that is received from the given channels up to the first idle tick. -/
def collectUntilIdle (tick : Nat) (lanes : Array (Lane α β)) :
    Option (Except Error (List (Delivery β))) :=
  (collectAll tick false { lanes, patience := .exit } ⟨0, []⟩).map (·.1)

end Multiplexer

end ParallelFilter
