import ParallelFilter.ResultChannel

/-! A result channel from its making on, in the hands of those who use it without a pool. On one
side values are sent and the sender and the tickets are dropped, on the other the drain is polled,
and at last it may be collected, which polls it until it has ended. Neither side waits for the
other, so tickets may be held when the sender is gone, and any poll may be put off by the receiver. -/

namespace ParallelFilter.ResultChannel

/-- Who has the drain. -/
inductive Custody where
  /-- Its holder, who polls it. -/
  | held
  /-- It is being collected, and has given these values since, oldest first. -/
  | collecting (values : List Nat)
  /-- It was collected, and went with the last answer. -/
  | collected (result : Except Error (List Nat))

/-- A collection goes on with each value, and stops at the first violation. -/
def Custody.note : Custody → Polled → Custody
  | .collecting values, .value value => .collecting (values ++ [value])
  | .collecting values, .finished => .collected (.ok values)
  | .collecting _, .violation fault => .collected (.error (.orderingViolation fault))
  | custody, _ => custody

structure Life where
  link : ResultChannel
  custody : Custody
  /-- What was sent, oldest first. -/
  sent : List Nat
  /-- What the drain has answered, oldest first. -/
  answers : List Polled

namespace Life

inductive Event where
  /-- A value is offered to the channel, which takes it if there is room. -/
  | send (value : Nat)
  | dropTicket
  | dropSender
  /-- The drain is polled, by its holder or to collect it. -/
  | poll
  /-- The drain is polled, and its receiver puts the poll off. -/
  | stall
  | collect
  deriving DecidableEq

def ofLink (link : ResultChannel) : Life :=
  ⟨link, .held, [], []⟩

/-- The life after a poll, if there is still a drain to poll. -/
def asked (life : Life) (stalls : Bool) : Option Life :=
  match life.custody with
  | .collected _ => none
  | custody =>
    let (answer, link) := life.link.ask stalls
    some { life with link, custody := custody.note answer, answers := life.answers ++ [answer] }

/-- The life after the event, if the event can happen. -/
def step (life : Life) : Event → Option Life
  | .send value =>
    if 0 < life.link.channel.senders then
      match life.link.channel.offer value with
      | .sent channel => some { life with link.channel := channel, sent := life.sent ++ [value] }
      | .full | .closed => some life
    else none
  | .dropTicket =>
    if 0 < life.link.barrier.remaining then some { life with link := life.link.dropTicket } else none
  | .dropSender =>
    if 0 < life.link.channel.senders then some { life with link := life.link.dropSender } else none
  | .poll => life.asked false
  | .stall => life.asked true
  | .collect =>
    match life.custody with
    | .held => some { life with custody := .collecting [] }
    | .collecting _ | .collected _ => none

/-- The life after the events, if they can happen one after another. -/
def follow (life : Life) (events : List Event) : Option Life :=
  events.foldlM step life

end Life

end ParallelFilter.ResultChannel
