import ParallelFilter.Pool

/-! Pools that were refused, with no worker started. What the pool was given goes down at once: its
tickets one by one, and its sender after the last of them. Polls of the drain, and its loss, may come
between any two of these moves. -/

namespace ParallelFilter

structure Refusal where
  link : ResultChannel
  /-- How many tickets were not dropped yet. -/
  tickets : Nat
  /-- Whether the sender was not dropped yet. -/
  sender : Bool
  /-- What the drain has answered, oldest first. -/
  answers : List Polled

namespace Refusal

inductive Event where
  | dropTicket
  | dropSender
  /-- The drain is polled. -/
  | receive
  | dropDrain
  deriving DecidableEq

def ofLink (link : ResultChannel) : Refusal :=
  ⟨link, link.barrier.remaining, true, []⟩

def step (refusal : Refusal) : Event → Option Refusal
  | .dropTicket =>
    if 0 < refusal.tickets then
      some { refusal with link := refusal.link.dropTicket, tickets := refusal.tickets - 1 }
    else none
  | .dropSender =>
    if refusal.tickets = 0 ∧ refusal.sender then
      some { refusal with link := refusal.link.dropSender, sender := false }
    else none
  | .receive =>
    if refusal.link.channel.receiving then
      let (polled, link) := refusal.link.poll
      some { refusal with link, answers := refusal.answers ++ [polled] }
    else none
  | .dropDrain =>
    if refusal.link.channel.receiving then some { refusal with link := refusal.link.dropDrain }
      else none

/-- The refusal after the events, if they can happen one after another. -/
def follow (refusal : Refusal) (events : List Event) : Option Refusal :=
  events.foldlM step refusal

end Refusal

end ParallelFilter
