import ParallelFilter.Queue

/-! Bounded channels with many senders and one receiver. A value put in while there is room is
delivered, also after the last sender is gone; it is lost only with the receiver. -/

namespace ParallelFilter

structure Channel (α : Type) where
  capacity : Nat
  buffer : Queue α
  /-- How many senders are still held. -/
  senders : Nat
  /-- Whether the receiver is still held. -/
  receiving : Bool

/-- What becomes of a value that is offered to a channel. -/
inductive Offered (α : Type) where
  | sent (channel : Channel α)
  | full
  /-- The receiver is gone. -/
  | closed

/-- What a receiver finds without waiting. -/
inductive Taken (α : Type) where
  | value (value : α) (channel : Channel α)
  /-- Nothing is buffered, and a sender is still held. -/
  | empty
  /-- Nothing is buffered, and no sender is held any more. -/
  | closed

namespace Channel

variable {α : Type}

def ofCapacity (capacity senders : Nat) : Channel α :=
  ⟨capacity, .empty, senders, true⟩

/-- Whether a value that is offered now would be refused for want of room. -/
def isFull (channel : Channel α) : Bool :=
  channel.receiving && channel.capacity ≤ channel.buffer.size

/-- The receiver is looked for before the room. -/
def offer : Channel α → α → Offered α
  | ⟨capacity, buffer, senders, receiving⟩, value =>
    if !receiving then .closed
    else if buffer.size < capacity then .sent ⟨capacity, buffer.push value, senders, receiving⟩
    else .full

def take : Channel α → Taken α
  | ⟨capacity, buffer, senders, receiving⟩ =>
    match buffer.pop? with
    | some (value, rest) => .value value ⟨capacity, rest, senders, receiving⟩
    | none => if senders = 0 then .closed else .empty

def dropSender (channel : Channel α) : Channel α :=
  { channel with senders := channel.senders - 1 }

/-- Without its receiver a channel keeps nothing. -/
def dropReceiver (channel : Channel α) : Channel α :=
  { channel with buffer := .empty, receiving := false }

end Channel

end ParallelFilter
