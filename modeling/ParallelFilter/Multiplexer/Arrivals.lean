import ParallelFilter.Multiplexer.Timeline

/-! What arrives at a multiplexer that somebody reads to its end. The producers act during the
pauses of the loop, which are the deliveries and the idle ticks. What they do may depend on how they
find their channels and on what they remember, but not on the patience of the reader, which they
cannot see. -/

namespace ParallelFilter

/-- What the producers do in each pause, given the channels and what they remember, and what they
remember then. -/
structure Arrivals (σ α : Type) where
  tick : Array (Channel α) → σ → List (Action α) × σ
  served : Array (Channel α) → σ → List (Action α) × σ

namespace Arrivals

variable {σ α β : Type}

/-- What is laid down for each pause in advance, whatever the channels are then. -/
def ofPauses (actions : Nat → List (Action α)) : Arrivals Nat α where
  tick _ pause := (actions pause, pause + 1)
  served _ pause := (actions pause, pause + 1)

/-- One pause, in which the producers act so. -/
def pause (hasToken : Bool) (act : Array (Channel α) → σ → List (Action α) × σ)
    (hub : Multiplexer α β) (around : σ) :
    Multiplexer α β × σ :=
  match act (hub.lanes.map (·.channel)) around with
  | (actions, around) => (actions.foldl (Timeline.perform hasToken) hub, around)

def surroundings (arrivals : Arrivals σ α) (hasToken : Bool) : Multiplexer.Surroundings σ α β where
  tick := pause hasToken arrivals.tick
  served := pause hasToken arrivals.served

end Arrivals

namespace Multiplexer

variable {σ α β : Type}

/-- The reader is handed these items, one by each call, and then the multiplexer and what is around
it stand so. -/
inductive Delivers (surroundings : Surroundings σ α β) :
    Multiplexer α β → σ → List (Delivery β) → Multiplexer α β → σ → Prop where
  | nil {hub : Multiplexer α β} {around : σ} : Delivers surroundings hub around [] hub around
  | cons {hub after last : Multiplexer α β} {around later final : σ} {granted : Nat} {item : Delivery β}
      {items : List (Delivery β)}
      (hcall : hub.next surroundings around 0 granted = (.item item, after, later))
      (hrest : Delivers surroundings (surroundings.served after later).1
        (surroundings.served after later).2
        items last final) : Delivers surroundings hub around (item :: items) last final

/-- The reader is handed these items, and then a call returns without one. -/
def Collects (surroundings : Surroundings σ α β) (hub : Multiplexer α β) (around : σ)
    (items : List (Delivery β)) (last : Multiplexer α β) : Prop :=
  ∃ granted values final,
    hub.collect surroundings granted around #[] values = some (items.toArray, last, final)

end Multiplexer

end ParallelFilter
