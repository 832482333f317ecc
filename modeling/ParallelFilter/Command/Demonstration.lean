import ParallelFilter.Command.Multiplex
import ParallelFilter.Multiplexer.Traffic

/-! The multiplex command, one move at a time. The loop calls for values until a call returns
without one, and then the receivers are gone. Meanwhile, and afterwards, each producer sends one
value after another, waits while its channel is full, and stops after the last one or when nobody
receives any more. The command returns when both have stopped. `runMultiplex` is one order of these
moves. -/

namespace ParallelFilter.Command

/-- The producer's channel, as the multiplexer is given it. -/
def Producer.port (producer : Producer) : Port Payload Payload :=
  ⟨channelPlaces producer.total, 1, fun _ value => value⟩

/-- The producers of the command, in the order of their channels. -/
def MultiplexRequest.producers (request : MultiplexRequest) : List Producer :=
  [request.intProducer, request.textProducer]

/-- The command at work. -/
structure Demonstration where
  /-- The multiplexer in use. -/
  traffic : Traffic Payload Payload
  producers : Array Producer
  /-- What the loop has returned, once it is over. -/
  collected? : Option (List (Delivery Payload) × MultiplexTally)

namespace Demonstration

inductive Event where
  /-- A producer makes a move. -/
  | produce (source : Nat)
  /-- The loop makes a move. -/
  | receive
  /-- The loop, which was shut down in its sleep, notices the end of its tick first. -/
  | elapse
  | shutdown
  deriving DecidableEq

def ofRequest (request : MultiplexRequest) : Demonstration where
  traffic := .ofPorts (request.producers.map Producer.port) request.patience
  producers := request.producers.toArray
  collected? := none

/-- A signal comes to the multiplexer. -/
def pass (demo : Demonstration) (signal : Signal Payload) : Option Demonstration :=
  (demo.traffic.step true signal).map fun traffic => { demo with traffic }

/-- A producer that has not stopped sends its next value, waits, or stops. -/
def produce (demo : Demonstration) (source : Nat) (producer : Producer) : Option Demonstration :=
  if demo.traffic.hub.hasSender source then
    if producer.sent < producer.total then
      let value := producer.value producer.sent
      match (demo.traffic.hub.send source value).1 with
      | .sent =>
        { demo with
          producers := demo.producers.setIfInBounds source
            { producer with sent := producer.sent + 1 } }.pass
            (.outside (.send source value))
      | .full => none
      | .closed | .noSender => demo.pass (.outside (.close source))
    else demo.pass (.outside (.close source))
  else none

/-- The loop is over, and the multiplexer is gone. -/
def leave (demo : Demonstration) : Demonstration :=
  { demo with
    traffic := { demo.traffic with hub := demo.traffic.hub.dropReceivers }
    collected? := some (demo.traffic.delivered, demo.traffic.hub.tally) }

def step (demo : Demonstration) : Event → Option Demonstration
  | .produce source => demo.producers[source]?.bind (demo.produce source)
  | .receive =>
    match demo.collected? with
    | some _ => none
    | none =>
      match demo.traffic.turn? with
      | some (.probing _ _) | some (.sleeping _) => demo.pass .proceed
      | some (.returned (some _)) | none => demo.pass .call
      | some (.returned none) => some demo.leave
  | .elapse =>
    match demo.collected? with
    | some _ => none
    | none => demo.pass .elapse
  | .shutdown => demo.pass (.outside .cancel)

/-- The command after the events, if they can happen one after another. -/
def follow (demo : Demonstration) (events : List Event) : Option Demonstration :=
  events.foldlM step demo

/-- What the command returns, once no producer is left. -/
def result? (demo : Demonstration) : Option (List (Delivery Payload) × MultiplexTally) :=
  if (List.range demo.producers.size).any demo.traffic.hub.hasSender then none else demo.collected?

end Demonstration

end ParallelFilter.Command
