import ParallelFilter.Command.Filter
import ParallelFilter.Payload

/-! The multiplex command: two producers, one of numbers and one of texts, are drained through one
multiplexer. The producers run only while the multiplexer sleeps. Each then goes on until its channel
is full or it has nothing more to send and drops its sender. -/

namespace ParallelFilter.Command

/-- A producer: how many values it sent, of how many, and what they are. -/
structure Producer where
  sent : Nat
  total : Nat
  value : Nat → Payload

/-- The number of places in a producer's channel: one for each value, at least one, at most 1024. -/
def channelPlaces (values : Nat) : Nat :=
  max 1 (min values 1024)

/-- The producer's channel, before anything was sent. -/
def Producer.lane (producer : Producer) : Lane Payload Payload where
  channel := .ofCapacity (channelPlaces producer.total) 1
  convert := fun _ value => value

/-- Sends up to `count` values, as long as there is room, and drops the sender after the last. -/
def Producer.produce (source : Nat) (producer : Producer) (hub : Multiplexer Payload Payload) :
    (count : Nat) → Multiplexer Payload Payload × Producer
  | 0 => (hub.dropSender source, producer)
  | count + 1 =>
    match hub.send source (producer.value producer.sent) with
    | (.sent, hub) => produce source { producer with sent := producer.sent + 1 } hub count
    | (_, hub) => (hub, producer)

/-- What a producer does in one tick. -/
def Producer.run (source : Nat) (producer : Producer) (hub : Multiplexer Payload Payload) :
    Multiplexer Payload Payload × Producer :=
  if hub.hasSender source then producer.produce source hub (producer.total - producer.sent)
  else (hub, producer)

/-- What both producers do in one tick. -/
def produceBoth (hub : Multiplexer Payload Payload) (producers : Producer × Producer) :
    Multiplexer Payload Payload × (Producer × Producer) :=
  match producers.1.run 0 hub with
  | (hub, first) =>
    match producers.2.run 1 hub with
    | (hub, second) => (hub, (first, second))

/-- The producer of numbers, before it has sent anything. -/
def MultiplexRequest.intProducer (request : MultiplexRequest) : Producer :=
  ⟨0, request.ints, .int⟩

/-- The producer of texts, before it has sent anything. -/
def MultiplexRequest.textProducer (request : MultiplexRequest) : Producer :=
  ⟨0, request.texts, fun index => .text ("item-" ++ toString index)⟩

/-- What the multiplexer receives from both producers, with what was counted. -/
def runMultiplex (request : MultiplexRequest) (isShutdown : Bool) :
    Option (List (Delivery Payload) × MultiplexTally) :=
  let ints := request.intProducer
  let texts := request.textProducer
  (Multiplexer.collect { tick := produceBoth } (fun hub _ => hub.patience.ticks 2)
    { lanes := #[ints.lane, texts.lane], patience := request.patience, cancelled := isShutdown }
    (ints, texts) #[] (request.ints + request.texts)).map
    fun (items, hub, _) => (items.toList, hub.tally)

/-- The lines of the report. -/
def multiplexReport (items : List (Delivery Payload)) (tally : MultiplexTally) : List String :=
  items.map (fun item => "[channel " ++ toString item.source ++ "] " ++ item.value.shown) ++
  ["received " ++ toString tally.received ++ " values (" ++
    toString (tally.perSource[0]?.getD 0) ++ " ints, " ++
    toString (tally.perSource[1]?.getD 0) ++ " texts) after " ++ toString tally.idleTicks ++
    " idle ticks"]

/-- What the multiplex command prints; it does not fail. -/
def multiplexTranscript (request : MultiplexRequest) (isShutdown : Bool) : Option Transcript :=
  (runMultiplex request isShutdown).map fun (items, tally) => ⟨multiplexReport items tally, none⟩

/-- What a command prints, and whether it fails. The number of workers is given for requests that leave
it to the machine. -/
def Invocation.transcript (invocation : Invocation) (machineWorkers : Nat) (isShutdown : Bool)
    (jobTime countTime : String) : Option Transcript :=
  match invocation.request with
  | .filter request =>
    filterTranscript invocation.settings request (invocation.workers.getD machineWorkers) isShutdown
      jobTime countTime
  | .multiplex request => multiplexTranscript request isShutdown

end ParallelFilter.Command
