import ParallelFilter.Command.Arguments
import ParallelFilter.Settings
import ParallelFilter.Multiplexer

/-! The command line as a request: what was left out gets its default, and what cannot be run is
refused. -/

namespace ParallelFilter.Command

structure FilterRequest where
  total : Nat
  predicate : NumberKind
  /-- Whether the matches are also counted one after another, for comparison. -/
  compareSequential : Bool
  /-- Whether every accepted value is printed. -/
  print : Bool
  deriving DecidableEq

structure MultiplexRequest where
  ints : Nat
  texts : Nat
  patience : Patience
  idleTickUs : Nat
  deriving DecidableEq

inductive Request where
  | filter (request : FilterRequest)
  | multiplex (request : MultiplexRequest)
  deriving DecidableEq

structure Invocation where
  /-- The number of workers; `none` leaves it to the machine. -/
  workers : Option Nat
  settings : Settings
  request : Request
  deriving DecidableEq

/-- Why a command line was refused. -/
inductive Refusal where
  | arguments (error : ArgumentError)
  | noCapacity
  | noIdleTick
  deriving DecidableEq

/-- The text of a refusal that is not for the words themselves. -/
def Refusal.message : Refusal → String
  | .arguments error => error.kind
  | .noCapacity => "FANLINE_CHANNEL_CAPACITY must be greater than 0"
  | .noIdleTick => "--idle-tick-us must be greater than 0"

/-- How long the demonstration's multiplexer sleeps, in microseconds, unless it is told otherwise. -/
def defaultIdleTickUs : Nat := 100

namespace Parsed

def number (parsed : Parsed) (key : Key) (default : Nat) : Nat :=
  match parsed.find? key with
  | some (.number value) => value
  | _ => default

def flag (parsed : Parsed) (key : Key) : Bool :=
  (parsed.find? key).isSome

def name? (parsed : Parsed) (key : Key) : Option String :=
  match parsed.find? key with
  | some (.choice name) => some name
  | _ => none

def patience (parsed : Parsed) : Patience :=
  match parsed.name? .idlePolicy with
  | some "retry" => .retry (parsed.number .retries 3)
  | some "forever" => .forever
  | _ => .exit

/-- The request that was parsed. The channel capacity is checked for every command, although only the
filter uses it. -/
def invocation (parsed : Parsed) : Except Refusal Invocation := do
  let workers := parsed.number .workers 0
  let capacity := parsed.number .channelCapacity { : Settings }.capacity
  if capacity = 0 then throw .noCapacity
  let workers := if workers = 0 then none else some workers
  match parsed.name with
  | .filter =>
    let strategy := if parsed.flag .balanced then .balanced else .truncate
    return {
      workers
      settings := { capacity, failFast := parsed.flag .failFast, strategy }
      request := .filter {
        total := parsed.number .total 1000000
        predicate := ((parsed.name? .predicate).bind NumberKind.ofName?).getD .prime
        compareSequential := parsed.flag .compareSequential
        print := parsed.flag .print } }
  | .multiplex =>
    let idleTickUs := parsed.number .idleTickUs defaultIdleTickUs
    if idleTickUs = 0 then throw .noIdleTick
    return {
      workers
      settings := { capacity }
      request := .multiplex {
        ints := parsed.number .ints 10
        texts := parsed.number .texts 5
        patience := parsed.patience
        idleTickUs } }

end Parsed

/-- Reads a command line and checks it. -/
def invoke (environment : Environment) (words : List String) : Except Refusal Invocation :=
  match parse environment words with
  | .error error => .error (.arguments error)
  | .ok parsed => parsed.invocation

end ParallelFilter.Command
