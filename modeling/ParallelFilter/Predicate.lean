import ParallelFilter.Number.Prime
import ParallelFilter.Number.Square

/-! Predicates on work units. One call of a predicate may accept or reject the value, possibly after
asking for a cancellation, or fail with a reason, or panic. -/

namespace ParallelFilter

/-- What a panic leaves behind: a text, or something that cannot be shown. -/
inductive PanicPayload where
  | text (message : String)
  | other
  deriving DecidableEq

def PanicPayload.message : PanicPayload → String
  | .text message => message
  | .other => "unknown panic payload"

/-- Whom a cancellation stops. -/
inductive Scope where
  /-- One job. -/
  | job
  /-- Every job of the pool, now and later. -/
  | pool
  deriving DecidableEq

/-- The outcome of one call of a predicate. -/
inductive Outcome where
  | decided (accepted : Bool) (cancels : Option Scope)
  | failed (reason : String)
  | panicked (payload : PanicPayload)
  deriving DecidableEq

abbrev Predicate := Nat → Outcome

/-- The predicate that only decides, by `accepts`. -/
def Predicate.ofBool (accepts : Nat → Bool) : Predicate :=
  fun value => .decided (accepts value) none

/-- The predicates known by name. -/
inductive NumberKind where
  | prime
  | even
  | odd
  | square
  deriving DecidableEq

namespace NumberKind

def accepts : NumberKind → Nat → Bool
  | .prime, value => Number.isPrime value
  | .even, value => value % 2 == 0
  | .odd, value => value % 2 == 1
  | .square, value => Number.isSquare value

/-- The name by which a kind is chosen. -/
def name : NumberKind → String
  | .prime => "prime"
  | .even => "even"
  | .odd => "odd"
  | .square => "square"

/-- The name under which a kind is reported. -/
def title : NumberKind → String
  | .prime => "Prime"
  | .even => "Even"
  | .odd => "Odd"
  | .square => "Square"

def all : List NumberKind := [.prime, .even, .odd, .square]

/-- The kind with exactly this name. -/
def ofName? (name : String) : Option NumberKind :=
  all.find? (·.name == name)

end NumberKind

end ParallelFilter
