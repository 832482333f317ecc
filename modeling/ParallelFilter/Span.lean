/-! Half-open spans of work units. A span knows that its start is not past its end, so its length is the
number of its values. Spans are ordered by their start and then by their end. -/

namespace ParallelFilter

/-- The span `[start, stop)`. -/
structure Span where
  start : Nat
  stop : Nat
  start_le_stop : start ≤ stop := by omega
  deriving DecidableEq

namespace Span

def length (span : Span) : Nat :=
  span.stop - span.start

def isEmpty (span : Span) : Bool :=
  span.start == span.stop

def contains (span : Span) (value : Nat) : Bool :=
  span.start ≤ value && value < span.stop

/-- The values of the span in ascending order. -/
def values (span : Span) : List Nat :=
  List.range' span.start span.length

/-- The first `count` values of the span, or all of them when there are fewer. -/
def firstValues (span : Span) (count : Nat) : List Nat :=
  List.range' span.start (min count span.length)

def lastValue? (span : Span) : Option Nat :=
  if span.isEmpty then none else some (span.stop - 1)

def text (span : Span) : String :=
  "[" ++ toString span.start ++ ", " ++ toString span.stop ++ ")"

instance : Ord Span where
  compare left right := (compare left.start right.start).then (compare left.stop right.stop)

/-- The spans in ascending order. -/
def sort (spans : List Span) : List Span :=
  spans.mergeSort fun left right => (compare left right).isLE

/-- The number of values in all the spans together, each span counted for itself. -/
def covered (spans : List Span) : Nat :=
  (spans.map length).foldr (· + ·) 0

theorem mem_values {span : Span} {value : Nat} :
    value ∈ span.values ↔ span.contains value = true := by
  have := span.start_le_stop
  simp only [values, length, contains, List.mem_range'_1, Bool.and_eq_true, decide_eq_true_eq]
  omega

theorem length_values (span : Span) : span.values.length = span.length := by
  simp [values]

theorem firstValues_eq_take (span : Span) (count : Nat) :
    span.firstValues count = span.values.take count := by
  apply List.ext_getElem <;> simp [firstValues, values]

end Span

end ParallelFilter
