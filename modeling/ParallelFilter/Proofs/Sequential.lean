import ParallelFilter.Report
import ParallelFilter.Predicate
import Mathlib.Data.List.Basic

/-! What one worker makes of its range when nobody stops it from outside. It decides the values in
ascending order up to the first one on which the predicate fails or panics, and publishes those that
are accepted. Everything here is a function of the range and the predicate alone, and mentions neither
channel nor schedule. -/

namespace ParallelFilter

namespace Span

theorem length_firstValues {span : Span} {count : Nat} (h : count ≤ span.length) :
    (span.firstValues count).length = count := by
  rw [firstValues, List.length_range', Nat.min_eq_left h]

theorem firstValues_succ {span : Span} {count : Nat} (h : count < span.length) :
    span.firstValues (count + 1) = span.firstValues count ++ [span.start + count] := by
  rw [firstValues, firstValues, Nat.min_eq_left h, Nat.min_eq_left (Nat.le_of_lt h),
    List.range'_1_concat]

theorem firstValues_length (span : Span) : span.firstValues span.length = span.values := by
  rw [firstValues, Nat.min_self, values]

theorem values_eq_append {span : Span} {count : Nat} (h : count ≤ span.length) :
    span.values =
      span.firstValues count ++ List.range' (span.start + count) (span.length - count) := by
  rw [firstValues, Nat.min_eq_left h, List.range'_append_1, Nat.add_sub_of_le h, values]

theorem firstValues_prefix (span : Span) (count : Nat) : span.firstValues count <+: span.values := by
  rw [firstValues_eq_take]
  exact List.take_prefix _ _

theorem sorted_values (span : Span) : span.values.Pairwise (· < ·) :=
  List.pairwise_lt_range'

end Span

namespace Predicate

variable (predicate : Predicate)

/-- Whether a call on the value ends with a decision. -/
def decides (value : Nat) : Bool :=
  match predicate value with
  | .decided _ _ => true
  | .failed _ | .panicked _ => false

def accepts (value : Nat) : Bool :=
  match predicate value with
  | .decided accepted _ => accepted
  | .failed _ | .panicked _ => false

/-- No call asks for a cancellation. -/
def Calm : Prop :=
  ∀ value accepted scope, predicate value ≠ .decided accepted (some scope)

/-- The accepted values among the first `count` values of the range. -/
def hits (range : Span) (count : Nat) : List Nat :=
  (range.firstValues count).filter predicate.accepts

/-- The values of the range before the first one that is not decided. -/
def reached (range : Span) : List Nat :=
  range.values.takeWhile predicate.decides

/-- The first value of the range that is not decided. -/
def obstacle? (range : Span) : Option Nat :=
  range.values.find? fun value => !predicate.decides value

/-- What a worker on its own publishes. -/
def soloValues (range : Span) : List Nat :=
  (predicate.reached range).filter predicate.accepts

/-- What a worker on its own reports. -/
def soloSummary (id : Nat) (range : Span) : WorkerSummary where
  worker := id
  range
  evaluated := (predicate.reached range).length
  accepted := (predicate.soloValues range).length
  status := if (predicate.obstacle? range).isSome then .faulted else .completed

/-- The fault of a worker on its own. A failure names the value it happened on, a panic does not. -/
def soloFault (id : Nat) (range : Span) : Option Fault :=
  (predicate.obstacle? range).bind fun value =>
    match predicate value with
    | .decided _ _ => none
    | .failed reason => some ⟨id, range, some value, reason⟩
    | .panicked payload => some ⟨id, range, none, "panicked: " ++ payload.message⟩

variable {predicate}

/-- What is accepted is decided. -/
theorem accepts_of_not_decides {value : Nat} (h : predicate.decides value = false) :
    predicate.accepts value = false := by
  unfold decides at h
  unfold accepts
  split at h
  · cases h
  · rfl
  · rfl

@[simp] theorem hits_zero (range : Span) : predicate.hits range 0 = [] := by
  simp [hits, Span.firstValues]

theorem hits_succ {range : Span} {count : Nat} (h : count < range.length) :
    predicate.hits range (count + 1) = predicate.hits range count ++
      if predicate.accepts (range.start + count) then [range.start + count] else [] := by
  rw [hits, Span.firstValues_succ h, List.filter_append, hits, List.filter_singleton,
    Bool.cond_eq_ite]

theorem hits_length (range : Span) :
    predicate.hits range range.length = range.values.filter predicate.accepts := by
  rw [hits, Span.firstValues_length]

theorem hits_prefix (range : Span) (count : Nat) :
    predicate.hits range count <+: range.values.filter predicate.accepts :=
  (range.firstValues_prefix count).filter _

/-- What is published in an undisturbed run comes in ascending order and once each. -/
theorem sorted_soloValues (range : Span) : (predicate.soloValues range).Pairwise (· < ·) :=
  (range.sorted_values.sublist (List.takeWhile_sublist _)).filter _

section Reached

variable {range : Span} {count : Nat} (hle : count ≤ range.length)
  (hdecided : ∀ value ∈ range.firstValues count, predicate.decides value = true)

include hle hdecided

theorem reached_eq_append : predicate.reached range = range.firstValues count ++
    (List.range' (range.start + count) (range.length - count)).takeWhile predicate.decides := by
  rw [reached, Span.values_eq_append hle, List.takeWhile_append_of_pos hdecided]

theorem obstacle?_eq_find? : predicate.obstacle? range =
    (List.range' (range.start + count) (range.length - count)).find?
      fun value => !predicate.decides value := by
  have hnone : (range.firstValues count).find? (fun value => !predicate.decides value) = none := by
    rw [List.find?_eq_none]
    intro value hvalue
    rw [hdecided value hvalue]
    decide
  rw [obstacle?, Span.values_eq_append hle, List.find?_append, hnone, Option.none_or]

/-- A range that was decided to its end has no obstacle. -/
theorem reached_of_complete (hend : count = range.length) :
    predicate.reached range = range.firstValues count ∧ predicate.obstacle? range = none := by
  rw [reached_eq_append hle hdecided, obstacle?_eq_find? hle hdecided, hend, Nat.sub_self]
  exact ⟨List.append_nil _, rfl⟩

/-- The first value that is not decided is the obstacle. -/
theorem reached_of_obstacle (hlt : count < range.length)
    (hnot : predicate.decides (range.start + count) = false) :
    predicate.reached range = range.firstValues count ∧
      predicate.obstacle? range = some (range.start + count) := by
  obtain ⟨rest, hrest⟩ : ∃ rest, range.length - count = rest + 1 := ⟨range.length - count - 1, by omega⟩
  rw [reached_eq_append hle hdecided, obstacle?_eq_find? hle hdecided, hrest, List.range'_succ,
    List.takeWhile_cons_of_neg (by rw [hnot]; decide), List.find?_cons_of_pos (by rw [hnot]; rfl)]
  exact ⟨List.append_nil _, rfl⟩

end Reached

end Predicate

end ParallelFilter
