import ParallelFilter.Proofs.Backpressure
import Mathlib.Data.List.TakeWhile

/-! What the workers of a job make of their ranges when each goes on until it stops before the next
begins. The job is halted by the first value, in the order of the ranges and among those that are
tried at all, whose call cancels it or, under fail-fast, goes wrong. The workers before the one that
holds this value contribute what they do on their own, the holder what it has done up to the value,
and those after it nothing. Everything here is a function of the ranges and the predicate alone, and
mentions neither channel nor schedule. -/

namespace ParallelFilter

section Through

variable {α : Type}

/-- The items up to the first one with the property, it included. -/
def takeThrough (p : α → Bool) : List α → List α
  | [] => []
  | item :: items => if p item then [item] else item :: takeThrough p items

variable {p q : α → Bool} {item : α} {items : List α}

theorem takeThrough_cons_of_pos (h : p item = true) : takeThrough p (item :: items) = [item] := by
  rw [takeThrough, if_pos h]

theorem takeThrough_cons_of_neg (h : p item = false) :
    takeThrough p (item :: items) = item :: takeThrough p items := by
  rw [takeThrough, if_neg (Bool.eq_false_iff.1 h)]

theorem takeThrough_eq_append (p : α → Bool) (items : List α) :
    takeThrough p items = items.takeWhile (fun item => !p item) ++ (items.find? p).toList := by
  induction items with
  | nil => rfl
  | cons item items ih =>
      cases h : p item with
      | true =>
          rw [takeThrough_cons_of_pos h, List.takeWhile_cons_of_neg (by rw [h]; decide),
            List.find?_cons_of_pos h]
          rfl
      | false =>
          rw [takeThrough_cons_of_neg h, ih, List.takeWhile_cons_of_pos (by rw [h]; rfl),
            List.find?_cons_of_neg (by rw [h]; decide)]
          rfl

theorem takeThrough_prefix (p : α → Bool) (items : List α) : takeThrough p items <+: items := by
  induction items with
  | nil => exact List.prefix_rfl
  | cons item items ih =>
      cases h : p item with
      | true =>
          rw [takeThrough_cons_of_pos h]
          exact ⟨items, rfl⟩
      | false =>
          rw [takeThrough_cons_of_neg h]
          exact (List.prefix_cons_inj item).2 ih

theorem takeThrough_of_find?_eq_none (h : items.find? p = none) : takeThrough p items = items := by
  rw [takeThrough_eq_append, h, Option.toList_none, List.append_nil, List.takeWhile_eq_self_iff]
  intro item hitem
  rw [Bool.eq_false_iff.2 (List.find?_eq_none.1 h item hitem)]
  rfl

theorem find?_takeThrough (p : α → Bool) (items : List α) :
    (takeThrough p items).find? p = items.find? p := by
  induction items with
  | nil => rfl
  | cons item items ih =>
      cases h : p item with
      | true => rw [takeThrough_cons_of_pos h, List.find?_cons_of_pos h, List.find?_cons_of_pos h]
      | false =>
          rw [takeThrough_cons_of_neg h, List.find?_cons_of_neg (by rw [h]; decide),
            List.find?_cons_of_neg (by rw [h]; decide), ih]

theorem any_takeThrough (p : α → Bool) (items : List α) :
    (takeThrough p items).any p = items.any p := by
  rw [← List.isSome_find?, find?_takeThrough, List.isSome_find?]

/-- What is cut at one property and then at another is cut at the first item with either. -/
theorem takeThrough_takeThrough (p q : α → Bool) (items : List α) :
    takeThrough p (takeThrough q items) = takeThrough (fun item => q item || p item) items := by
  induction items with
  | nil => rfl
  | cons item items ih =>
      cases hq : q item with
      | true =>
          have hboth : (q item || p item) = true := by rw [hq, Bool.true_or]
          rw [takeThrough_cons_of_pos hq,
            takeThrough_cons_of_pos (p := fun item => q item || p item) hboth]
          cases hp : p item with
          | true => rw [takeThrough_cons_of_pos hp]
          | false =>
              rw [takeThrough_cons_of_neg hp]
              rfl
      | false =>
          rw [takeThrough_cons_of_neg hq]
          cases hp : p item with
          | true =>
              have hboth : (q item || p item) = true := by rw [hp, Bool.or_true]
              rw [takeThrough_cons_of_pos hp,
                takeThrough_cons_of_pos (p := fun item => q item || p item) hboth]
          | false =>
              have hboth : (q item || p item) = false := by rw [hq, hp, Bool.or_false]
              rw [takeThrough_cons_of_neg hp,
                takeThrough_cons_of_neg (p := fun item => q item || p item) hboth, ih]

variable {values : List Nat} {value other : Nat} {p : Nat → Bool}

/-- In ascending order, the values up to one are those that are not greater. -/
theorem takeThrough_eq_filter (hsorted : values.Pairwise (· < ·)) (h : values.find? p = some value) :
    takeThrough p values = values.filter (· ≤ value) := by
  induction values with
  | nil => cases h
  | cons first values ih =>
      obtain ⟨hfirst, hrest⟩ := List.pairwise_cons.1 hsorted
      cases hp : p first with
      | true =>
          rw [List.find?_cons_of_pos hp, Option.some_inj] at h
          have hnone : values.filter (· ≤ value) = [] := by
            rw [List.filter_eq_nil_iff]
            intro other hother
            rw [decide_eq_true_eq, ← h]
            exact Nat.not_le.2 (hfirst other hother)
          rw [takeThrough_cons_of_pos hp, List.filter_cons, if_pos (decide_eq_true h.le), hnone]
      | false =>
          rw [List.find?_cons_of_neg (by rw [hp]; decide)] at h
          have hle : first ≤ value := Nat.le_of_lt (hfirst value (List.mem_of_find?_eq_some h))
          rw [takeThrough_cons_of_neg hp, List.filter_cons, if_pos (decide_eq_true hle), ih hrest h]

/-- Before the last value there is none with the property. -/
theorem eq_false_of_mem_takeThrough (hsorted : values.Pairwise (· < ·))
    (h : value ∈ takeThrough p values) (hother : other ∈ values) (hlt : other < value) :
    p other = false := by
  induction values with
  | nil => cases hother
  | cons first values ih =>
      obtain ⟨hfirst, hrest⟩ := List.pairwise_cons.1 hsorted
      cases hp : p first with
      | true =>
          rw [takeThrough_cons_of_pos hp, List.mem_singleton] at h
          rcases List.mem_cons.1 hother with rfl | hmem
          · omega
          · have hless := hfirst other hmem
            omega
      | false =>
          rw [takeThrough_cons_of_neg hp] at h
          rcases List.mem_cons.1 hother with rfl | hmem
          · exact hp
          · rcases List.mem_cons.1 h with rfl | hvalue
            · exact absurd (hfirst other hmem) (Nat.lt_asymm hlt)
            · exact ih hrest hvalue hmem

end Through

section Relay

variable {α β : Type} {halts : Nat → Bool} {calls : Bool → α → List Nat} {halted : Bool}
  {items : List α}

/-- What the items call, one after another, where each is told whether one before it has halted, and
whether one has in the end. -/
def relay (halts : Nat → Bool) (calls : Bool → α → List Nat) (halted : Bool) :
    List α → List (List Nat) × Bool
  | [] => ([], halted)
  | item :: items =>
    let rest := relay halts calls (halted || (calls halted item).any halts) items
    (calls halted item :: rest.1, rest.2)

theorem relay_append (halts : Nat → Bool) (calls : Bool → α → List Nat) (halted : Bool)
    (items others : List α) :
    relay halts calls halted (items ++ others) =
      ((relay halts calls halted items).1 ++
        (relay halts calls (relay halts calls halted items).2 others).1,
        (relay halts calls (relay halts calls halted items).2 others).2) := by
  induction items generalizing halted with
  | nil => rfl
  | cons item items ih =>
      rw [List.cons_append, relay, ih]
      rfl

theorem relay_map {f : α → β} {others : Bool → β → List Nat}
    (hsame : ∀ item ∈ items, ∀ halted, calls halted item = others halted (f item)) :
    relay halts calls halted items = relay halts others halted (items.map f) := by
  induction items generalizing halted with
  | nil => rfl
  | cons item items ih =>
      rw [List.map_cons, relay, relay, hsame item List.mem_cons_self,
        ih fun other hother => hsame other (List.mem_cons_of_mem _ hother)]

/-- Items whose calls are settled pass on what they were told, if it was known already who has
halted. -/
theorem relay_of_settled {settled : α → List Nat}
    (hcalls : ∀ item ∈ items, calls halted item = settled item)
    (hknown : ∀ item ∈ items, (settled item).any halts = true → halted = true) :
    relay halts calls halted items = (items.map settled, halted) := by
  induction items with
  | nil => rfl
  | cons item items ih =>
      have hpassed : (halted || (settled item).any halts) = halted := by
        cases hany : (settled item).any halts with
        | true => rw [hknown item List.mem_cons_self hany, Bool.true_or]
        | false => rw [Bool.or_false]
      rw [relay, hcalls item List.mem_cons_self, hpassed, List.map_cons,
        ih (fun other hother => hcalls other (List.mem_cons_of_mem _ hother))
          fun other hother => hknown other (List.mem_cons_of_mem _ hother)]

theorem getElem?_relay {index : Nat} {item : α} (halts : Nat → Bool) (calls : Bool → α → List Nat)
    (halted : Bool) (hitem : items[index]? = some item) :
    ∃ before, (relay halts calls halted items).1[index]? = some (calls before item) := by
  induction items generalizing index halted with
  | nil => cases hitem
  | cons first items ih =>
      cases index with
      | zero =>
          cases hitem
          exact ⟨halted, rfl⟩
      | succ index => exact ih _ hitem

/-- What is counted of each item is no more in all than what is counted of all calls. -/
theorem sum_le_relay {p : Nat → Bool} {count : α → Nat} (halts : Nat → Bool) (halted : Bool)
    (hcount : ∀ item ∈ items, ∀ halted, count item ≤ (calls halted item).countP p) :
    (items.map count).sum ≤ ((relay halts calls halted items).1.map (List.countP p)).sum := by
  induction items generalizing halted with
  | nil => exact Nat.le_refl 0
  | cons item items ih =>
      rw [List.map_cons, relay, List.map_cons, List.sum_cons, List.sum_cons]
      exact Nat.add_le_add (hcount item List.mem_cons_self halted)
        (ih _ fun other hother => hcount other (List.mem_cons_of_mem _ hother))

end Relay

/-- The values of the span that are not greater than the given one. -/
def Span.upTo (span : Span) (value : Nat) : List Nat :=
  span.values.filter (· ≤ value)

theorem Span.length_upTo {span : Span} {value : Nat} (h : value ∈ span.values) :
    (span.upTo value).length = value + 1 - span.start := by
  have hle := span.start_le_stop
  simp only [mem_values, contains, Bool.and_eq_true, decide_eq_true_eq] at h
  have hcount : value + 1 - span.start ≤ span.length := by
    rw [length]
    omega
  have hbefore : (span.firstValues (value + 1 - span.start)).filter (· ≤ value) =
      span.firstValues (value + 1 - span.start) := by
    rw [List.filter_eq_self]
    intro other hother
    rw [firstValues, List.mem_range'_1] at hother
    rw [decide_eq_true_eq]
    omega
  have hafter : (List.range' (span.start + (value + 1 - span.start))
      (span.length - (value + 1 - span.start))).filter (· ≤ value) = [] := by
    rw [List.filter_eq_nil_iff]
    intro other hother
    rw [List.mem_range'_1] at hother
    rw [decide_eq_true_eq]
    omega
  rw [upTo, values_eq_append hcount, List.filter_append, hbefore, hafter, List.append_nil,
    length_firstValues hcount]

/-- What a worker contributes to its job: the values that it publishes, its report, and its fault if
it has one. -/
structure Contribution where
  values : List Nat
  outcome : WorkerOutcome
  deriving DecidableEq

namespace Predicate

variable (predicate : Predicate) (failFast : Bool)

/-- Whether a call on the value halts the job: it cancels it or, under fail-fast, goes wrong. -/
def halts (value : Nat) : Bool :=
  match predicate value with
  | .decided _ cancels => cancels.isSome
  | .failed _ | .panicked _ => failFast

/-- The values that a worker tries on its own: those that are decided, and the one that stops it. -/
def tried (range : Span) : List Nat :=
  predicate.reached range ++ (predicate.obstacle? range).toList

/-- The value that halts the job: the first one that does, of those that the workers try one after
another. -/
def halt? (ranges : List Span) : Option Nat :=
  (ranges.flatMap predicate.tried).find? (predicate.halts failFast)

/-- The worker that holds the value. -/
def holder (ranges : List Span) : Nat :=
  ranges.findIdx fun range => (predicate.tried range).any (predicate.halts failFast)

/-- What a worker contributes on its own. -/
def soloContribution (id : Nat) (range : Span) : Contribution :=
  ⟨predicate.soloValues range, predicate.soloSummary id range, predicate.soloFault id range⟩

/-- What the worker contributes that halts its job at the given value. It cannot tell that the job
is cancelled when there is nothing left for it to do. -/
def haltedContribution (id : Nat) (range : Span) (value : Nat) : Contribution where
  values := (range.upTo value).filter predicate.accepts
  outcome.summary.worker := id
  outcome.summary.range := range
  outcome.summary.evaluated := (range.upTo value).countP predicate.decides
  outcome.summary.accepted := (range.upTo value).countP predicate.accepts
  outcome.summary.status :=
    if predicate.decides value then
      if value + 1 = range.stop then .completed else .cancelled
    else .faulted
  outcome.fault := predicate.faultOn id range value

/-- What a worker contributes whose job was halted before it began. -/
def idleContribution (id : Nat) (range : Span) : Contribution :=
  ⟨[], ⟨id, range, 0, 0, if range.isEmpty then .completed else .cancelled⟩, none⟩

/-- What the worker at the given place contributes when the workers of the ranges take turns. -/
def contribution (ranges : List Span) (index : Nat) (range : Span) : Contribution :=
  match predicate.halt? failFast ranges with
  | none => predicate.soloContribution index range
  | some value =>
    if index < predicate.holder failFast ranges then predicate.soloContribution index range
    else if index = predicate.holder failFast ranges then predicate.haltedContribution index range value
    else idleContribution index range

/-- What a worker contributes that has called the predicate on these values and published all that
were accepted. -/
def contributionOf (id : Nat) (range : Span) (calls : List Nat) : Contribution where
  values := calls.filter predicate.accepts
  outcome.summary.worker := id
  outcome.summary.range := range
  outcome.summary.evaluated := calls.countP predicate.decides
  outcome.summary.accepted := calls.countP predicate.accepts
  outcome.summary.status :=
    if calls.all predicate.decides then if calls.length = range.length then .completed
      else .cancelled else .faulted
  outcome.fault := (calls.find? fun value => !predicate.decides value).bind (predicate.faultOn id range)

/-- Whether the call on the value is the last one of its worker: it goes wrong, or it halts the job. -/
def ends (value : Nat) : Bool :=
  !predicate.decides value || predicate.halts failFast value

variable {predicate failFast} {range : Span} {value : Nat} {id : Nat}

/-- A call that decides halts the job if and only if it cancels it. -/
theorem halts_of_decided {accepted : Bool} {cancels : Option Scope}
    (hcall : predicate value = .decided accepted cancels) :
    predicate.decides value = true ∧ predicate.halts failFast value = cancels.isSome := by
  simp only [decides, halts, hcall, and_self]

theorem faultOn_of_decides (h : predicate.decides value = true) :
    predicate.faultOn id range value = none := by
  cases hcall : predicate value with
  | decided accepted cancels => rw [faultOn, hcall]
  | failed message => simp only [decides, hcall, Bool.false_eq_true] at h
  | panicked message => simp only [decides, hcall, Bool.false_eq_true] at h

theorem tried_eq_takeThrough (predicate : Predicate) (range : Span) :
    predicate.tried range = takeThrough (fun value => !predicate.decides value) range.values := by
  rw [takeThrough_eq_append, tried, reached, obstacle?]
  simp only [Bool.not_not]

theorem takeThrough_tried (predicate : Predicate) (failFast : Bool) (range : Span) :
    takeThrough (predicate.halts failFast) (predicate.tried range) =
      takeThrough (predicate.ends failFast) range.values := by
  rw [tried_eq_takeThrough, takeThrough_takeThrough]
  rfl

theorem tried_prefix (predicate : Predicate) (range : Span) :
    predicate.tried range <+: range.values := by
  rw [tried_eq_takeThrough]
  exact takeThrough_prefix _ _

theorem sorted_tried (predicate : Predicate) (range : Span) :
    (predicate.tried range).Pairwise (· < ·) :=
  range.sorted_values.sublist (predicate.tried_prefix range).sublist

/-- A value that is tried is only preceded by values that are decided. -/
theorem decides_of_mem_tried {other : Nat} (h : value ∈ predicate.tried range)
    (hother : other ∈ range.values) (hlt : other < value) : predicate.decides other = true := by
  rw [tried_eq_takeThrough] at h
  have hnot := eq_false_of_mem_takeThrough range.sorted_values h hother hlt
  rwa [Bool.not_eq_false'] at hnot

/-- The values before the one that halts, and it, are all that was called. -/
theorem takeThrough_tried_of_find?
    (h : (predicate.tried range).find? (predicate.halts failFast) = some value) :
    takeThrough (predicate.ends failFast) range.values = range.upTo value := by
  have hmem : value ∈ predicate.tried range := List.mem_of_find?_eq_some h
  obtain ⟨rest, hrest⟩ := predicate.tried_prefix range
  have hnone : rest.filter (· ≤ value) = [] := by
    have hsorted := range.sorted_values
    rw [← hrest] at hsorted
    rw [List.filter_eq_nil_iff]
    intro other hother
    rw [decide_eq_true_eq]
    exact Nat.not_le.2 ((List.pairwise_append.1 hsorted).2.2 value hmem other hother)
  rw [← takeThrough_tried, takeThrough_eq_filter (predicate.sorted_tried range) h, Span.upTo, ← hrest,
    List.filter_append, hnone, List.append_nil]

theorem not_decides_of_obstacle? (h : predicate.obstacle? range = some value) :
    predicate.decides value = false := by
  have hnot := List.find?_some h
  rwa [Bool.not_eq_true'] at hnot

theorem filter_tried (predicate : Predicate) (range : Span) :
    (predicate.tried range).filter predicate.accepts = predicate.soloValues range := by
  rw [tried, List.filter_append, soloValues]
  cases hobstacle : predicate.obstacle? range with
  | none => exact List.append_nil _
  | some value =>
      rw [Option.toList_some, List.filter_singleton, accepts_of_not_decides
        (not_decides_of_obstacle? hobstacle)]
      exact List.append_nil _

theorem countP_tried (predicate : Predicate) (range : Span) :
    (predicate.tried range).countP predicate.decides = (predicate.reached range).length := by
  rw [tried, List.countP_append, List.countP_eq_length.2 fun value hvalue =>
    List.mem_takeWhile_imp hvalue]
  cases hobstacle : predicate.obstacle? range with
  | none => rfl
  | some value =>
      rw [Option.toList_some, List.countP_singleton, not_decides_of_obstacle? hobstacle]
      rfl

theorem find?_tried (predicate : Predicate) (range : Span) :
    (predicate.tried range).find? (fun value => !predicate.decides value) =
      predicate.obstacle? range := by
  rw [tried_eq_takeThrough, find?_takeThrough, obstacle?]

theorem tried_of_obstacle?_eq_none (h : predicate.obstacle? range = none) :
    predicate.tried range = range.values := by
  rw [tried_eq_takeThrough]
  exact takeThrough_of_find?_eq_none h

theorem contributionOf_tried (id : Nat) (range : Span) :
    predicate.contributionOf id range (predicate.tried range) =
      predicate.soloContribution id range := by
  have hdecided : (predicate.tried range).all predicate.decides =
      !(predicate.obstacle? range).isSome := by
    rw [List.all_eq_not_any_not, ← find?_tried, List.isSome_find?]
  have hstatus : (if (predicate.tried range).all predicate.decides then
      if (predicate.tried range).length = range.length then .completed else .cancelled
        else Status.faulted) =
        if (predicate.obstacle? range).isSome then .faulted else .completed := by
    rw [hdecided]
    cases hobstacle : predicate.obstacle? range with
    | none =>
        rw [tried_of_obstacle?_eq_none hobstacle, if_pos range.length_values]
        rfl
    | some value => rfl
  rw [contributionOf, soloContribution, soloSummary, soloFault, filter_tried, countP_tried, hstatus,
    find?_tried, List.countP_eq_length_filter, filter_tried]
  rfl

theorem contributionOf_upTo
    (h : (predicate.tried range).find? (predicate.halts failFast) = some value) (id : Nat) :
    predicate.contributionOf id range (range.upTo value) =
      predicate.haltedContribution id range value := by
  have htried : value ∈ predicate.tried range := List.mem_of_find?_eq_some h
  have hmem : value ∈ range.values := (predicate.tried_prefix range).subset htried
  have hlast : value ∈ range.upTo value := List.mem_filter.2 ⟨hmem, decide_eq_true (Nat.le_refl value)⟩
  -- only the last of the values may be undecided
  have hundecided {other : Nat} (hother : other ∈ range.upTo value)
      (hnot : predicate.decides other = false) :
      other = value := by
    obtain ⟨hother, hle⟩ := List.mem_filter.1 hother
    by_contra hne
    rw [decides_of_mem_tried htried hother (Nat.lt_of_le_of_ne (of_decide_eq_true hle) hne)] at hnot
    cases hnot
  have hdecided : (range.upTo value).all predicate.decides = predicate.decides value := by
    cases hvalue : predicate.decides value with
    | true =>
        rw [List.all_eq_true]
        intro other hother
        by_contra hnot
        rw [hundecided hother (Bool.eq_false_iff.2 hnot)] at hnot
        exact hnot hvalue
    | false =>
        rw [List.all_eq_false]
        exact ⟨value, hlast, by rw [hvalue]; decide⟩
  have hend : (range.upTo value).length = range.length ↔ value + 1 = range.stop := by
    have hle := range.start_le_stop
    rw [Span.length_upTo hmem, Span.length]
    simp only [Span.mem_values, Span.contains, Bool.and_eq_true, decide_eq_true_eq] at hmem
    omega
  have hfault : ((range.upTo value).find? fun value => !predicate.decides value).bind
      (predicate.faultOn id range) =
      predicate.faultOn id range value := by
    cases hfind : (range.upTo value).find? fun value => !predicate.decides value with
    | none =>
        have hvalue := List.find?_eq_none.1 hfind value hlast
        rw [Bool.not_eq_true', Bool.not_eq_false] at hvalue
        rw [faultOn_of_decides hvalue, Option.bind_none]
    | some other =>
        have hnot : predicate.decides other = false := by simpa using List.find?_some hfind
        rw [Option.bind_some, hundecided (List.mem_of_find?_eq_some hfind) hnot]
  rw [contributionOf, haltedContribution, hdecided, hfault]
  simp only [hend]

theorem contributionOf_nil (predicate : Predicate) (id : Nat) (range : Span) :
    predicate.contributionOf id range [] = idleContribution id range := by
  have hempty : (if range.isEmpty then Status.completed else .cancelled) =
      if 0 = range.length then .completed else .cancelled := by
    have hiff := range.isEmpty_iff
    by_cases hlt : 0 < range.length
    · rw [if_neg fun h => hiff.1 h hlt, if_neg (Nat.ne_of_lt hlt)]
    · rw [if_pos (hiff.2 hlt), if_pos (Nat.eq_zero_of_not_pos hlt).symm]
  rw [idleContribution, hempty]
  rfl

/-- What a worker calls the predicate on when its turn comes and the job was halted before, or was
not. -/
def turn (predicate : Predicate) (failFast halted : Bool) (range : Span) : List Nat :=
  if halted then [] else takeThrough (predicate.ends failFast) range.values

/-- What the worker at the given place calls the predicate on when the workers of the ranges take
turns. -/
def callsInTurn (predicate : Predicate) (failFast : Bool) (ranges : List Span) (index : Nat)
    (range : Span) : List Nat :=
  match predicate.halt? failFast ranges with
  | none => predicate.tried range
  | some value =>
    if index < predicate.holder failFast ranges then predicate.tried range
    else if index = predicate.holder failFast ranges then range.upTo value
    else []

variable {ranges : List Span} {index : Nat}

theorem halt?_cons_of_find? (h : (predicate.tried range).find? (predicate.halts failFast) = some value)
    (ranges : List Span) :
    predicate.halt? failFast (range :: ranges) = some value ∧
      predicate.holder failFast (range :: ranges) = 0 := by
  have hany : (predicate.tried range).any (predicate.halts failFast) = true := by
    rw [← List.isSome_find?, h]
    rfl
  rw [halt?, List.flatMap_cons, List.find?_append, h, holder, List.findIdx_cons, hany]
  exact ⟨rfl, rfl⟩

theorem halt?_cons_of_find?_eq_none
    (h : (predicate.tried range).find? (predicate.halts failFast) = none) (ranges : List Span) :
    predicate.halt? failFast (range :: ranges) = predicate.halt? failFast ranges ∧
      predicate.holder failFast (range :: ranges) = predicate.holder failFast ranges + 1 := by
  have hany : (predicate.tried range).any (predicate.halts failFast) = false := by
    rw [← List.isSome_find?, h]
    rfl
  rw [halt?, List.flatMap_cons, List.find?_append, h, Option.none_or, holder, List.findIdx_cons, hany]
  exact ⟨rfl, rfl⟩

theorem callsInTurn_cons_of_find?
    (h : (predicate.tried range).find? (predicate.halts failFast) = some value) (ranges : List Span) :
    predicate.callsInTurn failFast (range :: ranges) 0 range = range.upTo value ∧
      (fun index => predicate.callsInTurn failFast (range :: ranges) (index + 1)) = fun _ _ => [] := by
  obtain ⟨hhalt, hholder⟩ := halt?_cons_of_find? h ranges
  constructor
  · simp only [callsInTurn, hhalt, hholder, Nat.lt_irrefl, if_false, if_true]
  · funext index other
    simp only [callsInTurn, hhalt, hholder, Nat.not_lt_zero, Nat.succ_ne_zero, if_false]

theorem callsInTurn_cons_of_find?_eq_none
    (h : (predicate.tried range).find? (predicate.halts failFast) = none) (ranges : List Span) :
    predicate.callsInTurn failFast (range :: ranges) 0 range = predicate.tried range ∧
      (fun index => predicate.callsInTurn failFast (range :: ranges) (index + 1)) =
        predicate.callsInTurn failFast ranges := by
  obtain ⟨hhalt, hholder⟩ := halt?_cons_of_find?_eq_none h ranges
  constructor
  · simp only [callsInTurn, hholder, Nat.succ_pos, if_true]
    split <;> rfl
  · funext index other
    simp only [callsInTurn, hhalt, hholder, Nat.add_lt_add_iff_right, Nat.add_right_cancel_iff]

/-- The value that halts the job is the first that its holder tries and that halts. -/
theorem find?_tried_holder (h : predicate.halt? failFast ranges = some value)
    (hrange : ranges[predicate.holder failFast ranges]? = some range) :
    (predicate.tried range).find? (predicate.halts failFast) = some value := by
  induction ranges with
  | nil => cases hrange
  | cons first ranges ih =>
      cases hfind : (predicate.tried first).find? (predicate.halts failFast) with
      | some other =>
          obtain ⟨hhalt, hholder⟩ := halt?_cons_of_find? hfind ranges
          rw [hholder, List.getElem?_cons_zero] at hrange
          rw [hhalt] at h
          rw [← Option.some.inj hrange, hfind, h]
      | none =>
          obtain ⟨hhalt, hholder⟩ := halt?_cons_of_find?_eq_none hfind ranges
          rw [hholder, List.getElem?_cons_succ] at hrange
          exact ih (hhalt.symm.trans h) hrange

theorem contribution_eq (hrange : ranges[index]? = some range) :
    predicate.contribution failFast ranges index range =
    predicate.contributionOf index range (predicate.callsInTurn failFast ranges index range) := by
  unfold contribution callsInTurn
  split
  · rw [contributionOf_tried]
  · rename_i value hhalt
    split
    · rw [contributionOf_tried]
    · split
      · rename_i hholder
        rw [contributionOf_upTo (find?_tried_holder hhalt (hholder ▸ hrange))]
      · rw [contributionOf_nil]

/-- How many values are accepted in all when the workers of the ranges take turns. -/
def acceptedInTurn (predicate : Predicate) (failFast : Bool) (ranges : List Span) : Nat :=
  (ranges.mapIdx fun index range =>
    (predicate.contribution failFast ranges index range).values.length).sum

theorem acceptedInTurn_eq (predicate : Predicate) (failFast : Bool) (ranges : List Span) :
    predicate.acceptedInTurn failFast ranges =
      ((ranges.mapIdx (predicate.callsInTurn failFast ranges)).map
        (List.countP predicate.accepts)).sum := by
  rw [acceptedInTurn]
  congr 1
  apply List.ext_getElem?
  intro index
  rw [List.getElem?_map, List.getElem?_mapIdx, List.getElem?_mapIdx, Option.map_map]
  cases hrange : ranges[index]? with
  | none => rfl
  | some range =>
      rw [Option.map_some, Option.map_some, contribution_eq hrange]
      exact congrArg some List.countP_eq_length_filter.symm

/-- Turns after the job was halted are empty. -/
theorem relay_turn_halted (predicate : Predicate) (failFast : Bool) (ranges : List Span) :
    relay (predicate.halts failFast) (predicate.turn failFast) true ranges =
      (ranges.map fun _ => [], true) :=
  relay_of_settled (fun _ _ => rfl) fun _ _ _ => rfl

/-- One turn after another, the predicate is called on what the description says. -/
theorem relay_turn (predicate : Predicate) (failFast : Bool) (ranges : List Span) :
    relay (predicate.halts failFast) (predicate.turn failFast) false ranges =
      (ranges.mapIdx (predicate.callsInTurn failFast ranges),
        (predicate.halt? failFast ranges).isSome) := by
  induction ranges with
  | nil => rfl
  | cons range ranges ih =>
      rw [relay, List.mapIdx_cons, Bool.false_or]
      have hturn : predicate.turn failFast false range =
          takeThrough (predicate.halts failFast) (predicate.tried range) :=
        (predicate.takeThrough_tried failFast range).symm
      cases hfind : (predicate.tried range).find? (predicate.halts failFast) with
      | some value =>
          obtain ⟨hhalt, -⟩ := halt?_cons_of_find? hfind ranges
          have hhalted : (predicate.turn failFast false range).any (predicate.halts failFast) =
              true := by
            rw [hturn, any_takeThrough, ← List.isSome_find?, hfind]
            rfl
          have hupTo : predicate.turn failFast false range = range.upTo value :=
            takeThrough_tried_of_find? hfind
          obtain ⟨hfirst, hlater⟩ := callsInTurn_cons_of_find? hfind ranges
          rw [hhalted, relay_turn_halted, hupTo, hfirst, hlater, hhalt, List.mapIdx_eq_zipIdx_map]
          simp
      | none =>
          obtain ⟨hhalt, -⟩ := halt?_cons_of_find?_eq_none hfind ranges
          have hgoesOn : (predicate.turn failFast false range).any (predicate.halts failFast) =
              false := by
            rw [hturn, any_takeThrough, ← List.isSome_find?, hfind]
            rfl
          have htried : predicate.turn failFast false range = predicate.tried range := by
            rw [hturn, takeThrough_of_find?_eq_none hfind]
          obtain ⟨hfirst, hlater⟩ := callsInTurn_cons_of_find?_eq_none hfind ranges
          rw [hgoesOn, ih, htried, hfirst, hlater, hhalt]

end Predicate

end ParallelFilter
