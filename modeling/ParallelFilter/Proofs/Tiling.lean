import ParallelFilter.Partition
import Mathlib.Data.List.Basic

/-! How a partition tiles its total. The range of each worker begins where the one before it stops,
so the ranges are disjoint, and their values one after another count from zero to what is covered. -/

namespace ParallelFilter

/-- How much of the total is dealt out. -/
def Strategy.covered (total workers : Nat) : Strategy → Nat
  | .truncate => workers * (total / workers)
  | .balanced => total

theorem Strategy.covered_le (strategy : Strategy) (total workers : Nat) :
    strategy.covered total workers ≤ total := by
  cases strategy with
  | truncate => exact Nat.mul_div_le total workers
  | balanced => exact Nat.le_refl total

/-- Where the range of a worker begins, and that of the worker before it stops. -/
def boundary (chunk extra index : Nat) : Nat :=
  index * chunk + min index extra

variable {chunk extra index count : Nat}

theorem boundary_succ (chunk extra index : Nat) : boundary chunk extra (index + 1) =
    boundary chunk extra index + (chunk + if index < extra then 1 else 0) := by
  rw [boundary, boundary, Nat.succ_mul]
  split <;> omega

theorem boundary_le {left right : Nat} (h : left ≤ right) :
    boundary chunk extra left ≤ boundary chunk extra right := by
  have hmul := Nat.mul_le_mul_right chunk h
  rw [boundary, boundary]
  omega

/-- A value lies between two neighbouring boundaries only. -/
theorem eq_of_boundaries {i j value : Nat} (hi : boundary chunk extra i ≤ value)
    (hi' : value < boundary chunk extra (i + 1)) (hj : boundary chunk extra j ≤ value)
    (hj' : value < boundary chunk extra (j + 1)) : i = j := by
  rcases Nat.lt_trichotomy i j with hlt | heq | hgt
  · have hle : boundary chunk extra (i + 1) ≤ boundary chunk extra j :=
      boundary_le (Nat.succ_le_of_lt hlt)
    omega
  · exact heq
  · have hle : boundary chunk extra (j + 1) ≤ boundary chunk extra i :=
      boundary_le (Nat.succ_le_of_lt hgt)
    omega

theorem boundary_covered (strategy : Strategy) {total workers : Nat} (hworkers : 0 < workers) :
    boundary (total / workers) (strategy.extra total workers) workers =
      strategy.covered total workers := by
  cases strategy with
  | truncate => exact Nat.add_eq_left.2 (Nat.min_eq_right (Nat.zero_le _))
  | balanced =>
      have hlt := Nat.mod_lt total hworkers
      rw [boundary, Strategy.extra, Nat.min_eq_right (Nat.le_of_lt hlt), Strategy.covered]
      exact Nat.div_add_mod total workers

theorem slices_succ : slices chunk extra (count + 1) index (boundary chunk extra index) =
    ⟨boundary chunk extra index, boundary chunk extra (index + 1), boundary_le (Nat.le_succ index)⟩ ::
      slices chunk extra count (index + 1) (boundary chunk extra (index + 1)) := by
  simp only [slices, boundary_succ]

theorem slices_getElem? {k : Nat} {range : Span}
    (h : (slices chunk extra count index (boundary chunk extra index))[k]? = some range) :
    range.start = boundary chunk extra (index + k) ∧
      range.stop = boundary chunk extra (index + k + 1) := by
  induction count generalizing index k with
  | zero => cases h
  | succ count ih =>
      rw [slices_succ] at h
      cases k with
      | zero =>
          cases h
          exact ⟨rfl, rfl⟩
      | succ k =>
          rw [List.getElem?_cons_succ] at h
          have hnext := ih h
          rwa [Nat.add_right_comm, Nat.add_assoc] at hnext

theorem flatMap_slices :
    (slices chunk extra count index (boundary chunk extra index)).flatMap Span.values =
    List.range' (boundary chunk extra index)
      (boundary chunk extra (index + count) - boundary chunk extra index) := by
  induction count generalizing index with
  | zero => simp [slices]
  | succ count ih =>
      have hfirst : boundary chunk extra index ≤ boundary chunk extra (index + 1) :=
        boundary_le (Nat.le_succ index)
      have hrest : boundary chunk extra (index + 1) ≤ boundary chunk extra (index + (count + 1)) :=
        boundary_le (by omega)
      rw [slices_succ, List.flatMap_cons, ih, Nat.add_right_comm]
      calc
        _ = List.range' (boundary chunk extra index)
              (boundary chunk extra (index + 1) - boundary chunk extra index) ++
            List.range' (boundary chunk extra index +
                (boundary chunk extra (index + 1) - boundary chunk extra index))
              (boundary chunk extra (index + (count + 1)) - boundary chunk extra (index + 1)) := by
          rw [Nat.add_sub_of_le hfirst]
          rfl
        _ = _ := by
          rw [List.range'_append_1]
          congr 1
          omega

/-- The ranges of a job lie side by side and cover the values below `covered`. -/
structure Tiling (ranges : List Span) (covered : Nat) : Prop where
  disjoint : ∀ {i j : Nat} {left right : Span} {value : Nat}, ranges[i]? = some left →
    ranges[j]? = some right → left.contains value = true → right.contains value = true → i = j
  values : ranges.flatMap Span.values = List.range covered

/-- A tiling covers as much as it says. -/
theorem Tiling.covered_eq {ranges : List Span} {covered : Nat} (h : Tiling ranges covered) :
    Span.covered ranges = covered := by
  have hlength := congrArg List.length h.values
  rw [List.length_flatMap, List.length_range] at hlength
  rw [← hlength, Span.covered]
  exact congrArg _ (List.map_congr_left fun range _ => range.length_values.symm)

theorem partition_eq_ok {strategy : Strategy} {total workers : Nat} {ranges : List Span} :
    partition strategy total workers = .ok ranges ↔ checkWorkers workers = .ok () ∧
      ranges = slices (total / workers) (strategy.extra total workers) workers 0 0 := by
  rw [partition]
  cases checkWorkers workers with
  | error error => simp [bind, Except.bind]
  | ok _ => simp [bind, Except.bind, pure, Except.pure, eq_comm]

/-- Every partition is a tiling, with as many ranges as there are workers. -/
theorem partition_tiling {strategy : Strategy} {total workers : Nat} {ranges : List Span}
    (h : partition strategy total workers = .ok ranges) :
    ranges.length = workers ∧ Tiling ranges (strategy.covered total workers) := by
  obtain ⟨hworkers, rfl⟩ := partition_eq_ok.1 h
  have hzero : boundary (total / workers) (strategy.extra total workers) 0 = 0 := by
    rw [boundary, Nat.zero_mul, Nat.zero_min]
  have hslices : slices (total / workers) (strategy.extra total workers) workers 0 0 =
      slices (total / workers) (strategy.extra total workers) workers 0
        (boundary (total / workers) (strategy.extra total workers) 0) := by
    rw [hzero]
  refine ⟨length_slices _ _ _ _ _, ?_, ?_⟩
  · intro i j left right value hleft hright hinLeft hinRight
    rw [hslices] at hleft hright
    obtain ⟨hleftStart, hleftStop⟩ := slices_getElem? hleft
    obtain ⟨hrightStart, hrightStop⟩ := slices_getElem? hright
    simp only [Span.contains, Bool.and_eq_true, decide_eq_true_eq, hleftStart, hleftStop, hrightStart,
      hrightStop, Nat.zero_add] at hinLeft hinRight
    exact eq_of_boundaries hinLeft.1 hinLeft.2 hinRight.1 hinRight.2
  · rw [hslices, flatMap_slices, hzero, Nat.zero_add, Nat.sub_zero,
      boundary_covered strategy (checkWorkers_eq_ok.1 hworkers).1, List.range_eq_range']

end ParallelFilter
