import ParallelFilter.Proofs.Tiling
import Mathlib.Algebra.Group.Nat.Defs

/-! What each worker is allotted. The loop that deals out the total carries the start of the next
range along; in closed form that start is a boundary, so each range can be told from its index
alone. The boundaries never fall and end at what is covered, which is no more than the total, so no
sum that the loop forms leaves the machine word that the total came in. -/

namespace ParallelFilter

/-- The loop of `slices` on words below `limit`: it stops at a sum that does not fit. -/
def slicesWithin (limit chunk extra : Nat) : (count index start : Nat) → Option (List Span)
  | 0, _, _ => some []
  | count + 1, index, start =>
    let length := chunk + if index < extra then 1 else 0
    if length < limit ∧ start + length < limit then
      (slicesWithin limit chunk extra count (index + 1) (start + length)).map
        (⟨start, start + length, Nat.le_add_right start length⟩ :: ·)
    else none

/-- The lengths of the spans added up on words below `limit`, as far as the sums fit. -/
def Span.coveredWithin (limit : Nat) (spans : List Span) : Option Nat :=
  spans.foldlM (fun sum span => if sum + span.length < limit then some (sum + span.length) else none) 0

variable {chunk extra limit index count : Nat}

/-- Words are wide enough for the loop if they are for its last boundary. -/
theorem slicesWithin_eq (index : Nat) (hlimit : boundary chunk extra (index + count) < limit) :
    slicesWithin limit chunk extra count index (boundary chunk extra index) =
      some (slices chunk extra count index (boundary chunk extra index)) := by
  induction count generalizing index with
  | zero => rfl
  | succ count ih =>
      have hnext : boundary chunk extra index + (chunk + if index < extra then 1 else 0) =
          boundary chunk extra (index + 1) := (boundary_succ chunk extra index).symm
      have hle : boundary chunk extra (index + 1) ≤ boundary chunk extra (index + (count + 1)) :=
        boundary_le (by omega)
      have hrest := ih (index + 1) (by rwa [Nat.add_right_comm])
      have hfits : (chunk + if index < extra then 1 else 0) < limit ∧
          boundary chunk extra (index + 1) < limit := by
        constructor <;> omega
      simp only [slicesWithin, slices, hnext, hrest, Option.map_some]
      exact if_pos hfits

namespace Span

theorem coveredWithin_eq {spans : List Span} (hlimit : covered spans < limit) :
    coveredWithin limit spans = some (covered spans) := by
  -- the sum so far stands before the lengths that are still to be added
  have hfold (spans : List Span) (sum : Nat) (hsum : sum + covered spans < limit) :
      spans.foldlM (fun sum span => if sum + span.length < limit then some (sum + span.length)
        else none) sum =
        some (sum + covered spans) := by
    induction spans generalizing sum with
    | nil => rfl
    | cons span spans ih =>
        have hcons : covered (span :: spans) = span.length + covered spans := rfl
        rw [hcons, ← Nat.add_assoc] at hsum
        have hfits : sum + span.length < limit := by omega
        calc
          _ = spans.foldlM (fun sum span =>
            if sum + span.length < limit then some (sum + span.length) else none)
                (sum + span.length) := by
            rw [List.foldlM_cons, if_pos hfits]
            rfl
          _ = some (sum + span.length + covered spans) := ih _ hsum
          _ = some (sum + covered (span :: spans)) := by rw [hcons, Nat.add_assoc]
  rw [coveredWithin, hfold spans 0 (by rwa [Nat.zero_add]), Nat.zero_add]

end Span

/-- The ranges for so many workers, and all that can be told of them in advance. -/
structure Allotment (strategy : Strategy) (total workers : Nat) (ranges : List Span) : Prop where
  count : ranges.length = workers
  bounds : ∀ index range, ranges[index]? = some range →
    range.start = index * (total / workers) + min index (strategy.extra total workers) ∧
      range.stop = (index + 1) * (total / workers) + min (index + 1) (strategy.extra total workers)
  first : ∀ range, ranges[0]? = some range → range.start = 0
  meet : ∀ index left right, ranges[index]? = some left → ranges[index + 1]? = some right →
    left.stop = right.start
  fits : slicesWithin (2 ^ 64) (total / workers) (strategy.extra total workers) workers 0 0 =
    some ranges
  inside : ∀ value < Span.covered ranges, ∃! index : Nat, ∃ range : Span, ranges[index]? = some range ∧
    range.contains value = true
  outside : ∀ value ≥ Span.covered ranges, ∀ range ∈ ranges, range.contains value = false
  /-- No worker gets less than one after it, nor more by two. -/
  lengths : ranges.Pairwise fun left right => right.length ≤ left.length ∧
    left.length ≤ right.length + 1
  counted : Span.coveredWithin (2 ^ 64) ranges = some (Span.covered ranges)
  truncated : strategy = .truncate →
    Span.covered ranges = workers * (total / workers) ∧ total - Span.covered ranges < workers
  balanced : strategy = .balanced → Span.covered ranges = total

namespace Tiling

variable {ranges : List Span} {covered value : Nat} (h : Tiling ranges covered)

include h

theorem exists_contains_iff : (∃ range ∈ ranges, range.contains value = true) ↔ value < covered := by
  rw [← List.mem_range, ← h.values, List.mem_flatMap]
  simp only [Span.mem_values]

/-- A value that is covered is so at one place. -/
theorem existsUnique_contains (hvalue : value < covered) :
    ∃! index : Nat, ∃ range : Span, ranges[index]? = some range ∧ range.contains value = true := by
  obtain ⟨range, hrange, hcontains⟩ := h.exists_contains_iff.2 hvalue
  obtain ⟨index, hindex⟩ := List.mem_iff_getElem?.1 hrange
  refine ⟨index, ⟨range, hindex, hcontains⟩, ?_⟩
  rintro other ⟨also, hother, halso⟩
  exact h.disjoint hother hindex halso hcontains

end Tiling

/-- A range is as long as a chunk, or longer by one. -/
theorem length_of_slices {k : Nat} {range : Span}
    (h : (slices chunk extra count index (boundary chunk extra index))[k]? = some range) :
    range.length = chunk + if index + k < extra then 1 else 0 := by
  obtain ⟨hstart, hstop⟩ := slices_getElem? h
  rw [Span.length, hstart, hstop, boundary_succ, Nat.add_sub_cancel_left]

theorem pairwise_length_slices :
    (slices chunk extra count index (boundary chunk extra index)).Pairwise fun left right =>
      right.length ≤ left.length ∧ left.length ≤ right.length + 1 := by
  rw [List.pairwise_iff_getElem]
  intro i j hi hj hlt
  rw [length_of_slices (List.getElem?_eq_getElem hi), length_of_slices (List.getElem?_eq_getElem hj)]
  -- who gets nothing extra comes after all who do
  by_cases hright : index + j < extra
  · rw [if_pos hright, if_pos (show index + i < extra by omega)]
    omega
  · rw [if_neg hright]
    split <;> omega

theorem boundary_zero (chunk extra : Nat) : boundary chunk extra 0 = 0 := by
  rw [boundary, Nat.zero_mul, Nat.zero_min]

theorem allotment_of_partition {strategy : Strategy} {total workers : Nat} {ranges : List Span}
    (htotal : total < 2 ^ 64) (h : partition strategy total workers = .ok ranges) :
    Allotment strategy total workers ranges := by
  obtain ⟨hcount, htiling⟩ := partition_tiling h
  obtain ⟨hchecked, hslices⟩ := partition_eq_ok.1 h
  obtain ⟨hworkers, -⟩ := checkWorkers_eq_ok.1 hchecked
  have hranges : ranges = slices (total / workers) (strategy.extra total workers) workers 0
      (boundary (total / workers) (strategy.extra total workers) 0) := by
    rw [hslices, boundary_zero]
  have hcovered := htiling.covered_eq
  have hbelow : strategy.covered total workers < 2 ^ 64 :=
    Nat.lt_of_le_of_lt (strategy.covered_le total workers) htotal
  have hbounds (index : Nat) (range : Span) (hrange : ranges[index]? = some range) :
      range.start = boundary (total / workers) (strategy.extra total workers) index ∧
        range.stop = boundary (total / workers) (strategy.extra total workers) (index + 1) := by
    rw [hranges] at hrange
    have hends := slices_getElem? hrange
    rwa [Nat.zero_add] at hends
  refine ⟨hcount, hbounds, fun range hrange => ?_, fun index left right hleft hright => ?_, ?_,
    fun value hvalue => ?_, fun value hvalue range hrange => ?_, ?_, ?_, ?_, ?_⟩
  · rw [(hbounds 0 range hrange).1, boundary_zero]
  · rw [(hbounds index left hleft).2, (hbounds (index + 1) right hright).1]
  · have hlast : boundary (total / workers) (strategy.extra total workers) (0 + workers) < 2 ^ 64 := by
      rwa [Nat.zero_add, boundary_covered strategy hworkers]
    have hfits := slicesWithin_eq 0 hlast
    rwa [← hranges, boundary_zero] at hfits
  · exact htiling.existsUnique_contains (hcovered ▸ hvalue)
  · rw [hcovered] at hvalue
    rw [Bool.eq_false_iff]
    intro hcontains
    exact absurd (htiling.exists_contains_iff.1 ⟨range, hrange, hcontains⟩) (Nat.not_lt.2 hvalue)
  · rw [hranges]
    exact pairwise_length_slices
  · exact Span.coveredWithin_eq (hcovered ▸ hbelow)
  · rintro rfl
    have hrest := Nat.div_add_mod total workers
    have hlt := Nat.mod_lt total hworkers
    rw [hcovered, Strategy.covered]
    exact ⟨rfl, by omega⟩
  · rintro rfl
    exact hcovered

/-- A worker count is refused as an argument, and only one that is none or too many. -/
theorem checkWorkers_eq_error {workers : Nat} {error : Error}
    (h : checkWorkers workers = .error error) :
    (workers = 0 ∨ maxWorkers < workers) ∧ ∃ fault, error = .invalidArgument fault := by
  unfold checkWorkers at h
  split at h
  · cases h
    exact ⟨.inl ‹_›, _, rfl⟩
  · split at h
    · cases h
      exact ⟨.inr ‹_›, _, rfl⟩
    · cases h

theorem partition_eq_error {strategy : Strategy} {total workers : Nat} {error : Error} :
    partition strategy total workers = .error error ↔ checkWorkers workers = .error error := by
  rw [partition]
  cases checkWorkers workers with
  | error refused => simp [bind, Except.bind]
  | ok _ => simp [bind, Except.bind, pure, Except.pure]

/-- **A partition covers what it promises.** For every total that fits in a word and every number of
workers up to the largest one, there are ranges, in closed form, side by side from zero on, and of
even lengths; no sum leaves the word. Any other number of workers is refused, whatever the total. -/
theorem partition_allots (strategy : Strategy) {total : Nat} (workers : Nat) (htotal : total < 2 ^ 64) :
    (1 ≤ workers ∧ workers ≤ 65536 → ∃ ranges, partition strategy total workers = .ok ranges ∧
      Allotment strategy total workers ranges) ∧
    ((∃ error, partition strategy total workers = .error error) ↔ workers = 0 ∨ 65536 < workers) ∧
    ∀ error, partition strategy total workers = .error error →
      ∃ fault, error = .invalidArgument fault := by
  have haccepts (hworkers : 1 ≤ workers ∧ workers ≤ 65536) :
      ∃ ranges, partition strategy total workers = .ok ranges :=
    ⟨_, partition_eq_ok.2 ⟨checkWorkers_eq_ok.2 hworkers, rfl⟩⟩
  refine ⟨fun hworkers => ?_, ⟨?_, fun hworkers => ?_⟩, fun error herror => ?_⟩
  · obtain ⟨ranges, hranges⟩ := haccepts hworkers
    exact ⟨ranges, hranges, allotment_of_partition htotal hranges⟩
  · rintro ⟨error, herror⟩
    exact (checkWorkers_eq_error (partition_eq_error.1 herror)).1
  · cases hresult : partition strategy total workers with
    | error error => exact ⟨error, rfl⟩
    | ok ranges =>
        obtain ⟨hpos, hle⟩ := checkWorkers_eq_ok.1 (partition_eq_ok.1 hresult).1
        rw [maxWorkers] at hle
        omega
  · exact (checkWorkers_eq_error (partition_eq_error.1 herror)).2

/-- The largest total that fits, dealt out to ten workers, the first five of which get one more. -/
theorem partition_allots_largest_total :
    18446744073709551615 < 2 ^ 64 ∧
    ∃ ranges, partition .balanced 18446744073709551615 10 = .ok ranges ∧
      Allotment .balanced 18446744073709551615 10 ranges ∧
        Span.covered ranges = 18446744073709551615 := by
  have htotal : 18446744073709551615 < 2 ^ 64 := by decide
  obtain ⟨haccepted, -, -⟩ := partition_allots .balanced 10 htotal
  obtain ⟨ranges, hranges, hallotment⟩ := haccepted (by decide)
  exact ⟨htotal, ranges, hranges, hallotment, hallotment.balanced rfl⟩

end ParallelFilter
