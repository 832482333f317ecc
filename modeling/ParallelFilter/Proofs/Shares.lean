import ParallelFilter.Proofs.Outcome
import ParallelFilter.Proofs.Tiling
import Mathlib.Data.List.Nodup
import Mathlib.Data.List.Perm.Basic

/-! What was published, sorted by worker. The published values are those of the workers together, and
where the ranges are disjoint, the values in one range are those of its worker, in their order. -/

namespace ParallelFilter.Pool.History

variable {predicate : Predicate} {ranges : List Span} {covered : Nat} {history : History}

theorem mem_shareOf {entries : List (Nat × Nat)} {worker value : Nat} :
    value ∈ shareOf entries worker ↔ (worker, value) ∈ entries := by
  rw [shareOf, List.mem_filterMap]
  constructor
  · rintro ⟨⟨id, other⟩, hentry, hvalue⟩
    split at hvalue
    · rename_i hid
      cases hvalue
      exact hid ▸ hentry
    · cases hvalue
  · intro hentry
    exact ⟨(worker, value), hentry, if_pos rfl⟩

/-- Every entry is in the share of its worker. -/
theorem perm_flatMap_shareOf {entries : List (Nat × Nat)} {count : Nat}
    (hids : ∀ entry ∈ entries, entry.1 < count) :
    (entries.map Prod.snd).Perm ((List.range count).flatMap (shareOf entries)) := by
  induction count generalizing entries with
  | zero =>
      have hnil : entries = [] := List.eq_nil_iff_forall_not_mem.2 fun entry hentry => by
        have := hids entry hentry
        omega
      rw [hnil]
      rfl
  | succ count ih =>
      -- the entries of the workers below, and those of the last worker
      have hsplit := (List.filter_append_perm (fun entry => entry.1 < count) entries).symm.map Prod.snd
      have hbelow : ∀ worker ∈ List.range count,
          shareOf (entries.filter fun entry => entry.1 < count) worker = shareOf entries worker := by
        intro worker hworker
        have hlt := List.mem_range.1 hworker
        rw [shareOf, List.filterMap_filter, shareOf]
        apply List.filterMap_congr
        intro entry _
        by_cases hid : entry.1 = worker
        · rw [if_pos hid, if_pos (by simpa [hid] using hlt)]
        · rw [if_neg hid, ite_self]
      have hlast : (entries.filter fun entry => !decide (entry.1 < count)).map Prod.snd =
          shareOf entries count := by
        rw [← List.filterMap_eq_map, List.filterMap_filter, shareOf]
        apply List.filterMap_congr
        intro entry hentry
        have hle := hids entry hentry
        by_cases hid : entry.1 = count
        · simp [hid]
        · simp [hid, show entry.1 < count by omega]
      have hfirst : ((entries.filter fun entry => entry.1 < count).map Prod.snd).Perm
          ((List.range count).flatMap (shareOf (entries.filter fun entry => entry.1 < count))) :=
        ih fun entry hentry => of_decide_eq_true (List.mem_filter.1 hentry).2
      rw [List.map_append, hlast] at hsplit
      rw [List.range_succ, List.flatMap_append, List.flatMap_singleton]
      have hshares :=
        hfirst.trans (.flatMap_left _ fun worker hworker => .of_eq (hbelow worker hworker))
      exact hsplit.trans (hshares.append_right _)

namespace Books

/-- A worker has published the beginning of the accepted values of its range. -/
theorem publishedBy_eq_take (h : history.Books predicate ranges) {index : Nat} {worker : Worker}
    (hworker : history.pool.workers[index]? = some worker) : history.publishedBy index =
      (worker.range.values.filter predicate.accepts).take worker.accepted :=
  (h.worker hworker).2.2.sent_eq_take

theorem mem_range (h : history.Books predicate ranges) {worker value : Nat}
    (hentry : (worker, value) ∈ history.published) :
    ∃ range, ranges[worker]? = some range ∧ range.contains value = true := by
  have hindex : worker < history.pool.workers.size := by
    rw [h.size]
    exact h.ids _ hentry
  have hworker := Array.getElem?_eq_getElem hindex
  refine ⟨_, (h.worker hworker).2.1, ?_⟩
  have hmem : value ∈ history.publishedBy worker := mem_shareOf.2 hentry
  rw [h.publishedBy_eq_take hworker] at hmem
  exact Span.mem_values.1 (List.mem_filter.1 (List.mem_of_mem_take hmem)).1

/-- Where the ranges are disjoint, the values in one of them come from its worker. -/
theorem filter_published (h : history.Books predicate ranges) (htiling : Tiling ranges covered)
    {index : Nat} {range : Span} (hrange : ranges[index]? = some range) :
    (history.published.map Prod.snd).filter range.contains = history.publishedBy index := by
  rw [List.filter_map, ← List.filterMap_eq_map, List.filterMap_filter, publishedBy, shareOf]
  apply List.filterMap_congr
  rintro ⟨worker, value⟩ hentry
  obtain ⟨own, hown, hvalue⟩ := h.mem_range hentry
  by_cases hsame : worker = index
  · subst hsame
    rw [hrange, Option.some_inj] at hown
    simp [hown, hvalue]
  · -- the value lies in the range of another worker, so not in this one
    have hother : range.contains value = false := by
      by_contra hcontains
      exact hsame (htiling.disjoint hown hrange hvalue (Bool.not_eq_false _ ▸ hcontains))
    simp [hsame, hother]

theorem perm_publishedBy (h : history.Books predicate ranges) :
    (history.published.map Prod.snd).Perm ((List.range ranges.length).flatMap history.publishedBy) :=
  perm_flatMap_shareOf h.ids

/-- Nothing is published twice. -/
theorem nodup_published (h : history.Books predicate ranges) (htiling : Tiling ranges covered) :
    (history.published.map Prod.snd).Nodup := by
  rw [h.perm_publishedBy.nodup_iff, List.nodup_flatMap]
  constructor
  · intro index hindex
    have hlt : index < history.pool.workers.size := by
      rw [h.size]
      exact List.mem_range.1 hindex
    rw [h.publishedBy_eq_take (Array.getElem?_eq_getElem hlt)]
    have hsorted := (Span.sorted_values history.pool.workers[index].range).imp Nat.ne_of_lt
    exact (hsorted.filter _).take
  · refine List.nodup_range.imp_of_mem fun _ _ hne value hleft hright => hne ?_
    obtain ⟨left, hleftRange, hinLeft⟩ := h.mem_range (mem_shareOf.1 hleft)
    obtain ⟨right, hrightRange, hinRight⟩ := h.mem_range (mem_shareOf.1 hright)
    exact htiling.disjoint hleftRange hrightRange hinLeft hinRight

end Books

/-- The accepted counts of a report add up to what was published. -/
theorem Sound.report_accepted (h : history.Sound predicate ranges)
    (hjoined : history.pool.workers.all Worker.isJoined = true) :
    history.pool.report.accepted = history.published.length := by
  have hcounts : history.pool.report.workers.map (·.accepted) =
      (List.range ranges.length).map fun index => (history.publishedBy index).length := by
    apply List.ext_getElem?
    intro index
    rw [List.getElem?_map, List.getElem?_map, h.report_getElem? hjoined]
    by_cases hindex : index < history.pool.workers.size
    · have hworker := Array.getElem?_eq_getElem hindex
      have hjoin : history.pool.workers[index].isJoined = true :=
        Array.all_eq_true_iff_forall_mem.1 hjoined _ (Array.getElem_mem hindex)
      obtain ⟨ending, hending⟩ := Worker.ending?_of_isJoined hjoin
      rw [hworker, Option.bind_some, Worker.report?, hending,
        List.getElem?_range (h.books.size ▸ hindex)]
      exact congrArg some (h.books.worker hworker).2.2.accepted
    · rw [Array.getElem?_eq_none (Nat.le_of_not_lt hindex), List.getElem?_eq_none]
      · rfl
      · rw [List.length_range, ← h.books.size]
        exact Nat.le_of_not_lt hindex
  calc
    history.pool.report.accepted = (history.pool.report.workers.map (·.accepted)).sum := rfl
    _ = ((List.range ranges.length).flatMap history.publishedBy).length := by
      rw [hcounts, ← List.length_flatMap]
    _ = history.published.length := by
      rw [← h.books.perm_publishedBy.length_eq, List.length_map]

end ParallelFilter.Pool.History
