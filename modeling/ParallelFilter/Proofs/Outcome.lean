import ParallelFilter.Proofs.Books
import ParallelFilter.Proofs.Delivery
import Mathlib.Data.List.Pairwise

/-! What holds of a history at every moment, and what the result of its pool says when there is one. The
workers of a report stand in the order of their ids, whatever the order in which they were joined. -/

namespace ParallelFilter

/-- Items with different keys can be sorted in one way only. -/
theorem mergeSort_eq_of_perm {α : Type} (key : α → Nat) {items sorted : List α}
    (hperm : items.Perm sorted) (hsorted : sorted.Pairwise fun left right => key left < key right) :
    (items.mergeSort fun left right => key left ≤ key right) = sorted := by
  have hsame : ∀ left ∈ sorted, ∀ right ∈ sorted, key left = key right → left = right := by
    have : Std.Symm fun left right : α => key left ≠ key right := ⟨fun _ _ => Ne.symm⟩
    have hdistinct := (hsorted.imp Nat.ne_of_lt).forall
    intro left hleft right hright hkey
    by_contra hne
    exact hdistinct hleft hright hne hkey
  have hmerged := (List.mergeSort_perm items fun left right => key left ≤ key right).trans hperm
  have hascending : (items.mergeSort fun left right => key left ≤ key right).Pairwise
      fun left right => key left ≤ key right := by
    refine (List.pairwise_mergeSort ?_ ?_ items).imp of_decide_eq_true
    · intro first second third
      simp only [decide_eq_true_eq]
      exact Nat.le_trans
    · intro left right
      simpa using Nat.le_total (key left) (key right)
  refine List.Perm.eq_of_pairwise ?_ hascending (hsorted.imp Nat.le_of_lt) hmerged
  intro left right hleft hright hle hge
  exact hsame left (hmerged.mem_iff.1 hleft) right hright (Nat.le_antisymm hle hge)

theorem getElem?_filterMap_of_isSome {α β : Type} {f : α → Option β} {items : List α}
    (h : ∀ item ∈ items, (f item).isSome = true) (index : Nat) :
    (items.filterMap f)[index]? = items[index]?.bind f := by
  induction items generalizing index with
  | nil => rfl
  | cons item items ih =>
      obtain ⟨value, hvalue⟩ := Option.isSome_iff_exists.1 (h item List.mem_cons_self)
      rw [List.filterMap_cons_some hvalue]
      cases index with
      | zero => exact hvalue.symm
      | succ index => exact ih (fun item hitem => h item (List.mem_cons_of_mem _ hitem)) index

namespace Worker

theorem report?_of_isJoined {worker : Worker} (h : worker.isJoined = true) :
    worker.report?.isSome = true := by
  obtain ⟨ending, hending⟩ := ending?_of_isJoined h
  rw [report?, hending]
  rfl

theorem worker_of_report? {worker : Worker} {summary : WorkerSummary}
    (h : worker.report? = some summary) : summary.worker = worker.id := by
  obtain ⟨ending, -, rfl⟩ := Option.map_eq_some_iff.1 h
  rfl

theorem outcome?_bind_fault (worker : Worker) : worker.outcome?.bind (·.fault) = worker.fault? := by
  unfold outcome? report? fault?
  cases worker.ending? <;> rfl

theorem outcome?_map_summary (worker : Worker) : worker.outcome?.map (·.summary) = worker.report? := by
  unfold outcome? report?
  cases worker.ending? <;> rfl

end Worker

namespace Pool.History

/-- All that holds of a history at every moment. -/
structure Sound (predicate : Predicate) (ranges : List Span) (history : History) : Prop where
  books : history.Books predicate ranges
  closing : history.pool.Closing
  delivery : history.Delivery
  collected : history.pool.Collected

namespace Sound

variable {rules : Rules} {predicate : Predicate} {ranges : List Span} {history : History}
  {event : Event} {published : Option (Nat × Nat)} {answer : Option Polled} {after : Pool}

theorem moves (h : history.Sound rules.predicate ranges)
    (hmoves : Moves rules history.pool event published answer after) :
    (history.extend published answer after).Sound rules.predicate ranges :=
  ⟨h.books.moves hmoves, h.closing.moves hmoves, h.delivery.moves h.closing hmoves,
    h.collected.moves hmoves⟩

/-- It holds at the start, whatever the token. -/
theorem ofStart {capacity : Nat} {link : ResultChannel} {token : Token} {pool : Pool}
    (hlink : ResultChannel.make capacity ranges.length = .ok link)
    (hstart : Pool.start ranges link token = .ok pool) : (History.ofPool pool).Sound predicate ranges :=
  ⟨.ofPool _ hstart, .ofStart hlink hstart, .ofStart hlink hstart, .ofStart hstart⟩

theorem follow {events : List Event} {last : History} (h : history.Sound rules.predicate ranges)
    (hrun : history.follow rules events = some last) : last.Sound rules.predicate ranges :=
  follow_induction (fun _ _ _ _ _ _ h => h.moves) h hrun

section Result

variable (h : history.Sound predicate ranges)
  (hjoined : history.pool.workers.all Worker.isJoined = true)

include h hjoined

theorem outcomes_perm :
    history.pool.outcomes.toList.Perm (history.pool.workers.toList.filterMap Worker.outcome?) := by
  have hcollected := h.collected
  rwa [Collected, List.filterMap_congr (g := Worker.outcome?)] at hcollected
  intro worker hworker
  rw [Worker.collected?, if_pos]
  exact Array.all_eq_true_iff_forall_mem.1 hjoined worker (Array.mem_toList_iff.1 hworker)

theorem report_workers :
    history.pool.report.workers = history.pool.workers.toList.filterMap Worker.report? := by
  apply mergeSort_eq_of_perm WorkerSummary.worker
  · have hperm := (h.outcomes_perm hjoined).map (·.summary)
    rwa [List.map_filterMap, List.filterMap_congr fun worker _ => worker.outcome?_map_summary] at hperm
  · refine h.books.ids_ascending.filterMap _ ?_
    intro left right hlt summary hsummary other hother
    rw [Worker.worker_of_report? hsummary, Worker.worker_of_report? hother]
    exact hlt

/-- The report has a place for every worker. -/
theorem report_getElem? (index : Nat) :
    history.pool.report.workers[index]? = history.pool.workers[index]?.bind Worker.report? := by
  rw [h.report_workers hjoined, ← Array.getElem?_toList]
  apply getElem?_filterMap_of_isSome
  intro worker hworker
  exact Worker.report?_of_isJoined (Array.all_eq_true_iff_forall_mem.1 hjoined worker
    (Array.mem_toList_iff.1 hworker))

/-- Where each worker reports a function of its id and its range, so does the report. -/
theorem report_workers_eq {f : Nat → Span → WorkerSummary}
    (hreport : ∀ (index : Nat) (worker : Worker), history.pool.workers[index]? = some worker →
      worker.report? = some (f worker.id worker.range)) :
    history.pool.report.workers = ranges.mapIdx f := by
  have hreports := h.books.map_workers (g := fun id range => some (f id range)) hreport
  calc
    history.pool.report.workers = history.pool.workers.toList.filterMap Worker.report? :=
      h.report_workers hjoined
    _ = (history.pool.workers.toList.map Worker.report?).filterMap id := by
      rw [List.filterMap_map]
      rfl
    _ = ((ranges.mapIdx f).map some).filterMap id := by
      rw [hreports]
      congr 1
      apply List.ext_getElem?
      intro index
      rw [List.getElem?_map, List.getElem?_mapIdx, List.getElem?_mapIdx, Option.map_map]
      rfl
    _ = ranges.mapIdx f := by
      rw [List.filterMap_map]
      exact List.filterMap_some

theorem report_faults :
    history.pool.report.faults.Perm (history.pool.workers.toList.filterMap Worker.fault?) := by
  have hperm := (h.outcomes_perm hjoined).filterMap WorkerOutcome.fault
  rwa [List.filterMap_filterMap,
    List.filterMap_congr fun worker _ => Worker.outcome?_bind_fault worker] at hperm

theorem mem_report_faults {fault : Fault} : fault ∈ history.pool.report.faults ↔
    ∃ (index : Nat) (worker : Worker), history.pool.workers[index]? = some worker ∧
      worker.fault? = some fault := by
  rw [(h.report_faults hjoined).mem_iff, List.mem_filterMap]
  constructor
  · rintro ⟨worker, hworker, hfault⟩
    obtain ⟨index, hindex⟩ := List.mem_iff_getElem?.1 hworker
    rw [Array.getElem?_toList] at hindex
    exact ⟨index, worker, hindex, hfault⟩
  · rintro ⟨index, worker, hindex, hfault⟩
    exact ⟨worker, Array.mem_toList_iff.2 (Array.mem_of_getElem? hindex), hfault⟩

end Result

/-- The result of a pool is its report, and there is none before the last sender is gone. -/
theorem result?_eq_some (h : history.Sound predicate ranges) {result : Except Error Report}
    (hresult : history.pool.result? = some result) :
    result = .ok history.pool.report ∧ history.pool.workers.all Worker.isJoined = true ∧
      history.pool.link.channel.senders = 0 := by
  unfold result? at hresult
  split at hresult
  · rename_i hjoined
    have hgone {worker : Worker} (hworker : worker ∈ history.pool.workers) : worker.isGone = true :=
      Worker.isGone_of_isJoined (Array.all_eq_true_iff_forall_mem.1 hjoined worker hworker)
    have hcomplete : history.pool.link.barrier.isComplete = true := by
      rw [Barrier.isComplete_iff, h.closing.tickets, Array.countP_eq_zero]
      intro worker hworker
      rw [Worker.not_holdsTicket_of_isGone (hgone hworker)]
      decide
    rw [if_pos hcomplete] at hresult
    split at hresult
    · rename_i hcloser
      cases hresult
      refine ⟨rfl, hjoined, ?_⟩
      rw [h.closing.senders, hcloser, Waiter.senders, Nat.add_zero, Array.countP_eq_zero]
      intro worker hworker
      rw [Worker.not_holdsSender_of_not_holdsTicket (Worker.not_holdsTicket_of_isGone (hgone hworker))]
      decide
    · cases hresult
  · cases hresult

end Sound

end Pool.History

end ParallelFilter
