import ParallelFilter.Proofs.Accounts
import ParallelFilter.Proofs.Arrays
import ParallelFilter.Proofs.History

/-! The books of a whole pool: every worker keeps its own range and its own accounts of what it has
published, whatever the others do, and the outcomes that were collected are those of the workers that
were joined. -/

namespace ParallelFilter

namespace Worker

/-- What was collected from the worker, if it was joined. -/
def collected? (worker : Worker) : Option WorkerOutcome :=
  if worker.isJoined then worker.outcome? else none

theorem collected?_eq_none {worker : Worker} (h : worker.isJoined = false) :
    worker.collected? = none := by
  rw [collected?, h]
  rfl

theorem collected?_of_join? {worker next : Worker} {outcome : WorkerOutcome}
    (h : worker.join? = some (outcome, next)) :
    worker.collected? = none ∧ next.collected? = some outcome := by
  obtain ⟨ending, hphase, rfl, houtcome⟩ := join?_eq_some h
  constructor
  · exact collected?_eq_none (by simp only [isJoined, hphase])
  · exact houtcome

end Worker

namespace Station.Moves

variable {rules : Rules} {kept : Nat} {before after : Station} {sent : Option Nat}

/-- No worker moves after it was joined, and none is joined by a move of its own. -/
theorem not_joined (h : Moves rules kept before sent after) :
    before.worker.isJoined = false ∧ after.worker.isJoined = false := by
  have hhand {worker : Worker} {value : Nat} (hhand : worker.inHand? = some value) :
      worker.isJoined = false := by
    rcases Worker.phase_of_inHand? hhand with hphase | hphase <;> simp only [Worker.isJoined, hphase]
  have hafter (rules : Rules) (worker : Worker) (evaluated accepted count : Nat) :
      ({ worker with evaluated, accepted, phase := afterValue rules count } : Worker).isJoined =
        false := by
    rcases afterValue_cases rules count with hphase | hphase <;> simp only [Worker.isJoined, hphase]
  cases h with
  | reject _ hphase _ => exact ⟨by simp only [Worker.isJoined, hphase], hafter _ _ _ _ _⟩
  | send _ hvalue _ _ _ => exact ⟨hhand hvalue, hafter _ _ _ _ _⟩
  | disconnect _ hvalue _ _ | giveUp _ hvalue _ _ => exact ⟨hhand hvalue, rfl⟩
  | dropTicket ending hphase =>
      refine ⟨by simp only [Worker.isJoined, hphase], ?_⟩
      rcases afterTicket_cases rules ending with hleft | hleft <;> simp only [Worker.isJoined, hleft]
  | enter hphase _ _ | complete hphase _ | quit hphase _ _ | fail _ hphase _ | panic _ hphase _
  | accept _ hphase _ | suspend _ hphase _ _ _ | goOn hphase | dropSender _ hphase | alarm _ hphase =>
      exact ⟨by simp only [Worker.isJoined, hphase], rfl⟩

end Station.Moves

namespace Pool

/-- The outcomes that were collected are those of the workers that were joined. -/
def Collected (pool : Pool) : Prop :=
  pool.outcomes.toList.Perm (pool.workers.toList.filterMap Worker.collected?)

namespace History

/-- The books of a pool over the given ranges. -/
structure Books (predicate : Predicate) (ranges : List Span) (history : History) : Prop where
  size : history.pool.workers.size = ranges.length
  ids : ∀ entry ∈ history.published, entry.1 < ranges.length
  worker : ∀ {index : Nat} {worker : Worker}, history.pool.workers[index]? = some worker →
    worker.id = index ∧ ranges[index]? = some worker.range ∧
      worker.Accounts predicate (history.publishedBy index)

variable {rules : Rules} {ranges : List Span} {history : History} {event : Event}
  {published : Option (Nat × Nat)} {answer : Option Polled} {after : Pool}

theorem Books.ofPool (predicate : Predicate) {link : ResultChannel} {token : Token} {pool : Pool}
    (hstart : Pool.start ranges link token = .ok pool) :
    (History.ofPool pool).Books predicate ranges := by
  obtain ⟨-, rfl⟩ := Pool.start_eq_ok.1 hstart
  refine ⟨by simp [History.ofPool], by simp [History.ofPool], ?_⟩
  intro index worker hworker
  simp only [History.ofPool, List.getElem?_toArray, List.getElem?_mapIdx, Option.map_eq_some_iff]
    at hworker
  obtain ⟨range, hrange, rfl⟩ := hworker
  exact ⟨rfl, hrange, Worker.accounts_ofRange index range⟩

/-- A move that leaves the workers alone leaves the books alone. -/
theorem Books.same (h : history.Books rules.predicate ranges)
    (hworkers : after.workers = history.pool.workers) :
    (history.extend none answer after).Books rules.predicate ranges := by
  refine ⟨?_, ?_, ?_⟩
  · rw [← h.size, ← hworkers, extend]
  · intro entry hentry
    rw [extend, Option.toList_none, List.append_nil] at hentry
    exact h.ids entry hentry
  · intro index worker hworker
    rw [publishedBy_extend_none]
    exact h.worker (hworkers ▸ hworker)

/-- Every move keeps the books. -/
theorem Books.moves (h : history.Books rules.predicate ranges)
    (hmoves : Moves rules history.pool event published answer after) :
    (history.extend published answer after).Books rules.predicate ranges := by
  obtain ⟨pool, past, told⟩ := history
  cases hmoves with
  | work index kept hindex _ moved hmoves =>
      obtain ⟨hid, hrange, haccounts⟩ := h.worker (Array.getElem?_eq_getElem hindex)
      obtain ⟨hsameId, hsameRange⟩ := hmoves.id_range
      refine ⟨?_, ?_, ?_⟩
      · rw [← h.size]
        exact Array.size_set hindex
      · intro entry hentry
        rcases List.mem_append.1 hentry with hentry | hentry
        · exact h.ids entry hentry
        · obtain ⟨value, -, rfl⟩ := Option.map_eq_some_iff.1 (Option.mem_toList.1 hentry)
          exact h.size ▸ hindex
      · intro other worker hworker
        rcases getElem?_set_cases hindex hworker with ⟨rfl, rfl⟩ | ⟨hne, hworker⟩
        · rw [publishedBy_extend_self]
          exact ⟨hsameId.trans hid, by rw [hsameRange]; exact hrange, haccounts.moves hmoves⟩
        · rw [publishedBy_extend_other hne]
          exact h.worker hworker
  | join index hindex worker hjoin =>
      obtain ⟨hid, hrange, haccounts⟩ := h.worker (Array.getElem?_eq_getElem hindex)
      obtain ⟨ending, hphase, rfl, -⟩ := Worker.join?_eq_some hjoin
      refine ⟨?_, ?_, ?_⟩
      · rw [← h.size]
        exact Array.size_set hindex
      · intro entry hentry
        rw [extend, Option.toList_none, List.append_nil] at hentry
        exact h.ids entry hentry
      · intro other worker hworker
        rw [publishedBy_extend_none]
        rcases getElem?_set_cases hindex hworker with ⟨rfl, rfl⟩ | ⟨-, hworker⟩
        · refine ⟨hid, hrange, haccounts.stand fun rest hrest => ?_⟩
          cases ending <;> simp only [Worker.Holds, hphase] at hrest ⊢ <;> exact hrest
        · exact h.worker hworker
  | _ => exact h.same rfl

/-- What each worker does with its own id and range is done to the list of the ranges. -/
theorem Books.map_workers {predicate : Predicate} (h : history.Books predicate ranges) {α : Type}
    {f : Worker → α} {g : Nat → Span → α}
    (hfg : ∀ (index : Nat) (worker : Worker), history.pool.workers[index]? = some worker →
      f worker = g worker.id worker.range) :
    history.pool.workers.toList.map f = ranges.mapIdx g := by
  apply List.ext_getElem?
  intro index
  rw [List.getElem?_map, List.getElem?_mapIdx, Array.getElem?_toList]
  cases hworker : history.pool.workers[index]? with
  | none =>
      have hrange : ranges[index]? = none := by
        rw [List.getElem?_eq_none_iff, ← h.size]
        exact Array.getElem?_eq_none_iff.1 hworker
      rw [hrange]
      rfl
  | some worker =>
      obtain ⟨hid, hrange, -⟩ := h.worker hworker
      rw [hrange, Option.map_some, Option.map_some, hfg index worker hworker, hid]

theorem Books.ids_ascending {predicate : Predicate} (h : history.Books predicate ranges) :
    history.pool.workers.toList.Pairwise fun left right => left.id < right.id := by
  have hid {index : Nat} (hindex : index < history.pool.workers.toList.length) :
      history.pool.workers.toList[index].id = index :=
    (h.worker (Array.getElem?_eq_getElem hindex)).1
  rw [List.pairwise_iff_getElem]
  intro left right hleft hright hlt
  rw [hid hleft, hid hright]
  exact hlt

end History

variable {rules : Rules} {pool after : Pool} {event : Event} {published : Option (Nat × Nat)}
  {answer : Option Polled}

/-- The outcome of a worker that was not joined comes on top of the others. -/
theorem collected_set {workers : Array Worker} {index : Nat} (hindex : index < workers.size)
    (next : Worker) (hbefore : workers[index].collected? = none) :
    ((workers.set index next).toList.filterMap Worker.collected?).Perm
      (workers.toList.filterMap Worker.collected? ++ next.collected?.toList) := by
  obtain ⟨before, after, hsplit, hset⟩ := exists_toList_set hindex next
  rw [hset, hsplit, List.filterMap_append, List.filterMap_append, List.filterMap_cons_none hbefore,
    List.append_assoc]
  apply List.Perm.append_left
  cases hnext : next.collected? with
  | none => rw [List.filterMap_cons_none hnext, Option.toList_none, List.append_nil]
  | some outcome =>
      rw [List.filterMap_cons_some hnext]
      exact (List.perm_append_singleton outcome _).symm

theorem Collected.ofStart {ranges : List Span} {link : ResultChannel} {token : Token}
    (hstart : Pool.start ranges link token = .ok pool) : pool.Collected := by
  have hnone : ∀ worker ∈ pool.workers.toList, worker.collected? = none := by
    intro worker hworker
    obtain ⟨id, range, rfl⟩ := exists_ofRange_of_start hstart (Array.mem_toList_iff.1 hworker)
    rfl
  rw [Collected, List.filterMap_eq_nil_iff.2 hnone]
  obtain ⟨-, rfl⟩ := Pool.start_eq_ok.1 hstart
  rfl

theorem Collected.moves (h : pool.Collected) (hmoves : Moves rules pool event published answer after) :
    after.Collected := by
  cases hmoves with
  | work index kept hindex _ moved hmoves =>
      obtain ⟨hbefore, hafter⟩ := hmoves.not_joined
      have hset := collected_set hindex moved.worker (Worker.collected?_eq_none hbefore)
      rw [Worker.collected?_eq_none hafter, Option.toList_none, List.append_nil] at hset
      exact h.trans hset.symm
  | join index hindex worker hjoin =>
      obtain ⟨hbefore, hafter⟩ := Worker.collected?_of_join? hjoin
      have hset := collected_set hindex worker hbefore
      rw [hafter] at hset
      rw [Collected, Array.toList_push]
      exact (h.append_right _).trans hset.symm
  | _ => exact h

end Pool

end ParallelFilter
