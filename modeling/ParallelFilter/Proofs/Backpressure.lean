import ParallelFilter.Proofs.Liveness
import ParallelFilter.Proofs.Promptness
import ParallelFilter.Proofs.Shares

/-! How far the workers of a job can be ahead of its consumer. As long as the drain is there, what
was sent and not received is in the channel, which holds no more than its capacity; and of what a
worker has accepted at most one value is not sent. So however slow the consumer is, no more is
accepted than it has received, and as much again as the channel has places and the job has workers. -/

namespace ParallelFilter

namespace Worker.Accounts

variable {predicate : Predicate} {worker : Worker} {sent : List Nat}

/-- A value that stops the worker is not accepted, so the calls that accept are those that were
decided so. -/
theorem filter_accepts_called (h : worker.Accounts predicate sent) :
    worker.called.filter predicate.accepts = predicate.hits worker.range worker.evaluated := by
  rw [called, List.filter_append, Predicate.hits]
  split
  · rename_i hfaulted
    rw [← isSome_fault?, Option.isSome_iff_exists] at hfaulted
    obtain ⟨fault, hfault⟩ := hfaulted
    obtain ⟨-, -, hnot⟩ := h.of_fault? hfault
    rw [List.filter_singleton, Predicate.accepts_of_not_decides hnot]
    exact List.append_nil _
  · exact List.append_nil _

/-- What the worker has accepted is what it has sent, and one value more at most. -/
theorem exists_unsent (h : worker.Accounts predicate sent) : ∃ rest : List Nat,
    worker.called.filter predicate.accepts = sent ++ rest ∧ rest.length ≤ 1 ∧
      ∀ value ∈ rest, worker.Unsent value := by
  obtain ⟨rest, hrest, hholds⟩ := h.balance
  refine ⟨rest, h.filter_accepts_called.trans hrest.symm, ?_⟩
  rcases hholds.cases with rfl | ⟨value, rfl, -, hunsent⟩
  · exact ⟨Nat.zero_le _, List.forall_mem_nil _⟩
  · exact ⟨Nat.le_refl _, List.forall_mem_singleton.2 hunsent⟩

end Worker.Accounts

namespace Pool

section Kept

variable {rules : Rules} {pool after : Pool} {event : Event} {published : Option (Nat × Nat)}
  {answer : Option Polled}

/-- Nobody changes how many places a channel has. -/
theorem Moves.capacity_eq (h : Moves rules pool event published answer after) :
    after.link.channel.capacity = pool.link.channel.capacity := by
  cases h with
  | work index kept hindex _ moved hmoves =>
      cases hmoves.touches with
      | nothing hlink _ _ | put _ hlink _ _ _ _ | loseSender hlink _ _ _ | loseTicket hlink _ _ _ _ =>
          dsimp only
          rw [hlink]
          rfl
  | _ => rfl

/-- The drain counts what it gives out. -/
theorem Moves.received_eq (h : Moves rules pool event published answer after) : after.link.received =
    pool.link.received + (match answer with
      | some (.value value) => [value]
      | _ => []).length := by
  cases h with
  | work index kept hindex _ moved hmoves =>
      cases hmoves.touches with
      | nothing hlink _ _ | put _ hlink _ _ _ _ | loseSender hlink _ _ _ | loseTicket hlink _ _ _ _ =>
          dsimp only
          rw [hlink]
          rfl
  | _ => rfl

end Kept

namespace History

variable {predicate : Predicate} {ranges : List Span} {history : History}

/-- What the workers have counted is what was published. -/
theorem Books.sum_accepted (h : history.Books predicate ranges) :
    (history.pool.workers.toList.map Worker.accepted).sum = history.published.length := by
  have hcounts : history.pool.workers.toList.map Worker.accepted =
      ranges.mapIdx fun index _ => (history.publishedBy index).length := by
    apply h.map_workers
    intro index worker hworker
    obtain ⟨hid, -, haccounts⟩ := h.worker hworker
    rw [hid]
    exact haccounts.accepted
  have hrange : (ranges.mapIdx fun index _ => (history.publishedBy index).length) =
      (List.range ranges.length).map fun index => (history.publishedBy index).length := by
    apply List.ext_getElem
    · rw [List.length_mapIdx, List.length_map, List.length_range]
    · intro index _ _
      rw [List.getElem_mapIdx, List.getElem_map, List.getElem_range]
  calc
    (history.pool.workers.toList.map Worker.accepted).sum
      = ((List.range ranges.length).flatMap history.publishedBy).length := by
      rw [hcounts, hrange, ← List.length_flatMap]
    _ = (history.published.map Prod.snd).length := h.perm_publishedBy.length_eq.symm
    _ = history.published.length := List.length_map _

/-- While the drain is there, what it has not delivered is in the channel. -/
theorem Delivery.length_published (h : history.Delivery)
    (hopen : history.pool.link.channel.receiving = true) :
    history.published.length = history.delivered.length + history.pool.link.channel.buffer.size := by
  obtain ⟨lost, htrace, hlost⟩ := h.trace
  obtain rfl := hlost hopen
  rw [Queue.size_eq_length, ← List.length_append, ← List.length_map Prod.snd, htrace, List.append_nil]

end History

namespace Watch

/-- What is kept of a job on a channel with so many places: the drain has counted what it gave out,
and what the predicate was called on is what each worker has called it on. -/
structure Recorded (predicate : Predicate) (ranges : List Span) (capacity : Nat) (watch : Watch) :
    Prop where
  sound : watch.history.Sound predicate ranges
  capacity_eq : watch.history.pool.link.channel.capacity = capacity
  received_eq : watch.history.pool.link.received = watch.history.delivered.length
  ids : ∀ call ∈ watch.calls, call.1 < ranges.length
  calledBy_eq : ∀ {index : Nat} {worker : Worker}, watch.history.pool.workers[index]? = some worker →
    watch.calledBy index = worker.called

variable {rules : Rules} {ranges : List Span} {capacity : Nat} {link : ResultChannel} {token : Token}
  {watch next last : Watch} {event : Event} {events : List Event}

theorem Recorded.ofPool {pool : Pool} (hlink : ResultChannel.make capacity ranges.length = .ok link)
    (hstart : Pool.start ranges link token = .ok pool) :
    (ofPool pool).Recorded rules.predicate ranges capacity where
  sound := .ofStart hlink hstart
  capacity_eq := by
    obtain ⟨-, -, rfl⟩ := ResultChannel.make_eq_ok.1 hlink
    obtain ⟨-, rfl⟩ := start_eq_ok.1 hstart
    rfl
  received_eq := by
    obtain ⟨-, -, rfl⟩ := ResultChannel.make_eq_ok.1 hlink
    obtain ⟨-, rfl⟩ := start_eq_ok.1 hstart
    rfl
  ids := nofun
  calledBy_eq := by
    intro index worker hworker
    obtain ⟨id, range, rfl⟩ := exists_ofRange_of_start hstart (Array.mem_of_getElem? hworker)
    rw [Worker.called_of_running rfl, Span.firstValues_eq_take]
    rfl

theorem Recorded.step (h : watch.Recorded rules.predicate ranges capacity)
    (hstep : watch.step rules event = some next) : next.Recorded rules.predicate ranges capacity := by
  obtain ⟨published, answer, pool, hmoves, rfl⟩ := step_moves hstep
  have hsound := h.sound.moves hmoves
  refine ⟨hsound, hmoves.capacity_eq.trans h.capacity_eq, ?_, fun call hcall => ?_, ?_⟩
  · rw [extend, History.delivered_extend, List.length_append, ← h.received_eq]
    exact hmoves.received_eq
  · rcases List.mem_append.1 hcall with hcall | hcall
    · exact h.ids call hcall
    · obtain ⟨index, hevent, hcall⟩ := Option.bind_eq_some_iff.1 (Option.mem_toList.1 hcall)
      obtain ⟨value, hvalue, rfl⟩ := Option.map_eq_some_iff.1 hcall
      obtain ⟨worker, hworker, -⟩ := Option.bind_eq_some_iff.1 hvalue
      rw [← h.sound.books.size]
      exact (Array.getElem?_eq_some_iff.1 hworker).1
  · intro index worker hworker
    have hsame (hevent : event.worker? ≠ some index) {before : Worker}
        (hbefore : watch.history.pool.workers[index]? = some before) :
        (watch.extend event published answer pool).calledBy index = before.called :=
      (calledBy_extend_of_ne hevent).trans (h.calledBy_eq hbefore)
    have hnobody (hevent : event.worker? = none) : event.worker? ≠ some index :=
      hevent ▸ (Option.some_ne_none index).symm
    cases hmoves with
    | work other kept hother hworks moved hmoves =>
        have hevent := Event.worker?_of_move hworks
        rcases getElem?_set_cases hother hworker with ⟨rfl, rfl⟩ | ⟨hne, hworker⟩
        · have hbefore := Array.getElem?_eq_getElem hother
          rw [calledBy_extend_self hevent hbefore, h.calledBy_eq hbefore]
          exact (hmoves.called_eq (h.sound.books.worker hbefore).2.2.lt_of_evaluating).symm
        · refine hsame ?_ hworker
          rw [hevent, Ne, Option.some_inj]
          exact hne
    | join other hother joined hjoin =>
        rcases getElem?_set_cases hother hworker with ⟨rfl, rfl⟩ | ⟨-, hworker⟩
        · exact (hsame (hnobody rfl) (Array.getElem?_eq_getElem hother)).trans
            (Worker.called_of_join? hjoin).symm
        · exact hsame (hnobody rfl) hworker
    | _ => exact hsame (hnobody rfl) hworker

theorem Recorded.follow (h : watch.Recorded rules.predicate ranges capacity)
    (hrun : watch.follow rules events = some last) : last.Recorded rules.predicate ranges capacity :=
  foldlM_induction (fun _ _ _ _ h hstep => h.step hstep) h hrun

/-- How far the workers of a job are ahead of its drain. -/
structure Bounded (predicate : Predicate) (ranges : List Span) (capacity : Nat) (watch : Watch) :
    Prop where
  received : watch.history.pool.link.received = watch.history.delivered.length
  sent : (watch.history.pool.workers.toList.map Worker.accepted).sum =
    watch.history.pool.link.received + watch.history.pool.link.channel.buffer.size
  buffered : watch.history.pool.link.channel.buffer.size ≤ capacity
  /-- Of what the predicate accepted in a call of the worker, all but one value at most was sent. -/
  unsent : ∀ (index : Nat) (worker : Worker), watch.history.pool.workers[index]? = some worker →
    worker.accepted = (watch.history.publishedBy index).length ∧ ∃ rest : List Nat,
      (watch.calledBy index).filter predicate.accepts = watch.history.publishedBy index ++ rest ∧
        rest.length ≤ 1 ∧ ∀ value ∈ rest, worker.Unsent value
  accepted : watch.calls.countP (fun call => predicate.accepts call.2) ≤
    watch.history.pool.link.received + capacity + ranges.length

section Bound

variable (h : watch.Recorded rules.predicate ranges capacity)

include h

theorem Recorded.exists_unsent {index : Nat} {worker : Worker}
    (hworker : watch.history.pool.workers[index]? = some worker) : ∃ rest : List Nat,
      (watch.calledBy index).filter rules.predicate.accepts = watch.history.publishedBy index ++ rest ∧
        rest.length ≤ 1 ∧ ∀ value ∈ rest, worker.Unsent value := by
  obtain ⟨-, -, haccounts⟩ := h.sound.books.worker hworker
  rw [h.calledBy_eq hworker]
  exact haccounts.exists_unsent

/-- No more was accepted than was published, and one value in the hands of each worker. -/
theorem Recorded.countP_accepts_le : watch.calls.countP (fun call => rules.predicate.accepts call.2) ≤
    watch.history.published.length + ranges.length := by
  have hworker : ∀ index ∈ List.range ranges.length,
      (watch.calledBy index).countP rules.predicate.accepts ≤
        (watch.history.publishedBy index).length + 1 := by
    intro index hindex
    rw [List.mem_range, ← h.sound.books.size] at hindex
    obtain ⟨rest, hrest, hone, -⟩ := h.exists_unsent (Array.getElem?_eq_getElem hindex)
    rw [List.countP_eq_length_filter, hrest, List.length_append]
    exact Nat.add_le_add_left hone _
  calc
    watch.calls.countP (fun call => rules.predicate.accepts call.2)
      = (watch.calls.map Prod.snd).countP rules.predicate.accepts := by
      rw [List.countP_map]
      rfl
    _ = ((List.range ranges.length).flatMap watch.calledBy).countP rules.predicate.accepts :=
      (History.perm_flatMap_shareOf h.ids).countP_eq _
    _ = ((List.range ranges.length).map fun index =>
          (watch.calledBy index).countP rules.predicate.accepts).sum := List.countP_flatMap
    _ ≤ ((List.range ranges.length).map
        fun index => (watch.history.publishedBy index).length + 1).sum :=
      List.sum_le_sum hworker
    _ = ((List.range ranges.length).flatMap watch.history.publishedBy).length + ranges.length := by
      rw [List.sum_map_add, List.length_flatMap, List.map_const', List.sum_replicate_nat,
        List.length_range, Nat.mul_one]
    _ = watch.history.published.length + ranges.length := by
      rw [← h.sound.books.perm_publishedBy.length_eq, List.length_map]

theorem Recorded.bounded (hopen : watch.history.pool.link.channel.receiving = true) :
    watch.Bounded rules.predicate ranges capacity := by
  have hsent : watch.history.published.length =
      watch.history.pool.link.received + watch.history.pool.link.channel.buffer.size := by
    rw [h.received_eq, h.sound.delivery.length_published hopen]
  have hbuffered : watch.history.pool.link.channel.buffer.size ≤ capacity :=
    h.capacity_eq ▸ h.sound.delivery.room
  refine ⟨h.received_eq, h.sound.books.sum_accepted.trans hsent, hbuffered,
    fun index worker hworker => ?_, ?_⟩
  · obtain ⟨-, -, haccounts⟩ := h.sound.books.worker hworker
    exact ⟨haccounts.accepted, h.exists_unsent hworker⟩
  · have haccepted := h.countP_accepts_le
    omega

end Bound

/-- **Backpressure.** At every moment of a job whose drain is there, however it is scheduled,
disturbed or cancelled, what its workers have counted as sent is what the drain has received and
what the channel holds, and the channel holds no more than its capacity. Each worker has accepted at
most one value that it has not sent. So the predicate has accepted no more than was received, as
much again as the channel has places, and one value for each worker. -/
theorem acceptance_bounded {pool : Pool}
    (hlink : ResultChannel.make capacity ranges.length = .ok link)
    (hstart : Pool.start ranges link token = .ok pool)
    (hrun : (ofPool pool).follow rules events = some last)
    (hopen : last.history.pool.link.channel.receiving = true) :
    last.Bounded rules.predicate ranges capacity :=
  ((Recorded.ofPool hlink hstart).follow hrun).bounded hopen

/-- Nothing is received: one worker has sent 0 and waits with 1, the other waits with 5, so there
are as many accepted values as there can be. -/
theorem acceptance_bounded_nothing_received : ∃ pool last,
    Pool.start [⟨0, 2, by decide⟩, ⟨5, 6, by decide⟩] ⟨.ofCapacity 1 1, .ofExpected 2, 0, false⟩
      {} = .ok pool ∧
    (ofPool pool).follow acceptingAll [.work 0, .work 0, .work 0, .work 1, .work 0, .work 1,
      .work 1, .work 0, .work 0] = some last ∧
    last.history.pool.link.channel.receiving = true ∧ last.calls = [(0, 0), (1, 5), (0, 1)] ∧
    last.history.pool.link.received = 0 ∧
    last.Bounded acceptingAll.predicate [⟨0, 2, by decide⟩, ⟨5, 6, by decide⟩] 1 := by
  have hlink : ResultChannel.make 1 [Span.mk 0 2, Span.mk 5 6].length =
      .ok ⟨.ofCapacity 1 1, .ofExpected 2, 0, false⟩ := rfl
  have hstart : Pool.start [Span.mk 0 2, Span.mk 5 6] ⟨.ofCapacity 1 1, .ofExpected 2, 0, false⟩ {} =
      .ok ⟨#[.ofRange 0 (Span.mk 0 2), .ofRange 1 (Span.mk 5 6)],
        ⟨.ofCapacity 1 3, .ofExpected 2, 0, false⟩, {}, .fresh, #[]⟩ := rfl
  have hruns : ((follow acceptingAll
        (ofPool ⟨#[.ofRange 0 (Span.mk 0 2), .ofRange 1 (Span.mk 5 6)],
          ⟨.ofCapacity 1 3, .ofExpected 2, 0, false⟩, {}, .fresh, #[]⟩)
        [.work 0, .work 0, .work 0, .work 1, .work 0, .work 1, .work 1, .work 0, .work 0]).any
          fun last =>
      last.history.pool.link.channel.receiving && last.calls == [(0, 0), (1, 5), (0, 1)] &&
        last.history.pool.link.received == 0) = true := by
    decide +kernel
  obtain ⟨last, hrun, hlast⟩ := (Option.any_eq_true _ _).1 hruns
  simp only [Bool.and_eq_true, beq_iff_eq] at hlast
  obtain ⟨⟨hopen, hcalls⟩, hreceived⟩ := hlast
  exact ⟨_, last, hstart, hrun, hopen, hcalls, hreceived, acceptance_bounded hlink hstart hrun hopen⟩

end Watch

end Pool

end ParallelFilter
