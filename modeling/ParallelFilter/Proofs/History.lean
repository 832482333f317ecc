import ParallelFilter.Pool
import ParallelFilter.Proofs.Moves
import ParallelFilter.Proofs.Runs

/-! Histories: a pool together with what its workers have published and what its drain has answered. A
history goes on by any event that the pool offers, so the lists of events are the schedules, and what is
proved for every list holds under every interleaving of workers, closer, joining, drain and whoever
cancels. `Pool.Moves` lists the kinds of moves with all that each of them needs and changes. -/

namespace ParallelFilter

namespace Pool

/-- What a worker publishes when the event happens, with the worker's id. -/
def publishes (rules : Rules) (pool : Pool) : Event → Option (Nat × Nat)
  | .work index =>
    if h : index < pool.workers.size then
      ((pool.station pool.workers[index]).sends? rules).map fun value => (index, value)
    else none
  | _ => none

/-- What the drain answers when the event happens. -/
def answers (pool : Pool) : Event → Option Polled
  | .receive => some pool.link.poll.1
  | _ => none

/-- A pool with what has happened in it so far. -/
structure History where
  pool : Pool
  /-- What was published, oldest first, each value with the id of its worker. -/
  published : List (Nat × Nat)
  /-- What the drain has answered, oldest first. -/
  answers : List Polled

namespace History

def ofPool (pool : Pool) : History :=
  ⟨pool, [], []⟩

/-- The history after one more event, if the event can happen. -/
def step (rules : Rules) (history : History) (event : Event) : Option History :=
  (history.pool.step rules event).map fun pool =>
    ⟨pool, history.published ++ (history.pool.publishes rules event).toList,
      history.answers ++ (history.pool.answers event).toList⟩

/-- The history after the events, if they can happen one after another. -/
def follow (rules : Rules) (history : History) (events : List Event) : Option History :=
  events.foldlM (step rules) history

/-- What the drain has delivered, oldest first. -/
def delivered (history : History) : List Nat :=
  history.answers.filterMap fun
    | .value value => some value
    | _ => none

/-- The values of one worker among the entries, in their order. -/
def shareOf (entries : List (Nat × Nat)) (worker : Nat) : List Nat :=
  entries.filterMap fun entry => if entry.1 = worker then some entry.2 else none

/-- What one worker has published, oldest first. -/
def publishedBy (history : History) (worker : Nat) : List Nat :=
  shareOf history.published worker

end History

/-- `Moves rules before event published answer after`: the event leads from `before` to `after`. -/
inductive Moves (rules : Rules) : Pool → Event → Option (Nat × Nat) → Option Polled → Pool → Prop where
  | work {pool event} (index kept : Nat) (hindex : index < pool.workers.size)
      (hevent : event = .work index ∧ kept = 0 ∨ event = .queue index ∧ kept = pool.waiting)
      {sent} (moved : Station)
      (hmoves : Station.Moves rules kept (pool.station pool.workers[index]) sent moved) :
      Moves rules pool event (sent.map fun value => (index, value)) none
        { pool with
          workers := pool.workers.set index moved.worker
          link := moved.link
          token := moved.token }
  | register {pool} (hcloser : pool.closer = .fresh) :
      Moves rules pool .close none none
        { pool with closer := .registered pool.link.barrier.notifications }
  | sleep {pool} (seen : Nat) (hcloser : pool.closer = .registered seen)
      (hheld : pool.link.barrier.remaining ≠ 0) :
      Moves rules pool .close none none { pool with closer := .asleep seen }
  | wake {pool} (seen : Nat) (hcloser : pool.closer = .asleep seen)
      (hnotified : pool.link.barrier.notifications ≠ seen) :
      Moves rules pool .close none none { pool with closer := .fresh }
  | release {pool} (seen : Nat) (hcloser : pool.closer = .registered seen)
      (hcomplete : pool.link.barrier.remaining = 0) :
      Moves rules pool .close none none { pool with link := pool.link.dropSender, closer := .released }
  | join {pool} (index : Nat) (hindex : index < pool.workers.size) {outcome} (worker : Worker)
      (hjoin : pool.workers[index].join? = some (outcome, worker)) :
      Moves rules pool (.join index) none none
        { pool with
          workers := pool.workers.set index worker
          outcomes := pool.outcomes.push outcome }
  | deliver {pool} (value : Nat) (rest : Queue Nat) (hopen : pool.link.channel.receiving = true)
      (hfinished : pool.link.finished = false)
      (hbuffer : pool.link.channel.buffer.toList = value :: rest.toList) :
      Moves rules pool .receive none (some (.value value))
        { pool with
          link := { pool.link with
            channel.buffer := rest
            received := pool.link.received + 1 } }
  | finish {pool} (hopen : pool.link.channel.receiving = true)
      (hfinished : pool.link.finished = false) (hbuffer : pool.link.channel.buffer.toList = [])
      (hsenders : pool.link.channel.senders = 0) (hcomplete : pool.link.barrier.remaining = 0) :
      Moves rules pool .receive none (some .finished) { pool with link.finished := true }
  | violate {pool} (hopen : pool.link.channel.receiving = true)
      (hfinished : pool.link.finished = false) (hbuffer : pool.link.channel.buffer.toList = [])
      (hsenders : pool.link.channel.senders = 0) (hheld : pool.link.barrier.remaining ≠ 0) :
      Moves rules pool .receive none (some (.violation pool.link.orderingFault))
        { pool with link.finished := true }
  | dropDrain {pool} (hopen : pool.link.channel.receiving = true) :
      Moves rules pool .dropDrain none none { pool with link := pool.link.dropDrain }
  | cancel {pool} (scope : Scope) (hchange : pool.token.cancel scope ≠ pool.token) :
      Moves rules pool (.cancel scope) none none { pool with token := pool.token.cancel scope }

variable {rules : Rules} {pool after : Pool}

theorem step_work_moves {index : Nat} (h : pool.step rules (.work index) = some after) :
    Moves rules pool (.work index) (pool.publishes rules (.work index)) none after := by
  simp only [step] at h
  split at h
  · rename_i hindex
    split at h
    · cases h
    · rename_i hblocked
      cases h
      rw [publishes, dif_pos hindex]
      exact .work index 0 hindex (.inl ⟨rfl, rfl⟩) _
        (Station.step_moves _ (Bool.eq_false_iff.mpr hblocked))
  · cases h

theorem step_queue_moves {index : Nat} (h : pool.step rules (.queue index) = some after) :
    Moves rules pool (.queue index) none none after := by
  simp only [step] at h
  split at h
  · rename_i hindex
    split at h
    · rename_i value hmust hphase
      cases h
      simp only [mustQueue, hphase, Bool.and_eq_true, decide_eq_true_eq] at hmust
      obtain ⟨⟨hopen, -⟩, hcrowded⟩ := hmust
      have hmoves : Station.Moves rules pool.waiting (pool.station pool.workers[index]) none
          (Station.await value (pool.station pool.workers[index])) :=
        Station.await_moves hphase hopen hcrowded
      have h := Moves.work index pool.waiting hindex (.inr ⟨rfl, rfl⟩) _ hmoves
      rw [Station.link_await, Station.token_await] at h
      exact h
    · cases h
  · cases h

theorem step_close_moves (h : pool.step rules .close = some after) :
    Moves rules pool .close none none after := by
  obtain ⟨workers, link, token, closer, outcomes⟩ := pool
  simp only [step] at h
  split at h
  · cases h
  · rename_i hfree
    cases h
    cases closer with
    | fresh => exact .register rfl
    | registered seen =>
        simp only [moveCloser, Waiter.step]
        by_cases hcomplete : link.barrier.isComplete = true
        · rw [if_pos hcomplete]
          exact .release seen rfl ((Barrier.isComplete_iff _).1 hcomplete)
        · rw [if_neg hcomplete]
          exact .sleep seen rfl fun hzero => hcomplete ((Barrier.isComplete_iff _).2 hzero)
    | asleep seen =>
        have hnotified : link.barrier.notifications ≠ seen := by
          intro heq
          exact hfree (.inr (by simp only [Waiter.isParked, heq, beq_self_eq_true]))
        simp only [moveCloser, Waiter.step, if_neg hnotified]
        exact .wake seen rfl hnotified
    | released => exact absurd (.inl rfl) hfree

theorem step_join_moves {index : Nat} (h : pool.step rules (.join index) = some after) :
    Moves rules pool (.join index) none none after := by
  obtain ⟨workers, link, token, closer, outcomes⟩ := pool
  simp only [step] at h
  split at h
  · rename_i hjoin
    cases h
    obtain ⟨⟨outcome, worker⟩, hbind⟩ := Option.isSome_iff_exists.1 hjoin
    obtain ⟨current, hcurrent, hworker⟩ := Option.bind_eq_some_iff.1 hbind
    obtain ⟨hindex, rfl⟩ := Array.getElem?_eq_some_iff.1 hcurrent
    simp only [joinWorker, dif_pos hindex, hworker]
    exact .join index hindex _ hworker
  · cases h

theorem step_receive_moves (h : pool.step rules .receive = some after) :
    Moves rules pool .receive none (pool.answers .receive) after := by
  simp only [step] at h
  split at h
  · rename_i hready
    obtain ⟨hopen, hready⟩ := hready
    have hpolls := pool.link.polls
    rw [answers]
    generalize pool.link.poll = polled at hpolls h ⊢
    obtain ⟨answer, link⟩ := polled
    cases hpolls with
    | ended hfinished => exact absurd hfinished hready
    | deliver value rest hfinished hbuffer =>
        cases h
        exact .deliver value rest hopen hfinished hbuffer
    | wait _ _ _ => cases h
    | finish hfinished hbuffer hsenders hcomplete =>
        cases h
        exact .finish hopen hfinished hbuffer hsenders hcomplete
    | violate hfinished hbuffer hsenders hheld =>
        cases h
        exact .violate hopen hfinished hbuffer hsenders hheld
  · cases h

/-- Every event that can happen is a move of one of the kinds. -/
theorem step_moves {event : Event} (h : pool.step rules event = some after) :
    Moves rules pool event (pool.publishes rules event) (pool.answers event) after := by
  cases event with
  | work index => exact step_work_moves h
  | queue index => exact step_queue_moves h
  | close => exact step_close_moves h
  | join index => exact step_join_moves h
  | receive => exact step_receive_moves h
  | dropDrain =>
      simp only [step] at h
      split at h
      · rename_i hopen
        cases h
        exact .dropDrain hopen
      · cases h
  | cancel scope =>
      simp only [step] at h
      split at h
      · cases h
      · rename_i hchange
        cases h
        exact .cancel scope hchange

section Kept

variable {event : Event} {published : Option (Nat × Nat)} {answer : Option Polled}

theorem Moves.receiving_eq (h : Moves rules pool event published answer after)
    (hevent : event ≠ .dropDrain) :
    after.link.channel.receiving = pool.link.channel.receiving := by
  cases h with
  | work index kept hindex _ moved hmoves => exact hmoves.drain_eq.1
  | dropDrain _ => exact absurd rfl hevent
  | _ => rfl

/-- A drain that has ended does not begin again. -/
theorem Moves.finished (h : Moves rules pool event published answer after)
    (hfinished : pool.link.finished = true) : after.link.finished = true := by
  cases h with
  | work index kept hindex _ moved hmoves => exact hmoves.drain_eq.2.trans hfinished
  | finish _ _ _ _ _ | violate _ _ _ _ _ => rfl
  | _ => exact hfinished

/-- A cancellation is not taken back. -/
theorem Moves.token_cancelled (h : Moves rules pool event published answer after)
    (hcancelled : pool.token.isCancelled = true) : after.token.isCancelled = true := by
  cases h with
  | work index kept hindex _ moved hmoves => exact hmoves.token_cancelled hcancelled
  | cancel scope _ => exact Token.isCancelled_cancel _ _
  | _ => exact hcancelled

end Kept

namespace History

theorem shareOf_append (entries others : List (Nat × Nat)) (index : Nat) :
    shareOf (entries ++ others) index = shareOf entries index ++ shareOf others index :=
  List.filterMap_append

theorem shareOf_toList_self (index : Nat) (value? : Option Nat) :
    shareOf (value?.map fun value => (index, value)).toList index = value?.toList := by
  cases value? with
  | none => rfl
  | some value => simp [shareOf]

theorem shareOf_toList_of_ne {item? : Option (Nat × Nat)} {index : Nat}
    (hother : ∀ entry, item? = some entry → entry.1 ≠ index) : shareOf item?.toList index = [] := by
  cases item? with
  | none => rfl
  | some entry => simp [shareOf, hother entry rfl]

/-- The history after a move. -/
def extend (history : History) (published : Option (Nat × Nat)) (answer : Option Polled) (pool : Pool) :
    History :=
  ⟨pool, history.published ++ published.toList, history.answers ++ answer.toList⟩

theorem step_eq {history : History} {event : Event} (h : history.pool.step rules event = some after) :
    history.step rules event =
      some (history.extend (history.pool.publishes rules event) (history.pool.answers event)
        after) := by
  rw [step, h]
  rfl

theorem step_moves {history next : History} {event : Event} (h : history.step rules event = some next) :
    ∃ published answer after, Moves rules history.pool event published answer after ∧
      next = history.extend published answer after := by
  obtain ⟨after, hafter, rfl⟩ := Option.map_eq_some_iff.1 h
  exact ⟨_, _, after, Pool.step_moves hafter, rfl⟩

/-- A property that every move keeps is kept by a whole run. -/
theorem follow_induction {P : History → Prop} {events : List Event}
    (hmoves : ∀ history event published answer after, event ∈ events → P history →
      Moves rules history.pool event published answer after →
      P (history.extend published answer after))
    {history last : History} (h : P history) (hrun : history.follow rules events = some last) :
    P last := by
  refine foldlM_induction (fun history event next hmem h hstep => ?_) h hrun
  obtain ⟨published, answer, after, hmove, rfl⟩ := step_moves hstep
  exact hmoves history event published answer after hmem h hmove

variable {history : History} {published : Option (Nat × Nat)} {answer : Option Polled}

theorem delivered_extend : (history.extend published answer pool).delivered =
    history.delivered ++ (match answer with
      | some (.value value) => [value]
      | _ => []) := by
  rw [delivered, extend, List.filterMap_append, delivered]
  cases answer with
  | none => rfl
  | some answer => cases answer <;> rfl

theorem publishedBy_extend_none (worker : Nat) :
    (history.extend none answer pool).publishedBy worker = history.publishedBy worker := by
  rw [publishedBy, extend, Option.toList_none, List.append_nil, publishedBy]

theorem publishedBy_extend_self (worker : Nat) (sent : Option Nat) :
    (history.extend (sent.map fun value => (worker, value)) answer pool).publishedBy worker =
      history.publishedBy worker ++ sent.toList := by
  rw [publishedBy, extend, shareOf_append, shareOf_toList_self, publishedBy]

theorem publishedBy_extend_of_ne {worker : Nat}
    (hother : ∀ entry, published = some entry → entry.1 ≠ worker) :
    (history.extend published answer pool).publishedBy worker = history.publishedBy worker := by
  rw [publishedBy, extend, shareOf_append, shareOf_toList_of_ne hother, List.append_nil, publishedBy]

theorem publishedBy_extend_other {worker other : Nat} (hne : worker ≠ other) (sent : Option Nat) :
    (history.extend (sent.map fun value => (worker, value)) answer pool).publishedBy other =
      history.publishedBy other := by
  apply publishedBy_extend_of_ne
  intro entry hentry
  obtain ⟨value, -, rfl⟩ := Option.map_eq_some_iff.1 hentry
  exact hne

end History

end Pool

end ParallelFilter
