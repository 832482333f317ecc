import ParallelFilter.Proofs.Scheduling
import ParallelFilter.Proofs.Attended

/-! Waiting on a single thread. What it waits for comes, by moves of the pool: the next value or the
end, all values up to the end, the result. So nothing that is run on a single thread ever hangs. -/

namespace ParallelFilter

open Relation (ReflTransGen)

namespace Pool

variable {rules : Rules} {pool after : Pool}

/-- The pool is that of a sound history. -/
def Regular (rules : Rules) (pool : Pool) : Prop :=
  ∃ (ranges : List Span) (history : History), history.pool = pool ∧ history.Sound rules.predicate ranges

namespace Regular

theorem step (h : pool.Regular rules) {event : Event} (hstep : pool.step rules event = some after) :
    after.Regular rules := by
  obtain ⟨ranges, history, rfl, hsound⟩ := h
  exact ⟨ranges, _, rfl, hsound.moves (step_moves hstep)⟩

theorem leads (h : pool.Regular rules) (hleads : Leads rules pool after) : after.Regular rules := by
  induction hleads with
  | refl => exact h
  | tail _ hmove ih =>
      obtain ⟨event, -, hstep⟩ := hmove
      exact ih.step hstep

theorem closing (h : pool.Regular rules) : pool.Closing := by
  obtain ⟨ranges, history, rfl, hsound⟩ := h
  exact hsound.closing

theorem capacity_pos (h : pool.Regular rules) : 0 < pool.link.channel.capacity := by
  obtain ⟨ranges, history, rfl, hsound⟩ := h
  exact hsound.delivery.capacity_pos

/-- A drain that has ended has left nothing in the channel. -/
theorem buffer_eq_empty (h : pool.Regular rules) (hfinished : pool.link.finished = true) :
    pool.link.channel.buffer = .empty := by
  obtain ⟨ranges, history, rfl, hsound⟩ := h
  obtain ⟨lost, htrace, -⟩ := hsound.delivery.trace
  rw [← hsound.delivery.whole hfinished, List.append_assoc, List.self_eq_append_right] at htrace
  exact Queue.eq_empty (List.append_eq_nil_iff.1 htrace).1

/-- Where nobody can move the workers are gone, unless there is something to take from the channel. -/
theorem complete_of_blocked (h : pool.Regular rules)
    (hblocked : ∀ worker ∈ pool.workers, (pool.station worker).isBlocked = true)
    (hempty : pool.link.channel.receiving = true → pool.link.channel.buffer.toList = []) :
    (∀ worker ∈ pool.workers, worker.isGone = true) ∧ pool.link.barrier.isComplete = true := by
  have hgone : ∀ worker ∈ pool.workers, worker.isGone = true := by
    intro worker hworker
    rcases Station.gone_or_full_of_isBlocked (hblocked worker hworker) with hgone | ⟨-, -, hopen, hfull⟩
    · exact hgone
    · have hpos : 0 < pool.link.channel.buffer.size := Nat.lt_of_lt_of_le h.capacity_pos hfull
      rw [Queue.size_eq_length, hempty hopen] at hpos
      cases hpos
  refine ⟨hgone, ?_⟩
  rw [Barrier.isComplete_iff, h.closing.tickets, Array.countP_eq_zero]
  intro worker hworker
  rw [Worker.not_holdsTicket_of_isGone (hgone worker hworker)]
  decide

/-- A closer that comes no nearer to its release when all tickets are gone was released before. -/
theorem released_of_complete (h : pool.Regular rules) (hcomplete : pool.link.barrier.isComplete = true)
    (hstill : pool.work ≤ pool.resumeCloser.work) : pool.closer = .released := by
  obtain ⟨hworkers, hcloser⟩ := pool.resumeCloser_eq
  have hfree : pool.closer.isParked pool.link.barrier = false := by
    cases hcloser : pool.closer with
    | asleep seen =>
        by_contra hparked
        have hsame := beq_iff_eq.1 (Bool.not_eq_false _ ▸ hparked)
        exact h.closing.asleep hcloser hsame ((Barrier.isComplete_iff _).1 hcomplete)
    | fresh | registered _ | released => rfl
  rw [Waiter.poll_of_isComplete hcomplete hfree] at hcloser
  rw [work_eq, work_eq, labour, labour, hworkers, hcloser] at hstill
  cases hrest : pool.closer with
  | released => rfl
  | fresh | registered _ | asleep _ =>
      rw [hrest] at hstill
      simp only [Waiter.rest] at hstill
      omega

/-- While the drain waits somebody can move. -/
theorem poll_ne_pending (h : pool.Regular rules)
    (hblocked : ∀ worker ∈ pool.workers, (pool.station worker).isBlocked = true)
    (hstill : pool.work ≤ pool.resumeCloser.work) {link : ResultChannel} :
    pool.link.poll ≠ (.pending, link) := by
  intro hpending
  obtain ⟨-, hempty, hsenders⟩ := ResultChannel.poll_eq_pending.1 (congrArg Prod.fst hpending)
  obtain ⟨hgone, hcomplete⟩ := h.complete_of_blocked hblocked fun _ => hempty
  have hreleased := h.released_of_complete hcomplete hstill
  apply hsenders
  rw [h.closing.senders, hreleased, Waiter.senders, Nat.add_zero, Array.countP_eq_zero]
  intro worker hworker
  have hnone := Worker.not_holdsTicket_of_isGone (hgone worker hworker)
  rw [Worker.not_holdsSender_of_not_holdsTicket hnone]
  decide

/-- An empty channel makes the drain wait, or end in order. -/
theorem poll_of_empty (h : pool.Regular rules) (hempty : pool.link.channel.buffer = .empty) :
    pool.link.poll = (.pending, pool.link) ∨
      pool.link.poll = (.finished, { pool.link with finished := true }) := by
  have hclosing := h.closing
  obtain ⟨workers, ⟨⟨capacity, buffer, senders, receiving⟩, barrier, received, finished⟩, token, closer,
    outcomes⟩ := pool
  obtain rfl : buffer = .empty := hempty
  have hpop : (Queue.empty : Queue Nat).pop? = none := rfl
  cases finished with
  | true => exact .inr rfl
  | false =>
      by_cases hsenders : senders = 0
      · have hcomplete : barrier.isComplete = true :=
          (Barrier.isComplete_iff _).2 (hclosing.remaining_eq_zero hsenders)
        simp [ResultChannel.poll, Channel.take, hpop, hsenders, hcomplete]
      · simp [ResultChannel.poll, Channel.take, hpop, hsenders]

end Regular

/-- What is to be taken is waited for in the background. The waiting ends with a value or with the
end. -/
theorem await_leads (h : pool.Regular rules) : ∃ middle, Leads rules pool middle ∧
    middle.link.poll.1 ≠ .pending ∧
      pool.await rules = (middle.link.poll.1, { middle with link := middle.link.poll.2 }) := by
  induction pool using await.induct rules with
  | case1 pool link hpending resumed hlt ih =>
      have hleads := leads_pass rules pool
      obtain ⟨middle, hmiddle, hanswer, hawait⟩ := ih (h.leads hleads)
      refine ⟨middle, hleads.trans hmiddle, hanswer, ?_⟩
      rw [await, hpending]
      dsimp only
      rw [if_pos hlt]
      exact hawait
  | case2 pool link hpending resumed hstill =>
      rcases pool.pass_cases rules with ⟨hsame, hblocked⟩ | ⟨-, hlt⟩
      · have hnone : pool.work ≤ pool.resumeCloser.work := hsame ▸ Nat.le_of_not_lt hstill
        exact absurd hpending (h.poll_ne_pending hblocked hnone)
      · exact absurd hlt hstill
  | case3 pool polled link hother hpolled =>
      refine ⟨pool, .refl, ?_, ?_⟩
      · rw [hpolled]
        exact hother
      · rw [await]
        split
        · rename_i hpending
          rw [hpolled] at hpending
          cases hpending
          exact absurd rfl hother
        · rename_i polled link _ hpolled
          rw [hpolled]

/-- One move on the way of a pool whose drain gives out values. -/
inductive Serving (rules : Rules) : Pool × List Nat → Pool × List Nat → Prop where
  | behind {pool after values} (event : Event) (hevent : event.isBackground = true)
      (hstep : pool.step rules event = some after) : Serving rules (pool, values) (after, values)
  | receive {pool after values} (value : Nat) (hvalue : pool.link.poll.1 = .value value)
      (hstep : pool.step rules .receive = some after) :
      Serving rules (pool, values) (after, values ++ [value])

/-- The one pool leads to the other by moves in the background and by values that the drain gives
out. -/
def Serves (rules : Rules) : Pool × List Nat → Pool × List Nat → Prop :=
  ReflTransGen (Serving rules)

theorem Leads.receiving_eq (h : Leads rules pool after) :
    after.link.channel.receiving = pool.link.channel.receiving := by
  induction h with
  | refl => rfl
  | tail _ hmove ih =>
      obtain ⟨event, hevent, hstep⟩ := hmove
      refine ((step_moves hstep).receiving_eq ?_).trans ih
      rintro rfl
      cases hevent

theorem Leads.serves (h : Leads rules pool after) (values : List Nat) :
    Serves rules (pool, values) (after, values) := by
  induction h with
  | refl => exact .refl
  | tail _ hmove ih =>
      obtain ⟨event, hevent, hstep⟩ := hmove
      exact ih.tail (.behind event hevent hstep)

theorem Serves.regular {before next : Pool × List Nat} (h : Serves rules before next)
    (hregular : before.1.Regular rules) (hopen : before.1.link.channel.receiving = true) :
    next.1.Regular rules ∧ next.1.link.channel.receiving = true := by
  induction h with
  | refl => exact ⟨hregular, hopen⟩
  | tail _ hmove ih =>
      cases hmove with
      | behind event hevent hstep =>
          refine ⟨ih.1.step hstep, ((step_moves hstep).receiving_eq ?_).trans ih.2⟩
          rintro rfl
          cases hevent
      | receive value hvalue hstep =>
          exact ⟨ih.1.step hstep, ((step_moves hstep).receiving_eq nofun).trans ih.2⟩

/-- All that is buffered is taken value by value. -/
theorem serves_takeBuffered (h : pool.Regular rules) (hopen : pool.link.channel.receiving = true)
    (values : List Nat) : Serves rules (pool, values)
      ({ pool with link := pool.link.takeBuffered.2 }, values ++ pool.link.takeBuffered.1) := by
  generalize hbuffer : pool.link.channel.buffer.toList = buffer
  induction buffer generalizing pool values with
  | nil =>
      have hempty := Queue.eq_empty hbuffer
      obtain ⟨workers, ⟨⟨capacity, buffer, senders, receiving⟩, barrier, received, finished⟩,
        token, closer, outcomes⟩ := pool
      obtain rfl : buffer = .empty := hempty
      rw [ResultChannel.takeBuffered_eq, Queue.toList_empty, List.append_nil]
      exact .refl
  | cons value buffer ih =>
      have hlive : pool.link.finished = false := by
        by_contra hfinished
        rw [h.buffer_eq_empty (Bool.not_eq_false _ ▸ hfinished)] at hbuffer
        cases hbuffer
      obtain ⟨rest, hpop, rfl⟩ := Queue.pop?_of_toList hbuffer
      have hpoll : pool.link.poll = (.value value,
          { pool.link with channel.buffer := rest, received := pool.link.received + 1 }) := by
        simp only [ResultChannel.poll, Channel.take, hlive, hpop]
        rfl
      have hstep : pool.step rules .receive = some { pool with
          link := { pool.link with channel.buffer := rest, received := pool.link.received + 1 } } := by
        rw [step, if_pos ⟨hopen, by rw [hlive]; decide⟩, hpoll]
      have hmore := ih (h.step hstep) hopen (values ++ [value]) rfl
      have hsize : pool.link.channel.buffer.size = rest.size + 1 := by
        rw [Queue.size_eq_length, hbuffer, Queue.size_eq_length, List.length_cons]
      rw [ResultChannel.takeBuffered_eq, List.append_assoc, Nat.add_assoc, Nat.add_comm 1] at hmore
      rw [ResultChannel.takeBuffered_eq, hbuffer, hsize]
      exact .head (.receive value (by rw [hpoll]) hstep) hmore

theorem serves_of_takeBuffered (h : pool.Regular rules) (hopen : pool.link.channel.receiving = true)
    (received : Array Nat) : Serves rules (pool, received.toList)
        ((pool.takeBuffered received).2, (pool.takeBuffered received).1.toList) ∧
      (pool.takeBuffered received).2.work = pool.work ∧
        (pool.takeBuffered received).2.link.channel.buffer = .empty := by
  have hserves := serves_takeBuffered h hopen received.toList
  obtain ⟨workers, link, token, closer, outcomes⟩ := pool
  rw [takeBuffered, ResultChannel.takeBuffered_eq]
  rw [← Array.toList_appendList] at hserves
  exact ⟨hserves, rfl, rfl⟩

theorem takeBuffered_of_empty {received : Array Nat} (h : pool.link.channel.buffer = .empty) :
    pool.takeBuffered received = (received, pool) := by
  obtain ⟨workers, ⟨⟨capacity, buffer, senders, receiving⟩, barrier, received, finished⟩, token, closer,
    outcomes⟩ := pool
  obtain rfl : buffer = .empty := h
  simp only [takeBuffered, ResultChannel.takeBuffered_eq, Queue.toList_empty, Array.appendList_nil]
  rfl

/-- The workers are resumed one after another, and what each of them has sent is taken at once. -/
def servings (rules : Rules) : Row (Array Nat × Pool) where
  kept state := state.2.Regular rules ∧ state.2.link.channel.receiving = true ∧
    state.2.link.channel.buffer = .empty
  leads before after := Serves rules (before.2, before.1.toList) (after.2, after.1.toList)
  left state := state.2.work
  still state index := ∀ hindex : index < state.2.workers.size,
    (state.2.station state.2.workers[index]).isBlocked = true
  move state index := (state.2.resumeWorker rules index).takeBuffered state.1
  last state := (state.1, state.2.resumeCloser)
  row state index count := drainFrom rules state.2 state.1 index count
  trans := ReflTransGen.trans
  zero _ _ := rfl
  succ _ _ _ := rfl
  move_kept := by
    rintro ⟨received, pool⟩ index ⟨hregular, hopen, -⟩
    have hserves := (leads_resumeWorker rules pool index).serves received.toList
    obtain ⟨hnext, hstays⟩ := hserves.regular hregular hopen
    obtain ⟨htaken, -, hempty⟩ := serves_of_takeBuffered hnext hstays received
    obtain ⟨hafter, hremains⟩ := htaken.regular hnext hstays
    exact ⟨hafter, hremains, hempty⟩
  move_cases := by
    rintro ⟨received, pool⟩ index ⟨hregular, hopen, hempty⟩
    rcases resumeWorker_cases rules pool index with ⟨hsame, hblocked⟩ | ⟨hleads, hlt⟩
    · refine .inl ⟨?_, hblocked⟩
      dsimp only
      rw [hsame, takeBuffered_of_empty hempty]
    · have hserves := hleads.serves received.toList
      obtain ⟨hnext, hstays⟩ := hserves.regular hregular hopen
      obtain ⟨htaken, hwork, -⟩ := serves_of_takeBuffered hnext hstays received
      exact .inr ⟨hserves.trans htaken, hwork ▸ hlt⟩
  last_leads _ := ⟨(leads_resumeCloser rules _).serves _, work_resumeCloser_le _⟩

theorem drainFrom_cases (h : pool.Regular rules) (hopen : pool.link.channel.receiving = true)
    (hempty : pool.link.channel.buffer = .empty) (received : Array Nat) :
    pool.drainFrom rules received 0 pool.workers.size = (received, pool.resumeCloser) ∧
        (∀ worker ∈ pool.workers, (pool.station worker).isBlocked = true) ∨
      Serves rules (pool, received.toList) ((pool.drainFrom rules received 0 pool.workers.size).2,
          (pool.drainFrom rules received 0 pool.workers.size).1.toList) ∧
        (pool.drainFrom rules received 0 pool.workers.size).2.work < pool.work := by
  have hkept : (servings rules).kept (received, pool) := ⟨h, hopen, hempty⟩
  rcases (servings rules).cases hkept 0 pool.workers.size with ⟨hsame, hblocked⟩ | hforward
  · refine .inl ⟨hsame, fun worker hworker => ?_⟩
    obtain ⟨index, hindex, rfl⟩ := Array.mem_iff_getElem.1 hworker
    exact hblocked index (Nat.zero_le _) (by omega) hindex
  · exact .inr hforward

/-- Values are taken in the background until the drain has ended. -/
theorem drain_serves (h : pool.Regular rules) (hopen : pool.link.channel.receiving = true)
    (received : Array Nat) : ∃ (middle : Pool) (values : Array Nat),
      Serves rules (pool, received.toList) (middle, values.toList) ∧
        middle.link.poll = (.finished, { middle.link with finished := true }) ∧
          pool.drain rules received = (values, .finished, { middle with link.finished := true }) := by
  induction pool, received using drain.induct rules with
  | case1 pool received values taken htaken link hpending more resumed hresumed hlt ih =>
      obtain ⟨hserves, hwork, hempty⟩ := serves_of_takeBuffered h hopen received
      rw [htaken] at hserves hwork hempty
      obtain ⟨hregular, hstays⟩ := hserves.regular h hopen
      have hrow : Serves rules (taken, values.toList) (resumed, more.toList) := by
        rcases drainFrom_cases hregular hstays hempty values with ⟨hsame, -⟩ | ⟨hrow, -⟩
        · rw [hresumed] at hsame
          cases hsame
          exact (leads_resumeCloser rules taken).serves _
        · rwa [hresumed] at hrow
      obtain ⟨hnext, hremains⟩ := hrow.regular hregular hstays
      obtain ⟨middle, last, hmiddle, hended, hdrain⟩ := ih hnext hremains
      refine ⟨middle, last, (hserves.trans hrow).trans hmiddle, hended, ?_⟩
      rw [drain, htaken]
      dsimp only
      rw [hpending]
      dsimp only
      rw [hresumed]
      dsimp only
      rw [if_pos hlt]
      exact hdrain
  | case2 pool received values taken htaken link hpending more resumed hresumed hstill =>
      -- nobody came nearer to the end, though the drain waits: that cannot be
      obtain ⟨hserves, hwork, hempty⟩ := serves_of_takeBuffered h hopen received
      rw [htaken] at hserves hwork hempty
      obtain ⟨hregular, hstays⟩ := hserves.regular h hopen
      rcases drainFrom_cases hregular hstays hempty values with ⟨hsame, hblocked⟩ | ⟨-, hlt⟩
      · rw [hresumed] at hsame
        cases hsame
        have hnone : taken.work ≤ taken.resumeCloser.work := hwork ▸ Nat.le_of_not_lt hstill
        exact absurd hpending (hregular.poll_ne_pending hblocked hnone)
      · rw [hresumed] at hlt
        exact absurd (hwork ▸ hlt) hstill
  | case3 pool received values taken htaken polled link hother hpolled =>
      obtain ⟨hserves, hwork, hempty⟩ := serves_of_takeBuffered h hopen received
      rw [htaken] at hserves hwork hempty
      obtain ⟨hregular, -⟩ := hserves.regular h hopen
      have hended : taken.link.poll = (.finished, { taken.link with finished := true }) := by
        rcases hregular.poll_of_empty hempty with hpending | hended
        · rw [hpolled] at hpending
          cases hpending
          exact absurd rfl hother
        · exact hended
      refine ⟨taken, values, hserves, hended, ?_⟩
      rw [drain, htaken]
      dsimp only
      rw [hended]

/-- Whoever joins the workers finds all of them when they are gone. -/
theorem joinAll_cases (rules : Rules) (pool : Pool) :
    pool.joinAll = pool ∧ ((∀ worker ∈ pool.workers, worker.isGone = true) →
        pool.workers.all Worker.isJoined = true) ∨
      Leads rules pool pool.joinAll ∧ pool.joinAll.work < pool.work := by
  unfold joinAll
  split
  · have hkept : (joinings rules).kept pool := trivial
    rcases (joinings rules).cases hkept 0 pool.workers.size with ⟨hsame, hnone⟩ | hforward
    · refine .inl ⟨hsame, fun hgone => ?_⟩
      rw [Array.all_eq_true]
      intro index hindex
      by_contra hjoined
      obtain ⟨outcome, worker, hjoin⟩ :=
        Worker.join?_of_isGone (hgone _ (Array.getElem_mem hindex)) (Bool.eq_false_iff.mpr hjoined)
      rw [hnone index (Nat.zero_le _) (by omega) hindex] at hjoin
      cases hjoin
    · exact .inr hforward
  · rename_i hall
    exact .inl ⟨rfl, fun hgone => absurd (Array.all_eq_true_iff_forall_mem.2 hgone) hall⟩

/-- Without the drain, all that is to be waited for comes in the background. -/
theorem settle_leads (h : pool.Regular rules) (hclosed : pool.link.channel.receiving = false) :
    ∃ after result, Leads rules pool after ∧ after.result? = some result ∧
      pool.settle rules = (some result, after) := by
  induction pool using settle.induct rules with
  | case1 pool result hresult =>
      refine ⟨pool, result, .refl, hresult, ?_⟩
      rw [settle, hresult]
  | case2 pool hnone resumed hlt ih =>
      have hleads : Leads rules pool (pool.pass rules).joinAll := by
        rcases joinAll_cases rules (pool.pass rules) with ⟨hsame, -⟩ | ⟨hjoins, -⟩
        · rw [hsame]
          exact leads_pass rules pool
        · exact (leads_pass rules pool).trans hjoins
      obtain ⟨after, result, hafter, hresult, hsettle⟩ :=
        ih (h.leads hleads) (hleads.receiving_eq.trans hclosed)
      refine ⟨after, result, hleads.trans hafter, hresult, ?_⟩
      rw [settle, hnone]
      dsimp only
      rw [if_pos hlt]
      exact hsettle
  | case3 pool hnone resumed hstill =>
      -- if nobody comes nearer to the end, everyone was joined and the closer released, so there is
      -- a result
      exfalso
      have hstill : pool.work ≤ (pool.pass rules).joinAll.work := Nat.le_of_not_lt hstill
      have hjoins := joinAll_cases rules (pool.pass rules)
      rcases pool.pass_cases rules with ⟨hsame, hblocked⟩ | ⟨-, hless⟩
      · rw [hsame] at hstill hjoins
        have hle := pool.work_resumeCloser_le
        rcases hjoins with ⟨hjoined, hall⟩ | ⟨-, hless⟩
        · rw [hjoined] at hstill
          obtain ⟨hgone, hcomplete⟩ := h.complete_of_blocked hblocked fun hopen =>
            absurd (hclosed.symm.trans hopen) (by decide)
          rw [pool.resumeCloser_eq.1] at hall
          have hreleased := h.released_of_complete hcomplete hstill
          rw [result?, if_pos (hall hgone), if_pos hcomplete, if_pos hreleased] at hnone
          cases hnone
        · omega
      · rcases hjoins with ⟨hjoined, -⟩ | ⟨-, hjoins⟩
        · rw [hjoined] at hstill
          omega
        · omega

end Pool

end ParallelFilter
