import ParallelFilter.Proofs.Outcome
import Mathlib.Algebra.Order.BigOperators.Group.List

/-! No run goes on for ever and none stops short. Every move lowers `Pool.effort`, in which a
worker's moves count twice because they may put a value into the channel that the drain takes out
later. And where no party can move any more, every worker was joined, the closer has dropped its
sender, and the drain has ended or is gone. -/

namespace ParallelFilter

namespace Token

/-- How many cancellations are still to come. -/
def pending (token : Token) : Nat :=
  (!token.job).toNat + (!token.pool).toNat

theorem pending_cancel_le (token : Token) (scope : Scope) :
    (token.cancel scope).pending ≤ token.pending := by
  obtain ⟨job, pool⟩ := token
  cases scope <;> cases job <;> cases pool <;> decide

theorem pending_cancel_lt {token : Token} {scope : Scope} (h : token.cancel scope ≠ token) :
    (token.cancel scope).pending < token.pending := by
  obtain ⟨job, pool⟩ := token
  cases scope <;> cases job <;> cases pool <;> revert h <;> decide

theorem pending_cancel?_le (token : Token) (scope : Option Scope) :
    (token.cancel? scope).pending ≤ token.pending := by
  cases scope with
  | none => exact Nat.le_refl _
  | some scope => exact token.pending_cancel_le scope

end Token

namespace Waiter

/-- How many moves the waiter has at most before its release, or before it sleeps for good. It is woken
once, by the last ticket. -/
def effort (barrier : Barrier) : Waiter → Nat
  | .released => 0
  | .registered _ => if barrier.remaining = 0 then 1 else 5
  | .fresh => if barrier.remaining = 0 then 2 else 6
  | .asleep seen => if barrier.notifications = seen then 4 else 3

theorem effort_arrive_le {barrier : Barrier} {waiter : Waiter}
    (hseen : ∀ {seen}, waiter = .asleep seen → seen ≤ barrier.notifications) :
    waiter.effort barrier.arrive ≤ waiter.effort barrier := by
  cases waiter with
  | released => exact Nat.le_refl _
  | registered _ | fresh =>
      simp only [effort, Barrier.arrive_remaining]
      split <;> split <;> omega
  | asleep seen =>
      have := hseen rfl
      simp only [effort, Barrier.arrive_notifications]
      by_cases hlast : barrier.remaining = 1
      · rw [if_pos hlast, if_neg (by omega)]
        split <;> omega
      · rw [if_neg hlast]

end Waiter

namespace Station.Moves

variable {rules : Rules} {kept : Nat} {before after : Station} {sent : Option Nat}

theorem pending_le (h : Moves rules kept before sent after) :
    after.token.pending ≤ before.token.pending := by
  cases h with
  | fail =>
      dsimp only
      split
      · exact Token.pending_cancel_le _ _
      · exact Nat.le_refl _
  | reject cancels _ _ | accept cancels _ _ => exact Token.pending_cancel?_le _ cancels
  | alarm => exact Token.pending_cancel_le _ _
  | _ => exact Nat.le_refl _

/-- Every move brings the worker nearer to its end, suspended or not. -/
theorem work_lt (h : Moves rules kept before sent after) : after.worker.work < before.worker.work := by
  have hstopped {worker : Worker} {ending : Ending} :
      ({ worker with phase := .stopped ending .sender } : Worker).work = 4 := rfl
  have hhand {worker : Worker} {value : Nat} (hvalue : worker.inHand? = some value) :
      5 * worker.remaining + 6 < worker.work := by
    rcases Worker.phase_of_inHand? hvalue with hphase | hphase <;>
      simp only [Worker.work, hphase] <;> omega
  cases h with
  | enter hphase hlt _ =>
      simp only [Worker.work, hphase, Worker.remaining]
      omega
  | complete hphase _ | quit hphase _ _ | fail _ hphase _ | panic _ hphase _ =>
      rw [hstopped]
      simp only [Worker.work, hphase]
      omega
  | reject _ hphase _ =>
      refine Nat.lt_of_le_of_lt (work_afterValue_le rules _ _ _ _ (Nat.le_refl _)) ?_
      simp only [Worker.work, hphase, Worker.remaining]
      omega
  | accept _ hphase _ =>
      simp only [Worker.work, hphase, Worker.remaining]
      omega
  | send value hvalue _ _ _ =>
      exact Nat.lt_of_le_of_lt (work_afterValue_le rules _ _ _ _ (Nat.le_refl _)) (hhand hvalue)
  | disconnect value hvalue _ _ | giveUp value hvalue _ _ =>
      rw [hstopped]
      have := hhand hvalue
      dsimp only
      omega
  | suspend _ hphase _ _ _ =>
      simp only [Worker.work, hphase, Worker.remaining]
      omega
  | goOn hphase =>
      simp only [Worker.work, hphase, Worker.remaining]
      omega
  | dropSender _ hphase | alarm _ hphase =>
      simp only [Worker.work, hphase]
      omega
  | dropTicket ending hphase =>
      rcases afterTicket_cases rules ending with hleft | hleft <;>
        simp only [Worker.work, hphase, hleft] <;> decide

end Station.Moves

/-- A worker that cannot move is gone, or it waits for room in a full channel. -/
theorem Station.gone_or_full_of_isBlocked {station : Station} (h : station.isBlocked = true) :
    station.worker.isGone = true ∨ station.worker.isWaiting = true ∧
      station.token.isCancelled = false ∧ station.link.channel.receiving = true ∧
        station.link.channel.capacity ≤ station.link.channel.buffer.size := by
  unfold isBlocked at h
  split at h
  · rename_i hphase
    simp only [Channel.isFull, Bool.and_eq_true, Bool.not_eq_true', decide_eq_true_eq] at h
    exact .inr ⟨by simp only [Worker.isWaiting, hphase], h⟩
  · rename_i hphase
    exact .inl (by simp only [Worker.isGone, hphase])
  · rename_i hphase
    exact .inl (by simp only [Worker.isGone, hphase])
  · cases h

/-- Whether the event is a move of the workers, the closer, those who join, or the drain. The others
come from outside: a cancellation, and the loss of the drain. -/
def Event.isInner : Event → Bool
  | .dropDrain | .cancel _ => false
  | .work _ | .queue _ | .close | .join _ | .receive => true

/-- Whether the event is a move of a worker, of the closer, or of those who join. -/
def Event.isBackground : Event → Bool
  | .work _ | .queue _ | .close | .join _ => true
  | .receive | .dropDrain | .cancel _ => false

theorem Event.isInner_of_isBackground {event : Event} (h : event.isBackground = true) :
    event.isInner = true := by
  cases event with
  | work _ | queue _ | close | join _ => rfl
  | receive | dropDrain | cancel _ => cases h

namespace Pool

/-- No party can move any more. -/
def AtRest (rules : Rules) (pool : Pool) : Prop :=
  ∀ event : Event, event.isInner = true → pool.step rules event = none

/-- No party but the drain can move any more. -/
def Still (rules : Rules) (pool : Pool) : Prop :=
  ∀ event : Event, event.isBackground = true → pool.step rules event = none

variable {rules : Rules} {pool after : Pool} {event : Event} {published : Option (Nat × Nat)}
  {answer : Option Polled}

theorem AtRest.still (h : pool.AtRest rules) : pool.Still rules :=
  fun event hevent => h event (Event.isInner_of_isBackground hevent)

theorem Still.isBlocked (h : pool.Still rules) {index : Nat} (hindex : index < pool.workers.size) :
    (pool.station pool.workers[index]).isBlocked = true := by
  have hnone := h (.work index) rfl
  rw [step, dif_pos hindex] at hnone
  by_contra hfree
  rw [if_neg hfree] at hnone
  cases hnone

/-- A worker that waits for room waits for a drain that is there, in a job that is not cancelled. -/
theorem Still.isGone (h : pool.Still rules)
    (hfree : pool.link.channel.receiving = false ∨ pool.token.isCancelled = true) :
    ∀ worker ∈ pool.workers, worker.isGone = true := by
  intro worker hworker
  obtain ⟨index, hindex, rfl⟩ := Array.mem_iff_getElem.1 hworker
  rcases Station.gone_or_full_of_isBlocked (h.isBlocked hindex) with hgone | ⟨-, hcalm, hopen, -⟩
  · exact hgone
  · rcases hfree with hlost | hcancelled
    · exact absurd (hopen.symm.trans hlost) (by decide)
    · exact absurd (hcalm.symm.trans hcancelled) (by decide)

theorem AtRest.channel (h : pool.AtRest rules) (hopen : pool.link.channel.receiving = true)
    (hfinished : pool.link.finished = false) :
    pool.link.channel.buffer.toList = [] ∧ pool.link.channel.senders ≠ 0 := by
  have hnone := h .receive rfl
  rw [step, if_pos ⟨hopen, by rw [hfinished]; decide⟩] at hnone
  split at hnone
  · rename_i hpoll
    exact (ResultChannel.poll_eq_pending.1 (congrArg Prod.fst hpoll)).2
  · cases hnone

/-- The work that is left to the workers. -/
def labour (pool : Pool) : Nat :=
  (pool.workers.toList.map Worker.work).sum

/-- A bound on all moves to come, those of whoever cancels or drops the drain included. -/
def effort (pool : Pool) : Nat :=
  2 * pool.labour + pool.link.channel.buffer.size + pool.closer.effort pool.link.barrier +
    pool.link.channel.receiving.toNat + (!pool.link.finished).toNat + pool.token.pending

theorem effort_work_lt (h : pool.Closing) {index kept : Nat} (hindex : index < pool.workers.size)
    {sent : Option Nat} {moved : Station}
    (hmoves : Station.Moves rules kept (pool.station pool.workers[index]) sent moved) :
    effort { pool with
      workers := pool.workers.set index moved.worker
      link := moved.link
      token := moved.token } < pool.effort := by
  have hwork := hmoves.work_lt
  have hpending := hmoves.pending_le
  have hlabour := sum_map_set Worker.work hindex moved.worker
  have hsize (queue : Queue Nat) (value : Nat) : (queue.push value).size = queue.size + 1 := rfl
  simp only [effort, labour, station] at *
  cases hmoves.touches with
  | nothing hlink _ _ =>
      dsimp only at hlink
      rw [hlink]
      omega
  | put value hlink _ _ _ _ =>
      -- the drain has one more value to take, for which the worker's move counts twice
      dsimp only at hlink
      rw [hlink]
      simp only [ResultChannel.put, hsize]
      omega
  | loseSender hlink _ _ _ =>
      dsimp only at hlink
      rw [hlink]
      simp only [ResultChannel.dropSender, Channel.dropSender]
      omega
  | loseTicket hlink _ _ _ _ =>
      have hcloser : pool.closer.effort pool.link.barrier.arrive ≤
          pool.closer.effort pool.link.barrier :=
        Waiter.effort_arrive_le fun hasleep => h.seen (.inr hasleep)
      dsimp only at hlink
      rw [hlink]
      simp only [ResultChannel.dropTicket]
      omega

theorem effort_lt (h : pool.Closing) (hmoves : Moves rules pool event published answer after) :
    after.effort < pool.effort := by
  cases hmoves with
  | work index kept hindex _ moved hmoves => exact effort_work_lt h hindex hmoves
  | register hcloser =>
      simp only [effort, labour, hcloser, Waiter.effort]
      split <;> omega
  | sleep seen hcloser hheld =>
      simp only [effort, labour, hcloser, Waiter.effort, if_neg hheld]
      split <;> omega
  | wake seen hcloser hnotified =>
      have hseen := h.seen (.inr hcloser)
      have hcomplete := h.notified (by omega)
      simp only [effort, labour, hcloser, Waiter.effort, if_neg hnotified, if_pos hcomplete]
      omega
  | release seen hcloser hcomplete =>
      simp only [effort, labour, hcloser, Waiter.effort, if_pos hcomplete, ResultChannel.dropSender,
        Channel.dropSender]
      omega
  | join index hindex worker hjoin =>
      obtain ⟨ending, hphase, hnext, -⟩ := Worker.join?_eq_some hjoin
      have hbefore : pool.workers[index].work = 1 := by simp only [Worker.work, hphase]
      have hafter : worker.work = 0 := by
        rw [hnext]
        rfl
      have hlabour := sum_map_set Worker.work hindex worker
      simp only [effort, labour]
      omega
  | deliver value rest hopen hfinished hbuffer =>
      have hsize := congrArg List.length hbuffer
      rw [List.length_cons, ← Queue.size_eq_length, ← Queue.size_eq_length] at hsize
      simp only [effort, labour]
      omega
  | finish _ hfinished _ _ _ | violate _ hfinished _ _ _ =>
      simp only [effort, labour, hfinished, Bool.not_false, Bool.not_true, Bool.toNat_true,
        Bool.toNat_false]
      omega
  | dropDrain hopen =>
      simp only [effort, labour, hopen, ResultChannel.dropDrain, Channel.dropReceiver, Queue.empty,
        Bool.toNat_true, Bool.toNat_false]
      omega
  | cancel scope hchange =>
      have := Token.pending_cancel_lt hchange
      simp only [effort, labour]
      omega

namespace History

variable {predicate : Predicate} {ranges : List Span} {history last : History} {events : List Event}

/-- However a run is scheduled, it has no more moves than the effort it began with. -/
theorem length_follow_le (h : history.Sound rules.predicate ranges)
    (hrun : history.follow rules events = some last) :
    events.length + last.pool.effort ≤ history.pool.effort := by
  induction events generalizing history with
  | nil =>
      cases hrun
      exact Nat.le_of_eq (Nat.zero_add _)
  | cons event events ih =>
      obtain ⟨next, hnext, hrest⟩ := foldlM_cons_eq_some.1 hrun
      obtain ⟨published, answer, after, hmove, rfl⟩ := step_moves hnext
      have hle := ih (h.moves hmove) hrest
      have hlt : after.effort < history.pool.effort := effort_lt h.closing hmove
      have hsame : (history.extend published answer after).pool.effort = after.effort := rfl
      rw [List.length_cons]
      omega

section Still

variable (h : history.Sound predicate ranges) (hstill : history.pool.Still rules)

include h hstill

/-- Where the workers are gone and nobody moves, the pool has its report. -/
theorem result?_of_still (hgone : ∀ worker ∈ history.pool.workers, worker.isGone = true) :
    history.pool.workers.all Worker.isJoined = true ∧ history.pool.link.barrier.remaining = 0 ∧
      history.pool.result? = some (.ok history.pool.report) := by
  have hjoined : history.pool.workers.all Worker.isJoined = true := by
    rw [Array.all_eq_true]
    intro index hindex
    by_contra hjoined
    obtain ⟨outcome, worker, hjoin⟩ :=
      Worker.join?_of_isGone (hgone _ (Array.getElem_mem hindex)) (Bool.eq_false_iff.mpr hjoined)
    have hnone := hstill (.join index) rfl
    rw [Pool.step, Array.getElem?_eq_getElem hindex, Option.bind_some, hjoin] at hnone
    cases hnone
  have hremaining : history.pool.link.barrier.remaining = 0 := by
    rw [h.closing.tickets, Array.countP_eq_zero]
    intro worker hworker
    rw [Worker.not_holdsTicket_of_isGone (hgone worker hworker)]
    decide
  have hreleased : history.pool.closer = .released := by
    have hnone := hstill .close rfl
    rw [Pool.step] at hnone
    split at hnone
    · rename_i hidle
      rcases hidle with hreleased | hparked
      · exact hreleased
      · cases hcloser : history.pool.closer with
        | asleep seen =>
            rw [hcloser] at hparked
            exact absurd hremaining (h.closing.asleep hcloser (beq_iff_eq.1 hparked))
        | released => rfl
        | fresh | registered _ =>
            rw [hcloser] at hparked
            cases hparked
    · cases hnone
  refine ⟨hjoined, hremaining, ?_⟩
  rw [result?, if_pos hjoined, if_pos ((Barrier.isComplete_iff _).2 hremaining), if_pos hreleased]

end Still

section Rest

variable (h : history.Sound predicate ranges) (hrest : history.pool.AtRest rules)

include h hrest

/-- At rest no worker waits: a full channel has a value for the drain to take. -/
theorem isGone_of_atRest : ∀ worker ∈ history.pool.workers, worker.isGone = true := by
  intro worker hworker
  obtain ⟨index, hindex, rfl⟩ := Array.mem_iff_getElem.1 hworker
  rcases Station.gone_or_full_of_isBlocked (hrest.still.isBlocked hindex) with hgone |
    ⟨hwaits, -, hopen, hfull⟩
  · exact hgone
  · have hsenders := h.closing.senders_pos hindex (Worker.holdsSender_of_isWaiting hwaits)
    have hfinished : history.pool.link.finished = false := by
      by_contra hfinished
      rw [h.closing.finished (Bool.not_eq_false _ ▸ hfinished)] at hsenders
      cases hsenders
    have hpos : 0 < history.pool.link.channel.buffer.size :=
      Nat.lt_of_lt_of_le h.delivery.capacity_pos hfull
    rw [Queue.size_eq_length, (hrest.channel hopen hfinished).1] at hpos
    cases hpos

/-- Where nobody can move any more the pool has its report, and a drain that is still there has
ended. -/
theorem result?_of_atRest : history.pool.result? = some (.ok history.pool.report) ∧
    (history.pool.link.channel.receiving = true → history.pool.link.finished = true) := by
  obtain ⟨-, -, hresult⟩ := result?_of_still h hrest.still (isGone_of_atRest h hrest)
  refine ⟨hresult, fun hopen => ?_⟩
  by_contra hfinished
  exact (hrest.channel hopen (Bool.eq_false_iff.mpr hfinished)).2
    (h.result?_eq_some hresult).2.2

end Rest

end History

end Pool

end ParallelFilter
