import ParallelFilter.Proofs.Progress
import Mathlib.Logic.Relation

/-! Nobody waits for ever. A worker may be suspended on a full channel, the closer asleep on the
barrier and the drain waiting on an empty channel, all at once. While the consumer keeps receiving,
or is gone, or the job is cancelled, somebody can still move until the pool has returned its report,
and the moves come to an end. -/

namespace ParallelFilter

open Relation (ReflTransGen)

namespace Pool

variable {rules : Rules} {pool after : Pool} {event : Event} {published : Option (Nat × Nat)}
  {answer : Option Polled} {receives : Bool}

/-- Whether the move is due: it is one of a party that can be relied on, and it leaves the places
alone that are kept for workers who wait already. The drain is relied on if it is polled as long as
it is there. -/
def isDue (receives : Bool) (pool : Pool) : Event → Bool
  | .work index => !pool.workers[index]?.any pool.mustQueue
  | .queue _ | .close | .join _ => true
  | .receive => receives
  | .dropDrain | .cancel _ => false

/-- The one pool leads to the other by moves that were due. -/
def Proceeds (rules : Rules) (receives : Bool) : Pool → Pool → Prop :=
  ReflTransGen fun before after =>
    ∃ event : Event, before.isDue receives event = true ∧ before.step rules event = some after

/-- No move that is due can be made. -/
def Stuck (rules : Rules) (receives : Bool) (pool : Pool) : Prop :=
  ∀ event : Event, pool.isDue receives event = true → pool.step rules event = none

/-- The consumer does not hold up the workers: it keeps receiving, or it is gone, or the job is
cancelled. -/
def Served (receives : Bool) (pool : Pool) : Prop :=
  receives = true ∨ pool.link.channel.receiving = false ∨ pool.token.isCancelled = true

/-- What a pool has come to in the end. -/
structure Ended (receives : Bool) (pool : Pool) : Prop where
  workers : ∀ worker ∈ pool.workers, worker.ending?.isSome = true ∧ worker.isJoined = true
  barrier : pool.link.barrier.isComplete = true
  channel : pool.link.channel.senders = 0
  report : pool.result? = some (.ok pool.report)
  drain : receives = true → pool.link.channel.receiving = true → pool.link.finished = true

/-- A worker that has to queue can. -/
theorem exists_step_queue (rules : Rules) {index : Nat} (hindex : index < pool.workers.size)
    (hmust : pool.mustQueue pool.workers[index] = true) :
    ∃ after, pool.step rules (.queue index) = some after := by
  cases hphase : pool.workers[index].phase with
  | offering value =>
      simp only [step, dif_pos hindex, hmust, hphase]
      exact ⟨_, rfl⟩
  | ready | evaluating | waiting _ | yielding | stopped _ _ =>
      simp only [mustQueue, hphase] at hmust
      cases hmust

/-- If a worker could move but for the places that are kept, it could queue. -/
theorem Stuck.still (h : pool.Stuck rules receives) : pool.Still rules := by
  intro event hevent
  cases event with
  | work index =>
      by_cases hindex : index < pool.workers.size
      · cases hmust : pool.mustQueue pool.workers[index] with
        | false =>
            apply h (.work index)
            rw [isDue, Array.getElem?_eq_getElem hindex, Option.any_some, hmust]
            rfl
        | true =>
            obtain ⟨after, hafter⟩ := exists_step_queue rules hindex hmust
            rw [h (.queue index) rfl] at hafter
            cases hafter
      · rw [step, dif_neg hindex]
  | queue index => exact h (.queue index) rfl
  | close => exact h .close rfl
  | join index => exact h (.join index) rfl
  | receive | dropDrain | cancel _ => cases hevent

theorem Stuck.atRest (h : pool.Stuck rules true) : pool.AtRest rules := by
  intro event hevent
  cases event with
  | receive => exact h .receive rfl
  | work _ | queue _ | close | join _ => exact h.still _ rfl
  | dropDrain | cancel _ => cases hevent

/-- A drain that is gone does not come back, and a cancellation is not taken back. -/
theorem Served.moves (h : pool.Served receives)
    (hmoves : Moves rules pool event published answer after) :
    after.Served receives := by
  rcases h with hreceives | hlost | hcancelled
  · exact .inl hreceives
  · refine .inr (.inl ?_)
    by_cases hdrop : event = .dropDrain
    · subst hdrop
      cases hmoves with
      | work index kept hindex hevent _ _ =>
          rcases hevent with ⟨hevent, -⟩ | ⟨hevent, -⟩ <;> cases hevent
      | dropDrain _ => rfl
    · exact (hmoves.receiving_eq hdrop).trans hlost
  · exact .inr (.inr (hmoves.token_cancelled hcancelled))

namespace History

variable {predicate : Predicate} {ranges : List Span} {history : History}

/-- Where no move is due any more, all is done. -/
theorem Sound.ended (h : history.Sound predicate ranges) (hserved : history.pool.Served receives)
    (hstuck : history.pool.Stuck rules receives) : history.pool.Ended receives := by
  have hgone : ∀ worker ∈ history.pool.workers, worker.isGone = true := by
    rcases hserved with rfl | hfree
    · exact isGone_of_atRest h hstuck.atRest
    · exact hstuck.still.isGone hfree
  obtain ⟨hjoined, hremaining, hresult⟩ := result?_of_still h hstuck.still hgone
  refine ⟨fun worker hworker => ?_, (Barrier.isComplete_iff _).2 hremaining,
    (h.result?_eq_some hresult).2.2, hresult, ?_⟩
  · have hdone := Array.all_eq_true_iff_forall_mem.1 hjoined worker hworker
    obtain ⟨ending, hending⟩ := Worker.ending?_of_isJoined hdone
    exact ⟨by rw [hending]; rfl, hdone⟩
  · rintro rfl hopen
    exact (result?_of_atRest h hstuck.atRest).2 hopen

/-- From every state there is a way to the end, by moves that are due. -/
theorem Sound.exists_ended (h : history.Sound rules.predicate ranges)
    (hserved : history.pool.Served receives) :
    ∃ final, Proceeds rules receives history.pool final ∧ final.Ended receives := by
  -- every move lowers the effort, and where none is due the end is reached
  induction heffort : history.pool.effort using Nat.strong_induction_on generalizing history with
  | h effort ih =>
      by_cases hstuck : history.pool.Stuck rules receives
      · exact ⟨_, .refl, h.ended hserved hstuck⟩
      · rw [Stuck, Classical.not_forall] at hstuck
        obtain ⟨event, hevent⟩ := hstuck
        rw [Classical.not_imp] at hevent
        obtain ⟨hdue, hsome⟩ := hevent
        obtain ⟨after, hafter⟩ := Option.ne_none_iff_exists'.1 hsome
        have hmoves := Pool.step_moves hafter
        have hlt : after.effort < effort := heffort ▸ effort_lt h.closing hmoves
        obtain ⟨final, hproceeds, hended⟩ := ih _ hlt (h.moves hmoves) (hserved.moves hmoves) rfl
        exact ⟨final, .head ⟨event, hdue, hafter⟩ hproceeds, hended⟩

end History

/-- **No deadlock and no endless run.** A pool over ranges with a channel made for them, however it
was scheduled and disturbed so far, has made no more moves than its first effort allows for, and
each further move lowers the effort. While its consumer does not hold it up it goes on: before it
has its result a move is due, where none is due it has ended, and to such an end it can always come.
-/
theorem never_stuck {capacity : Nat} {ranges : List Span} {link : ResultChannel} (token : Token)
    (rules : Rules) (hlink : ResultChannel.make capacity ranges.length = .ok link) :
    ∃ pool, Pool.start ranges link token = .ok pool ∧
      ∀ events last, (History.ofPool pool).follow rules events = some last →
        events.length + last.pool.effort ≤ pool.effort ∧
        (∀ event after, last.pool.step rules event = some after → after.effort < last.pool.effort) ∧
        ∀ receives, last.pool.Served receives →
          (last.pool.result? = none → ∃ event after,
            last.pool.isDue receives event = true ∧ last.pool.step rules event = some after) ∧
          (last.pool.Stuck rules receives → last.pool.Ended receives) ∧
          ∃ final, Proceeds rules receives last.pool final ∧ final.Ended receives := by
  have hexpected : ranges.length = link.barrier.expected := by
    obtain ⟨-, -, rfl⟩ := ResultChannel.make_eq_ok.1 hlink
    rfl
  obtain ⟨pool, hstart⟩ : ∃ pool, Pool.start ranges link token = .ok pool :=
    ⟨_, Pool.start_eq_ok.2 ⟨hexpected, rfl⟩⟩
  refine ⟨pool, hstart, fun events last hrun => ?_⟩
  have hfresh : (History.ofPool pool).Sound rules.predicate ranges := .ofStart hlink hstart
  have hsound := hfresh.follow hrun
  have hbounded := History.length_follow_le hfresh hrun
  refine ⟨hbounded, fun event after hafter => ?_, fun receives hserved => ?_⟩
  · exact effort_lt hsound.closing (Pool.step_moves hafter)
  · refine ⟨fun hnone => ?_, hsound.ended hserved, hsound.exists_ended hserved⟩
    by_contra hno
    have hstuck : last.pool.Stuck rules receives := by
      intro event hdue
      by_contra hsome
      obtain ⟨after, hafter⟩ := Option.ne_none_iff_exists'.1 hsome
      exact hno ⟨event, after, hdue, hafter⟩
    rw [(hsound.ended hserved hstuck).report] at hnone
    cases hnone

/-- Every value is accepted. -/
def acceptingAll : Rules where
  predicate := .ofBool fun _ => true
  yieldInterval := 4
  yieldInterval_pos := by decide
  failFast := false

/-- A worker waits for room with its second value and the closer sleeps. The drain can go on, and so
all comes to its end. -/
theorem never_stuck_full_channel : ∃ pool last final,
    Pool.start [⟨0, 2, by decide⟩] ⟨.ofCapacity 1 1, .ofExpected 1, 0, false⟩ {} = .ok pool ∧
    (History.ofPool pool).follow acceptingAll
      [.work 0, .work 0, .work 0, .close, .work 0, .work 0, .work 0, .close] = some last ∧
    last.pool.workers[0]?.map Worker.phase = some (.waiting 1) ∧ last.pool.closer = .asleep 0 ∧
    (∃ event after, last.pool.isDue true event = true ∧
      last.pool.step acceptingAll event = some after) ∧
    Proceeds acceptingAll true last.pool final ∧ final.Ended true := by
  have hlink : ResultChannel.make 1 [Span.mk 0 2].length =
      .ok ⟨.ofCapacity 1 1, .ofExpected 1, 0, false⟩ := rfl
  obtain ⟨pool, hstart, hruns⟩ := never_stuck {} acceptingAll hlink
  have hstands : ((History.ofPool pool).follow acceptingAll
      [.work 0, .work 0, .work 0, .close, .work 0, .work 0, .work 0, .close]).any
      (fun last => last.pool.workers[0]?.map Worker.phase == some (.waiting 1) &&
        last.pool.closer == .asleep 0 && last.pool.result?.isNone) = true := by
    cases hstart
    decide +kernel
  obtain ⟨last, hrun, hlast⟩ := (Option.any_eq_true _ _).1 hstands
  simp only [Bool.and_eq_true, beq_iff_eq, Option.isNone_iff_eq_none] at hlast
  obtain ⟨⟨hphase, hcloser⟩, hresult⟩ := hlast
  obtain ⟨-, -, hserved⟩ := hruns _ last hrun
  obtain ⟨hprogress, -, final, hproceeds, hended⟩ := hserved true (.inl rfl)
  exact ⟨pool, last, final, hstart, hrun, hphase, hcloser, hprogress hresult, hproceeds, hended⟩

end Pool

end ParallelFilter
