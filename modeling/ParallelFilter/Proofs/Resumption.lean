import ParallelFilter.Proofs.Promptness

/-! Resumptions: the moves of one worker, one after another, until it is suspended or gone. Nothing
comes between them, so they are one step for the rest of the job. A worker whose call of the
predicate goes wrong has given up all it held by the end of the resumption, and under fail-fast its
job is cancelled by then, however the call went wrong. -/

namespace ParallelFilter

/-- How a worker ends whose call has this outcome, if it ends with it. -/
def Outcome.mishap? : Outcome → Option Ending
  | .decided _ _ => none
  | .failed reason => some (.failed reason)
  | .panicked payload => some (.panicked payload)

namespace Station

variable {rules : Rules} {station : Station} {worker : Worker} {link : ResultChannel} {token : Token}

theorem sends?_of_inHand? (h : station.worker.inHand? = none) : station.sends? rules = none := by
  rw [sends?, h, ite_self]

/-- A worker whose call goes wrong stops. By the time it is gone its job is cancelled if it fails
fast, at once or with the last thing that it does. -/
theorem step_of_mishap {ending : Ending} (hphase : worker.phase = .evaluating)
    (hcall : (rules.predicate worker.next).mishap? = some ending) : ∃ between,
      step rules ⟨worker, link, token⟩ =
        ⟨{ worker with phase := .stopped ending .sender }, link, between⟩ ∧
        (if ending.afterTicket rules = .alarm then between.cancel .job else between) =
          if rules.failFast then token.cancel .job else token := by
  cases houtcome : rules.predicate worker.next with
  | decided accepted cancels =>
      rw [houtcome] at hcall
      cases hcall
  | failed reason =>
      rw [houtcome] at hcall
      cases hcall
      refine ⟨if rules.failFast then token.cancel .job else token, ?_, if_neg nofun⟩
      simp only [step, hphase, evaluate, houtcome, stop]
  | panicked payload =>
      rw [houtcome] at hcall
      cases hcall
      refine ⟨token, ?_, ?_⟩
      · simp only [step, hphase, evaluate, houtcome, stop]
      · cases hfailFast : rules.failFast <;> simp [Ending.afterTicket, hfailFast]

/-- After a call that goes wrong the worker is gone, and nothing tells a failure from a panic but
its ending. -/
theorem run_of_mishap {ending : Ending} (hphase : worker.phase = .evaluating)
    (hcall : (rules.predicate worker.next).mishap? = some ending) :
    run rules ⟨worker, link, token⟩ =
      ⟨{ worker with phase := .stopped ending .outcome }, link.dropSender.dropTicket,
        if rules.failFast then token.cancel .job else token⟩ := by
  obtain ⟨between, hstep, htoken⟩ := step_of_mishap hphase hcall
  rw [run_of_isActive (by simp only [Worker.isActive, hphase]), hstep, run_of_ending, htoken]

end Station

namespace Pool

/-- The next move of a worker that is resumed. When it has a value to offer and each free place is
kept for others, it may queue behind them. -/
def turn (pool : Pool) (index : Nat) (queues : Bool) : Event :=
  if queues && pool.workers[index]?.any pool.mustQueue then .queue index else .work index

theorem worker?_turn (pool : Pool) (index : Nat) (queues : Bool) :
    (pool.turn index queues).worker? = some index := by
  unfold turn
  split <;> rfl

/-- Only a worker with a value to offer can queue. -/
theorem turn_of_inHand? {pool : Pool} {index : Nat} {worker : Worker} (queues : Bool)
    (hworker : pool.workers[index]? = some worker) (hhand : worker.inHand? = none) :
    pool.turn index queues = .work index := by
  have hmust : pool.mustQueue worker = false := by
    unfold mustQueue
    split
    · rename_i hphase
      simp only [Worker.inHand?, hphase] at hhand
      cases hhand
    · rfl
  rw [turn, hworker, Option.any_some, hmust, Bool.and_false, if_neg Bool.false_ne_true]

/-- Wherever a worker is resumed, it is suspended or gone after that. -/
theorem exists_resumed {pool : Pool} {index : Nat} (rules : Rules)
    (hindex : index < pool.workers.size) :
    ∃ resumed, (pool.resumeWorker rules index).workers[index]? = some resumed ∧
      resumed.isActive = false := by
  cases hblocked : (pool.station pool.workers[index]).isBlocked with
  | true =>
      rw [resumeWorker_of_isBlocked hindex hblocked]
      refine ⟨_, Array.getElem?_eq_getElem hindex, Bool.eq_false_iff.2 fun hactive => ?_⟩
      exact absurd ((Station.isBlocked_of_isActive hactive).symm.trans hblocked) (by decide)
  | false =>
      rw [resumeWorker_of_free hindex hblocked]
      exact ⟨_, Array.getElem?_set_self hindex, Station.isActive_run rules _⟩

/-- A worker that cannot move makes no move. -/
theorem step_work_eq_none {pool : Pool} {index : Nat} (rules : Rules)
    (hblocked : ∀ hindex : index < pool.workers.size, (pool.station pool.workers[index]).isBlocked =
      true) :
    pool.step rules (.work index) = none := by
  by_cases hindex : index < pool.workers.size
  · simp only [step, dif_pos hindex, hblocked hindex, if_true]
  · simp only [step, dif_neg hindex]

namespace History

variable {rules : Rules} {history next : History} {index : Nat} {queues : Bool}

/-- The work that is left to one worker. -/
def labourOf (history : History) (index : Nat) : Nat :=
  (history.pool.workers[index]?.map Worker.work).getD 0

theorem labourOf_lt {event : Event} (hevent : event.worker? = some index)
    (hstep : history.step rules event = some next) : next.labourOf index < history.labourOf index := by
  obtain ⟨published, answer, after, hmoves, rfl⟩ := step_moves hstep
  cases hmoves with
  | work other kept hother hworks moved hmoves =>
      obtain rfl := Option.some.inj ((Event.worker?_of_move hworks).symm.trans hevent)
      rw [labourOf, labourOf, extend, Array.getElem?_set_self hother, Array.getElem?_eq_getElem hother]
      exact hmoves.work_lt
  | _ => cases hevent

/-- The moves of a worker until it is suspended or gone. -/
def run (rules : Rules) (index : Nat) (queues : Bool) (history : History) : History :=
  if history.pool.workers[index]?.any Worker.isActive then
    match _hstep : history.step rules (history.pool.turn index queues) with
    | some next => run rules index queues next
    | none => history
  else history
termination_by history.labourOf index
decreasing_by exact labourOf_lt (worker?_turn _ _ _) _hstep

/-- Resumes a worker: it makes a move, whether it is suspended or not, and goes on until it is
suspended or gone. -/
def resume (rules : Rules) (index : Nat) (queues : Bool) (history : History) : History :=
  match history.step rules (history.pool.turn index queues) with
  | some next => next.run rules index queues
  | none => history

theorem run_of_step (hactive : history.pool.workers[index]?.any Worker.isActive = true)
    (hstep : history.step rules (history.pool.turn index queues) = some next) :
    history.run rules index queues = next.run rules index queues := by
  rw [run, if_pos hactive]
  split
  · rename_i hother
    rw [Option.some.inj (hother.symm.trans hstep)]
  · rename_i hnone
    rw [hnone] at hstep
    cases hstep

theorem run_of_not_isActive (hinactive : history.pool.workers[index]?.any Worker.isActive = false) :
    history.run rules index queues = history := by
  rw [run, hinactive, if_neg Bool.false_ne_true]

theorem run_of_step_eq_none (hstep : history.step rules (history.pool.turn index queues) = none) :
    history.run rules index queues = history := by
  rw [run]
  split
  · split
    · rename_i hsome
      rw [hstep] at hsome
      cases hsome
    · rfl
  · rfl

/-- A worker that is not suspended goes on as if it had not been resumed. -/
theorem resume_of_isActive (hactive : history.pool.workers[index]?.any Worker.isActive = true) :
    history.resume rules index queues = history.run rules index queues := by
  rw [resume]
  split
  · rename_i hstep
    exact (run_of_step hactive hstep).symm
  · rename_i hnone
    exact (run_of_step_eq_none hnone).symm

section Alone

variable (hindex : index < history.pool.workers.size) {station : Station}

/-- The history after moves of one worker that publish nothing. -/
def put (history : History) (index : Nat) (hindex : index < history.pool.workers.size)
    (station : Station) :
    History :=
  { history with pool := history.pool.put index hindex station }

theorem getElem?_put (station : Station) :
    (history.put index hindex station).pool.workers[index]? = some station.worker :=
  Array.getElem?_set_self hindex

theorem put_station :
    history.put index hindex (history.pool.station history.pool.workers[index]) = history :=
  congrArg (fun pool => { history with pool }) (Pool.put_station hindex)

theorem step_put (hfree : station.isBlocked = false) (hhand : station.worker.inHand? = none) :
    (history.put index hindex station).step rules (.work index) =
      some (history.put index hindex (station.step rules)) := by
  have hput : index < (history.pool.put index hindex station).workers.size := by rwa [size_put]
  have hseated := station_put hindex station hput
  have hmove := step_work hput rules (hseated.symm ▸ hfree)
  have hpublishes : (history.pool.put index hindex station).publishes rules (.work index) = none := by
    rw [publishes, dif_pos hput, hseated, Station.sends?_of_inHand? hhand]
    rfl
  rw [hseated, put_put] at hmove
  rw [step_eq hmove, put, hpublishes, extend, Option.toList_none, List.append_nil, put]
  exact congrArg some (congrArg (History.mk _ _) (List.append_nil _))

theorem run_put_of_isActive (hactive : station.worker.isActive = true)
    (hhand : station.worker.inHand? = none) :
    (history.put index hindex station).run rules index queues =
      (history.put index hindex (station.step rules)).run rules index queues := by
  refine run_of_step (by rw [getElem?_put, Option.any_some, hactive]) ?_
  rw [turn_of_inHand? queues (getElem?_put hindex station) hhand]
  exact step_put hindex (Station.isBlocked_of_isActive hactive) hhand

/-- A worker that has stopped only gives up what it holds. -/
theorem run_put_of_ending? {ending : Ending} (hended : station.worker.ending? = some ending) :
    (history.put index hindex station).run rules index queues =
      history.put index hindex (station.run rules) := by
  induction station using Station.run.induct rules with
  | case1 station hactive ih =>
      have hmoves : Station.Moves rules 0 station _ (station.step rules) :=
        Station.step_moves station (Station.isBlocked_of_isActive hactive)
      rw [run_put_of_isActive hindex hactive (Worker.inHand?_of_ending? hended),
        ih (hmoves.ending?_eq hended), Station.run_of_isActive hactive]
  | case2 station hinactive =>
      rw [Station.run, if_neg hinactive, run_of_not_isActive]
      rw [getElem?_put, Option.any_some]
      exact Bool.eq_false_iff.2 hinactive

/-- A worker whose call goes wrong is gone at the end of the resumption. -/
theorem run_of_mishap {ending : Ending} (hphase : history.pool.workers[index].phase = .evaluating)
    (hcall : (rules.predicate history.pool.workers[index].next).mishap? = some ending) :
    history.run rules index queues = history.put index hindex
      ⟨{ history.pool.workers[index] with phase := .stopped ending .outcome },
        history.pool.link.dropSender.dropTicket,
        if rules.failFast then history.pool.token.cancel .job else history.pool.token⟩ := by
  have hactive : history.pool.workers[index].isActive = true := by simp only [Worker.isActive, hphase]
  obtain ⟨between, hstep, -⟩ : ∃ between,
      (history.pool.station history.pool.workers[index]).step rules = _ ∧ _ :=
    Station.step_of_mishap hphase hcall
  calc
    history.run rules index queues
      = (history.put index hindex (history.pool.station history.pool.workers[index])).run rules
        index queues := by
      rw [put_station]
    _ = (history.put index hindex
          ((history.pool.station history.pool.workers[index]).step rules)).run rules index queues :=
      run_put_of_isActive hindex hactive (by simp only [Worker.inHand?, station, hphase])
    _ = history.put index hindex ((history.pool.station history.pool.workers[index]).run rules) := by
      rw [hstep, run_put_of_ending? hindex rfl, ← hstep, ← Station.run_of_isActive hactive]
    _ = _ := by rw [Pool.station, Station.run_of_mishap hphase hcall]

end Alone

theorem run_pool (hindex : index < history.pool.workers.size) : (history.run rules index false).pool =
    history.pool.put index hindex ((history.pool.station history.pool.workers[index]).run rules) := by
  generalize hstation : history.pool.station history.pool.workers[index] = station
  induction station using Station.run.induct rules generalizing history with
  | case1 station hactive ih =>
      have hworker : history.pool.workers[index].isActive = true := by
        rw [← hstation] at hactive
        exact hactive
      have hmove := Pool.step_work hindex rules (Station.isBlocked_of_isActive hworker)
      rw [hstation] at hmove
      have hput : index < (history.pool.put index hindex (station.step rules)).workers.size := by
        rwa [size_put]
      rw [run_of_step (by rw [Array.getElem?_eq_getElem hindex, Option.any_some, hworker])
        (step_eq hmove), ih hput (station_put hindex _ hput), Station.run_of_isActive hactive]
      exact put_put hindex _ _
  | case2 station hinactive =>
      have hworker : history.pool.workers[index].isActive = false := by
        rw [← hstation] at hinactive
        exact Bool.eq_false_iff.2 hinactive
      rw [run_of_not_isActive (by rw [Array.getElem?_eq_getElem hindex, Option.any_some, hworker]),
        Station.run, if_neg hinactive, ← hstation, Pool.put_station]

/-- A worker that does not queue is resumed as on a single thread. -/
theorem resume_pool (rules : Rules) (history : History) (index : Nat) :
    (history.resume rules index false).pool = history.pool.resumeWorker rules index := by
  have hturn : history.pool.turn index false = .work index := rfl
  by_cases hfree : ∃ hindex : index < history.pool.workers.size,
      (history.pool.station history.pool.workers[index]).isBlocked = false
  · obtain ⟨hindex, hfree⟩ := hfree
    have hput : index < (history.pool.put index hindex
        ((history.pool.station history.pool.workers[index]).step rules)).workers.size := by
          rwa [size_put]
    rw [resumeWorker_of_free hindex hfree, resume, hturn, step_eq (Pool.step_work hindex rules hfree)]
    refine (run_pool hput).trans ?_
    dsimp only [extend]
    rw [station_put, put_put, Station.resume]
  · have hblocked (hindex : index < history.pool.workers.size) :
        (history.pool.station history.pool.workers[index]).isBlocked = true := by
      by_contra hother
      exact hfree ⟨hindex, Bool.eq_false_iff.2 hother⟩
    rw [resumeWorker_eq_self rules hblocked, resume, hturn, step, step_work_eq_none rules hblocked]
    rfl

/-- A worker that was resumed is suspended or gone. -/
theorem not_isActive_resume {index : Nat} {worker : Worker}
    (hworker : (history.resume rules index false).pool.workers[index]? = some worker) :
    worker.isActive = false := by
  rw [resume_pool] at hworker
  by_cases hindex : index < history.pool.workers.size
  · obtain ⟨resumed, hresumed, hinactive⟩ := exists_resumed rules hindex
    rwa [← Option.some.inj (hresumed.symm.trans hworker)]
  · rw [resumeWorker_eq_self rules fun h => absurd h hindex, Array.getElem?_eq_none
      (Nat.not_lt.1 hindex)] at hworker
    cases hworker

/-- What may happen next to a job whose workers are resumed one at a time. -/
inductive Act where
  | resume (worker : Nat) (queues : Bool)
  /-- Somebody else makes a move: the closer, whoever joins or cancels, or the drain. -/
  | other (event : Event) (hother : event.worker? = none)

/-- The history after one more act, if it can happen. -/
def perform (rules : Rules) (history : History) : Act → Option History
  | .resume index queues => some (history.resume rules index queues)
  | .other event _ => history.step rules event

/-- The history after the acts, if they can happen one after another. -/
def performAll (rules : Rules) (history : History) (acts : List Act) : Option History :=
  acts.foldlM (perform rules) history

end History

end Pool

end ParallelFilter
