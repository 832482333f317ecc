import ParallelFilter.Proofs.Resumption
import Mathlib.Data.List.Forall2

/-! A failure and a panic are the same event up to the text of the fault. Two jobs begin alike, and
their predicates differ only in that the one fails where the other panics. However their workers are
resumed and whatever else happens, the jobs stay alike: a worker that goes wrong in the one has gone
wrong in the other on the same value, and gives up the same things. Without fail-fast this holds of
every single move. Under fail-fast a failure cancels the job before the worker gives up what it
holds, and a panic after that, so the jobs are compared when the worker is gone. -/

namespace ParallelFilter

/-- Rules of two jobs that are alike but for values on which the one predicate fails and the other
panics. -/
structure Rules.Counterpart (failing panicking : Rules) : Prop where
  predicate : ∀ value, failing.predicate value = panicking.predicate value ∨
    ∃ reason payload, failing.predicate value = .failed reason ∧
      panicking.predicate value = .panicked payload
  yieldInterval : failing.yieldInterval = panicking.yieldInterval
  failFast : failing.failFast = panicking.failFast

/-- The same fault, or that of a failure after so many decided values in place of that of a panic,
which names no value. -/
structure Fault.Alike (evaluated : Nat) (left right : Fault) : Prop where
  worker : left.worker = right.worker
  range : left.range = right.range
  value : left = right ∨ left.value = some (left.range.start + evaluated) ∧ right.value = none

theorem Fault.alike_refl (evaluated : Nat) (fault? : Option Fault) :
    Option.Rel (Alike evaluated) fault? fault? := by
  cases fault? with
  | none => exact .none
  | some fault => exact .some ⟨rfl, rfl, .inl rfl⟩

structure WorkerOutcome.Alike (left right : WorkerOutcome) : Prop where
  summary : left.summary = right.summary
  fault : Option.Rel (Fault.Alike left.summary.evaluated) left.fault right.fault

namespace WorkerOutcome

variable {outcomes others : List WorkerOutcome} (h : List.Forall₂ Alike outcomes others)

include h

theorem summaries_eq : outcomes.map (·.summary) = others.map (·.summary) := by
  rw [← List.forall₂_eq_eq_eq, List.forall₂_map_left_iff, List.forall₂_map_right_iff]
  exact h.imp fun _ _ halike => halike.summary

theorem faults_alike : List.Forall₂ (fun fault other => ∃ evaluated, Fault.Alike evaluated fault other)
    (outcomes.filterMap (·.fault)) (others.filterMap (·.fault)) := by
  refine List.rel_filterMap (fun outcome other halike => ?_) h
  exact optionRel_imp (fun _ _ hfault => ⟨_, hfault⟩) halike.fault

end WorkerOutcome

namespace Worker

/-- What is to be seen of a worker is the same in both jobs, up to the text of its fault. -/
structure Alike (left right : Worker) : Prop where
  id : left.id = right.id
  range : left.range = right.range
  evaluated : left.evaluated = right.evaluated
  accepted : left.accepted = right.accepted
  report : left.report? = right.report?
  inHand : left.inHand? = right.inHand?
  sender : left.holdsSender = right.holdsSender
  ticket : left.holdsTicket = right.holdsTicket
  fault : Option.Rel (Fault.Alike left.evaluated) left.fault? right.fault?

/-- The same worker in both jobs, or one that has failed in the one and panicked in the other. In a
job that fails fast it is gone by then. -/
inductive Twins (failFast : Bool) : Worker → Worker → Prop where
  | same {worker : Worker} : Twins failFast worker worker
  | mishap (worker : Worker) (reason : String) (payload : PanicPayload) (remains : Remains)
      (hgone : failFast = true → remains = .outcome ∨ remains = .nothing) :
      Twins failFast { worker with phase := .stopped (.failed reason) remains }
        { worker with phase := .stopped (.panicked payload) remains }

namespace Twins

variable {failFast : Bool} {left right : Worker}

theorem alike (h : left.Twins failFast right) : left.Alike right := by
  cases h with
  | same => exact ⟨rfl, rfl, rfl, rfl, rfl, rfl, rfl, rfl, Fault.alike_refl _ _⟩
  | mishap _ _ _ remains _ =>
      refine ⟨rfl, rfl, rfl, rfl, rfl, rfl, ?_, ?_, .some ⟨rfl, rfl, .inr ⟨rfl, rfl⟩⟩⟩
      · cases remains <;> rfl
      · cases remains <;> rfl

/-- The two are at the same point. -/
theorem stage_eq (h : left.Twins failFast right) : left.isActive = right.isActive ∧
    left.isWaiting = right.isWaiting ∧ left.isJoined = right.isJoined := by
  cases h with
  | same => exact ⟨rfl, rfl, rfl⟩
  | mishap _ _ _ remains _ => cases remains <;> exact ⟨rfl, rfl, rfl⟩

theorem isBlocked_eq (h : left.Twins failFast right) (link : ResultChannel) (token : Token) :
    Station.isBlocked ⟨left, link, token⟩ = Station.isBlocked ⟨right, link, token⟩ := by
  cases h with
  | same => rfl
  | mishap _ _ _ remains _ => cases remains <;> rfl

/-- A worker that goes on in a job that fails fast is the same in both. -/
theorem eq_of_isActive (h : left.Twins failFast right) (hfailFast : failFast = true)
    (hactive : left.isActive = true) : left = right := by
  cases h with
  | same => rfl
  | mishap _ _ _ _ hgone => rcases hgone hfailFast with rfl | rfl <;> cases hactive

/-- They are joined alike. -/
theorem join?_rel (h : left.Twins failFast right) : Option.Rel
    (fun joined other => WorkerOutcome.Alike joined.1 other.1 ∧
      Twins failFast joined.2 other.2) left.join?
      right.join? := by
  cases h with
  | same =>
      cases left.join? with
      | none => exact .none
      | some joined => exact .some ⟨⟨rfl, Fault.alike_refl _ _⟩, .same⟩
  | mishap worker _ _ remains _ =>
      cases remains with
      | outcome =>
          exact .some ⟨⟨rfl, .some ⟨rfl, rfl, .inr ⟨rfl, rfl⟩⟩⟩, .mishap worker _ _ _ fun _ => .inr rfl⟩
      | sender | ticket | alarm | nothing => exact .none

end Twins

end Worker

namespace Station

/-- Workers that are twins, in the same surroundings. -/
structure Twins (failFast : Bool) (left right : Station) : Prop where
  worker : left.worker.Twins failFast right.worker
  link : left.link = right.link
  token : left.token = right.token

variable {rules others failing panicking : Rules} {left right : Station}

/-- A move goes by the predicate only when it calls it. -/
theorem step_congr (hinterval : rules.yieldInterval = others.yieldInterval)
    (hfailFast : rules.failFast = others.failFast) {station : Station}
    (hcall : station.worker.phase = .evaluating →
      rules.predicate station.worker.next = others.predicate station.worker.next) :
    station.step rules = station.step others := by
  have hafter (evaluated : Nat) : afterValue rules evaluated = afterValue others evaluated := by
    rw [afterValue, afterValue, hinterval]
  have hsend (value : Nat) (blocked : Station → Station) :
      station.send rules value blocked = station.send others value blocked := by
    obtain ⟨worker, ⟨channel, barrier, received, finished⟩, token⟩ := station
    simp only [send, hafter]
  have hleft (ending : Ending) : ending.afterTicket rules = ending.afterTicket others := by
    simp only [Ending.afterTicket, hfailFast]
  cases hphase : station.worker.phase with
  | evaluating =>
      obtain ⟨worker, link, token⟩ := station
      dsimp only at hphase hcall
      simp only [step, hphase, evaluate, hcall hphase, hfailFast, hafter]
  | offering value | waiting value => simp only [step, hphase, hsend]
  | ready | yielding => simp only [step, hphase]
  | stopped ending remains => cases remains <;> simp only [step, hphase, hleft]

section Step

variable (hcounter : failing.Counterpart panicking) (h : left.Twins failing.failFast right)
  (hcall : failing.failFast = true → left.worker.phase = .evaluating →
    failing.predicate left.worker.next = panicking.predicate left.worker.next)

include hcounter h hcall

/-- Twins make the same move. -/
theorem Twins.step : (left.step failing).Twins failing.failFast (right.step panicking) := by
  obtain ⟨worker, link, token⟩ := left
  obtain ⟨other, _, _⟩ := right
  obtain ⟨hworker, rfl, rfl⟩ := h
  dsimp only at hworker
  cases hworker with
  | same =>
      by_cases hsame : worker.phase = .evaluating →
          failing.predicate worker.next = panicking.predicate worker.next
      · rw [step_congr hcounter.yieldInterval hcounter.failFast hsame]
        exact ⟨.same, rfl, rfl⟩
      · -- the call goes wrong in two ways, and the job does not fail fast
        rw [Classical.not_imp] at hsame
        obtain ⟨hphase, hdiffers⟩ := hsame
        have hslow : failing.failFast = false :=
          Bool.eq_false_iff.2 fun hfast => hdiffers (hcall hfast hphase)
        obtain ⟨reason, payload, hfails, hpanics⟩ :=
          (hcounter.predicate worker.next).resolve_left hdiffers
        have hleft : step failing ⟨worker, link, token⟩ =
            ⟨{ worker with phase := .stopped (.failed reason) .sender }, link, token⟩ := by
          simp only [step, hphase, evaluate, hfails, hslow, stop, Bool.false_eq_true, if_false]
        have hright : step panicking ⟨worker, link, token⟩ =
            ⟨{ worker with phase := .stopped (.panicked payload) .sender }, link, token⟩ := by
          simp only [step, hphase, evaluate, hpanics, stop]
        rw [hleft, hright]
        exact ⟨.mishap worker reason payload .sender fun hfast => absurd (hslow.symm.trans hfast)
          (by decide), rfl, rfl⟩
  | mishap worker reason payload remains hgone =>
      have hearly (hfirst : remains ≠ .outcome) (hsecond : remains ≠ .nothing) :
          failing.failFast = false :=
        Bool.eq_false_iff.2 fun hfast => (hgone hfast).elim hfirst hsecond
      cases remains with
      | outcome | nothing => exact ⟨.mishap worker reason payload _ hgone, rfl, rfl⟩
      | sender =>
          have hslow := hearly (by decide) (by decide)
          exact ⟨.mishap worker reason payload .ticket fun hfast => absurd (hslow.symm.trans hfast)
            (by decide), rfl, rfl⟩
      | ticket =>
          have hleft : (Ending.panicked payload).afterTicket panicking = .outcome := by
            rw [Ending.afterTicket, ← hcounter.failFast, hearly (by decide) (by decide)]
            rfl
          simp only [step, hleft]
          exact ⟨.mishap worker reason payload .outcome fun _ => .inl rfl, rfl, rfl⟩
      | alarm => exact ⟨.mishap worker reason payload .outcome fun _ => .inl rfl, rfl, rfl⟩

theorem Twins.sends?_eq : left.sends? failing = right.sends? panicking := by
  rw [sends?, sends?, h.worker.alike.accepted, h.worker.alike.inHand,
    (h.step hcounter hcall).worker.alike.accepted]

end Step

end Station

namespace Pool

/-- Jobs whose workers are twins and that are the same in all else. -/
structure Twins (failFast : Bool) (left right : Pool) : Prop where
  workers : Pointwise (Worker.Twins failFast) left.workers right.workers
  link : left.link = right.link
  token : left.token = right.token
  closer : left.closer = right.closer
  outcomes : List.Forall₂ WorkerOutcome.Alike left.outcomes.toList right.outcomes.toList

/-- With the event a worker of a job that fails fast makes a call that goes wrong in two ways. -/
def Parts (failing panicking : Rules) (pool : Pool) (event : Event) : Prop :=
  failing.failFast = true ∧ ∃ (index : Nat) (hindex : index < pool.workers.size), event = .work index ∧
    pool.workers[index].phase = .evaluating ∧
      failing.predicate pool.workers[index].next ≠ panicking.predicate pool.workers[index].next

namespace Twins

variable {failFast : Bool} {failing panicking : Rules} {left right : Pool} {event : Event} {index : Nat}

theorem refl (pool : Pool) : pool.Twins failFast pool where
  workers := ⟨rfl, fun _ _ _ => .same⟩
  link := rfl
  token := rfl
  closer := rfl
  outcomes := List.forall₂_same.2 fun _ _ => ⟨rfl, Fault.alike_refl _ _⟩

theorem station (h : left.Twins failFast right) (hindex : index < left.workers.size)
    (hother : index < right.workers.size) :
    (left.station left.workers[index]).Twins failFast (right.station right.workers[index]) :=
  ⟨h.workers.getElem index hindex hother, h.link, h.token⟩

theorem put (h : left.Twins failFast right) (hindex : index < left.workers.size)
    (hother : index < right.workers.size) {station counterpart : Station}
    (hstation : station.Twins failFast counterpart) :
    (left.put index hindex station).Twins failFast (right.put index hother counterpart) where
  workers := h.workers.set hindex hother hstation.worker
  link := hstation.link
  token := hstation.token
  closer := h.closer
  outcomes := h.outcomes

theorem isBlocked_eq (h : left.Twins failFast right) (hindex : index < left.workers.size)
    (hother : index < right.workers.size) :
    (left.station left.workers[index]).isBlocked = (right.station right.workers[index]).isBlocked := by
  rw [Pool.station, Pool.station, h.link, h.token]
  exact (h.workers.getElem index hindex hother).isBlocked_eq _ _

theorem waiting_eq (h : left.Twins failFast right) : left.waiting = right.waiting := by
  have hwaiting : left.workers.map Worker.isWaiting = right.workers.map Worker.isWaiting :=
    h.workers.map_eq fun _ _ htwins => htwins.stage_eq.2.1
  have hcount (workers : Array Worker) : workers.countP Worker.isWaiting =
      (workers.map Worker.isWaiting).countP id := by
    rw [Array.countP_map]
    rfl
  rw [waiting, waiting, hcount, hcount, hwaiting]

theorem mustQueue_eq (h : left.Twins failFast right) (worker : Worker) :
    left.mustQueue worker = right.mustQueue worker := by
  rw [mustQueue, mustQueue, h.waiting_eq, h.link]

theorem moveCloser (h : left.Twins failFast right) :
    left.moveCloser.Twins failFast right.moveCloser := by
  obtain ⟨workers, link, token, closer, outcomes⟩ := left
  obtain ⟨others, _, _, _, collected⟩ := right
  obtain ⟨hworkers, rfl, rfl, rfl, houtcomes⟩ := h
  simp only [Pool.moveCloser]
  split
  · exact ⟨hworkers, rfl, rfl, rfl, houtcomes⟩
  · split <;> exact ⟨hworkers, rfl, rfl, rfl, houtcomes⟩

theorem step_queue (h : left.Twins failFast right) (index : Nat) :
    Option.Rel (Twins failFast) (left.step failing (.queue index))
      (right.step panicking (.queue index)) := by
  by_cases hindex : index < left.workers.size
  · have hother : index < right.workers.size := h.workers.size_eq ▸ hindex
    have htwins := h.workers.getElem index hindex hother
    simp only [step, dif_pos hindex, dif_pos hother, h.mustQueue_eq]
    generalize left.workers[index] = worker, right.workers[index] = other at htwins ⊢
    cases htwins with
    | same =>
        split
        · rw [Pool.station, Pool.station, h.link, h.token]
          exact .some ⟨h.workers.set hindex hother .same, rfl, rfl, h.closer, h.outcomes⟩
        · exact .none
    | mishap _ _ _ _ _ => exact .none
  · have hother : ¬index < right.workers.size := h.workers.size_eq ▸ hindex
    simp only [step, dif_neg hindex, dif_neg hother]
    exact .none

theorem step_join (h : left.Twins failFast right) (index : Nat) :
    Option.Rel (Twins failFast) (left.step failing (.join index))
      (right.step panicking (.join index)) := by
  by_cases hindex : index < left.workers.size
  · have hother : index < right.workers.size := h.workers.size_eq ▸ hindex
    have hjoins := (h.workers.getElem index hindex hother).join?_rel
    obtain ⟨workers, link, token, closer, outcomes⟩ := left
    obtain ⟨others, _, _, _, collected⟩ := right
    obtain ⟨hworkers, rfl, rfl, rfl, houtcomes⟩ := h
    dsimp only at hindex hother hjoins
    simp only [step, joinWorker, Array.getElem?_eq_getElem hindex, Array.getElem?_eq_getElem hother,
      Option.bind_some, dif_pos hindex, dif_pos hother]
    generalize workers[index].join? = joined?, others[index].join? = other? at hjoins ⊢
    cases hjoins with
    | none => exact .none
    | some hjoined =>
        refine .some ⟨hworkers.set hindex hother hjoined.2, rfl, rfl, rfl, ?_⟩
        rw [Array.toList_push, Array.toList_push]
        exact List.rel_append houtcomes (.cons hjoined.1 .nil)
  · have hother : ¬index < right.workers.size := h.workers.size_eq ▸ hindex
    simp only [step, Array.getElem?_eq_none (Nat.not_lt.1 hindex), Array.getElem?_eq_none
      (Nat.not_lt.1 hother), Option.bind_none, Option.isSome_none, Bool.false_eq_true, if_false]
    exact .none

section Step

variable (hcounter : failing.Counterpart panicking) (h : left.Twins failing.failFast right)

include hcounter h

theorem step_work (hparts : ¬left.Parts failing panicking (.work index)) :
    Option.Rel (Twins failing.failFast)
    (left.step failing (.work index)) (right.step panicking (.work index)) := by
  by_cases hfree : ∃ hindex : index < left.workers.size,
    (left.station left.workers[index]).isBlocked = false
  · obtain ⟨hindex, hfree⟩ := hfree
    have hother : index < right.workers.size := h.workers.size_eq ▸ hindex
    rw [Pool.step_work hindex failing hfree,
      Pool.step_work hother panicking ((h.isBlocked_eq hindex hother).symm.trans hfree)]
    refine .some (h.put hindex hother (Station.Twins.step hcounter (h.station hindex hother)
      fun hfast hphase => ?_))
    by_contra hdiffers
    exact hparts ⟨hfast, index, hindex, rfl, hphase, hdiffers⟩
  · have hblocked (hindex : index < left.workers.size) :
        (left.station left.workers[index]).isBlocked = true := by
      by_contra hother
      exact hfree ⟨hindex, Bool.eq_false_iff.2 hother⟩
    rw [step_work_eq_none failing hblocked, step_work_eq_none panicking fun hother => ?_]
    · exact .none
    · have hindex : index < left.workers.size := h.workers.size_eq ▸ hother
      exact (h.isBlocked_eq hindex hother).symm.trans (hblocked hindex)

/-- What can happen in the one job can happen in the other, and leaves them alike. -/
theorem step (hparts : ¬left.Parts failing panicking event) : Option.Rel (Twins failing.failFast)
    (left.step failing event) (right.step panicking event) := by
  cases event with
  | work index => exact step_work hcounter h hparts
  | queue index => exact h.step_queue index
  | join index => exact h.step_join index
  | close =>
      rw [Pool.step, Pool.step, h.closer, h.link]
      split
      · exact .none
      · exact .some h.moveCloser
  | receive =>
      rw [Pool.step, Pool.step, h.link]
      split
      · split
        · exact .none
        · exact .some ⟨h.workers, rfl, h.token, h.closer, h.outcomes⟩
      · exact .none
  | dropDrain =>
      rw [Pool.step, Pool.step, h.link]
      split
      · exact .some ⟨h.workers, rfl, h.token, h.closer, h.outcomes⟩
      · exact .none
  | cancel scope =>
      rw [Pool.step, Pool.step, h.token]
      split
      · exact .none
      · exact .some ⟨h.workers, h.link, rfl, h.closer, h.outcomes⟩

theorem publishes_eq (hparts : ¬left.Parts failing panicking event) :
    left.publishes failing event = right.publishes panicking event := by
  cases event with
  | work index =>
      by_cases hindex : index < left.workers.size
      · have hother : index < right.workers.size := h.workers.size_eq ▸ hindex
        rw [publishes, publishes, dif_pos hindex, dif_pos hother,
          Station.Twins.sends?_eq hcounter (h.station hindex hother) fun hfast hphase => ?_]
        by_contra hdiffers
        exact hparts ⟨hfast, index, hindex, rfl, hphase, hdiffers⟩
      · have hother : ¬index < right.workers.size := h.workers.size_eq ▸ hindex
        rw [publishes, publishes, dif_neg hindex, dif_neg hother]
  | queue _ | close | join _ | receive | dropDrain | cancel _ => rfl

end Step

theorem answers_eq (h : left.Twins failFast right) (event : Event) :
    left.answers event = right.answers event := by
  cases event with
  | receive => rw [answers, answers, h.link]
  | work _ | queue _ | close | join _ | dropDrain | cancel _ => rfl

theorem any_isActive_eq (h : left.Twins failFast right) (index : Nat) :
    left.workers[index]?.any Worker.isActive = right.workers[index]?.any Worker.isActive := by
  have hplace := h.workers.getElem? index
  generalize left.workers[index]? = worker?, right.workers[index]? = other? at hplace ⊢
  cases hplace with
  | none => rfl
  | some htwins => exact htwins.stage_eq.1

theorem turn_eq (h : left.Twins failFast right) (index : Nat) (queues : Bool) :
    left.turn index queues = right.turn index queues := by
  have hmust : left.workers[index]?.any left.mustQueue = right.workers[index]?.any right.mustQueue := by
    have hplace := h.workers.getElem? index
    generalize left.workers[index]? = worker?, right.workers[index]? = other? at hplace ⊢
    cases hplace with
    | none => rfl
    | some htwins =>
        rw [Option.any_some, Option.any_some, h.mustQueue_eq]
        cases htwins with
        | same => rfl
        | mishap _ _ _ _ _ => rfl
  rw [turn, turn, hmust]

end Twins

/-- Nothing parts the jobs where they do not fail fast. -/
theorem not_parts {failing panicking : Rules} {pool : Pool} {event : Event}
    (hslow : failing.failFast = false) :
    ¬pool.Parts failing panicking event :=
  fun hparts => absurd (hslow.symm.trans hparts.1) (by decide)

namespace History

/-- Histories of twin jobs that have published and answered the same. -/
structure Twins (failFast : Bool) (left right : History) : Prop where
  pool : left.pool.Twins failFast right.pool
  published : left.published = right.published
  answers : left.answers = right.answers

variable {failing panicking : Rules} {left right : History} {event : Event} {index : Nat}
  {queues : Bool}

section Run

variable (hcounter : failing.Counterpart panicking) (h : left.Twins failing.failFast right)

include hcounter h

theorem Twins.step (hparts : ¬left.pool.Parts failing panicking event) :
    Option.Rel (Twins failing.failFast)
    (left.step failing event) (right.step panicking event) := by
  have hpool := h.pool.step hcounter hparts
  rw [History.step, History.step, h.pool.publishes_eq hcounter hparts, h.pool.answers_eq,
    h.published, h.answers]
  generalize left.pool.step failing event = next?, right.pool.step panicking event = other? at hpool ⊢
  cases hpool with
  | none => exact .none
  | some hpool => exact .some ⟨hpool, rfl, rfl⟩

/-- Where a call goes wrong in two ways, the jobs are alike again at the end of the resumption. -/
theorem Twins.run_of_parts (hparts : left.pool.Parts failing panicking (left.pool.turn index queues)) :
    (left.run failing index queues).Twins failing.failFast (right.run panicking index queues) := by
  obtain ⟨hfast, other, hindex, hevent, hphase, hdiffers⟩ := hparts
  have hsame := worker?_turn left.pool index queues
  rw [hevent] at hsame
  obtain rfl : other = index := Option.some.inj hsame
  have hother : other < right.pool.workers.size := h.pool.workers.size_eq ▸ hindex
  have hworker : left.pool.workers[other] = right.pool.workers[other] :=
    (h.pool.workers.getElem other hindex hother).eq_of_isActive hfast
      (by simp only [Worker.isActive, hphase])
  obtain ⟨reason, payload, hfails, hpanics⟩ := (hcounter.predicate _).resolve_left hdiffers
  have hfailed : (failing.predicate left.pool.workers[other].next).mishap? = some (.failed reason) := by
    rw [hfails]
    rfl
  have hpanicked : (panicking.predicate right.pool.workers[other].next).mishap? =
      some (.panicked payload) := by
    rw [← hworker, hpanics]
    rfl
  rw [run_of_mishap hindex hphase hfailed, run_of_mishap hother (hworker ▸ hphase) hpanicked]
  refine ⟨h.pool.put hindex hother ⟨?_, ?_, ?_⟩, h.published, h.answers⟩
  · rw [← hworker]
    exact .mishap _ reason payload .outcome fun _ => .inl rfl
  · rw [h.pool.link]
  · rw [h.pool.token, hcounter.failFast]

/-- By the end of a resumption the jobs are alike, under fail-fast as well. -/
theorem Twins.run :
    (left.run failing index queues).Twins failing.failFast (right.run panicking index queues) := by
  induction left using History.run.induct failing index queues generalizing right with
  | case1 left hactive next hstep ih =>
      by_cases hparts : left.pool.Parts failing panicking (left.pool.turn index queues)
      · exact h.run_of_parts hcounter hparts
      · have hnext := h.step hcounter hparts
        rw [hstep] at hnext
        generalize hother : right.step panicking (left.pool.turn index queues) = other? at hnext
        cases hnext with
        | some hnext =>
            have hleft := run_of_step hactive hstep
            rw [h.pool.any_isActive_eq] at hactive
            rw [h.pool.turn_eq] at hother
            rw [hleft, run_of_step hactive hother]
            exact ih hnext
  | case2 left hactive hstep =>
      by_cases hparts : left.pool.Parts failing panicking (left.pool.turn index queues)
      · exact h.run_of_parts hcounter hparts
      · have hnext := h.step hcounter hparts
        rw [hstep] at hnext
        generalize hother : right.step panicking (left.pool.turn index queues) = other? at hnext
        cases hnext with
        | none =>
            rw [h.pool.turn_eq] at hother
            rw [run_of_step_eq_none hstep, run_of_step_eq_none hother]
            exact h
  | case3 left hinactive =>
      have hstays := Bool.eq_false_iff.2 hinactive
      rw [run_of_not_isActive hstays, run_of_not_isActive (h.pool.any_isActive_eq index ▸ hstays)]
      exact h

theorem Twins.resume :
    (left.resume failing index queues).Twins failing.failFast
      (right.resume panicking index queues) := by
  by_cases hactive : left.pool.workers[index]?.any Worker.isActive = true
  · rw [resume_of_isActive hactive, resume_of_isActive (h.pool.any_isActive_eq index ▸ hactive)]
    exact h.run hcounter
  · have hparts : ¬left.pool.Parts failing panicking (left.pool.turn index queues) := by
      rintro ⟨-, other, hindex, hevent, hphase, -⟩
      have hsame := worker?_turn left.pool index queues
      rw [hevent] at hsame
      obtain rfl : other = index := Option.some.inj hsame
      apply hactive
      rw [Array.getElem?_eq_getElem hindex, Option.any_some]
      simp only [Worker.isActive, hphase]
    have hnext := h.step hcounter hparts
    rw [History.resume, History.resume, ← h.pool.turn_eq]
    generalize left.step failing (left.pool.turn index queues) = next?,
      right.step panicking (left.pool.turn index queues) = other? at hnext ⊢
    cases hnext with
    | none => exact h
    | some hnext => exact hnext.run hcounter

theorem Twins.perform (act : Act) :
    Option.Rel (Twins failing.failFast) (left.perform failing act) (right.perform panicking act) := by
  cases act with
  | resume index queues => exact .some (h.resume hcounter)
  | other event hother =>
      apply h.step hcounter
      rintro ⟨-, index, -, rfl, -⟩
      cases hother

end Run

/-- What is to be seen of two jobs is the same, up to the texts of their faults. -/
structure Alike (left right : History) : Prop where
  workers : ∀ index : Nat, Option.Rel Worker.Alike left.pool.workers[index]? right.pool.workers[index]?
  published : left.published = right.published
  answers : left.answers = right.answers
  token : left.pool.token = right.pool.token
  /-- The channel with what is buffered in it, the senders and tickets that are held, and the drain. -/
  link : left.pool.link = right.pool.link
  closer : left.pool.closer = right.pool.closer
  reports : left.pool.report.workers = right.pool.report.workers
  faults : List.Forall₂ (fun fault other => ∃ evaluated, fault.Alike evaluated other)
    left.pool.report.faults
    right.pool.report.faults
  finished : left.pool.result?.isSome = right.pool.result?.isSome

theorem Twins.alike {failFast : Bool} (h : left.Twins failFast right) : left.Alike right where
  workers index := optionRel_imp (fun _ _ htwins => htwins.alike) (h.pool.workers.getElem? index)
  published := h.published
  answers := h.answers
  token := h.pool.token
  link := h.pool.link
  closer := h.pool.closer
  reports := by
    rw [Pool.report, Pool.report, Report.ofOutcomes, Report.ofOutcomes,
      WorkerOutcome.summaries_eq h.pool.outcomes]
  faults := WorkerOutcome.faults_alike h.pool.outcomes
  finished := by
    have hjoined : left.pool.workers.map Worker.isJoined = right.pool.workers.map Worker.isJoined :=
      h.pool.workers.map_eq fun _ _ htwins => htwins.stage_eq.2.2
    have hall (workers : Array Worker) :
        workers.all Worker.isJoined = (workers.map Worker.isJoined).all id := by
      rw [Array.all_map]
      rfl
    rw [result?, result?, hall, hjoined, ← hall, h.pool.link, h.pool.closer]
    split
    · split
      · split <;> rfl
      · rfl
    · rfl

/-- **A failure and a panic are the same event but for the text of the fault.** Two jobs begin alike
and go by predicates of which the one fails where the other panics. Under every schedule of
resumptions and of what others do, whatever can happen in the one can happen in the other and leaves
both alike: every worker has the same counts and the same report and holds the same things, the same
was published, answered and cancelled, and the same workers have faults, of which only those of the
failures name a value. Without fail-fast, so does every single move. -/
theorem failure_panic_alike (pool : Pool) {failing panicking : Rules}
    (hcounter : failing.Counterpart panicking) :
    (∀ acts, Option.Rel Alike ((ofPool pool).performAll failing acts)
      ((ofPool pool).performAll panicking acts)) ∧ (failing.failFast = false → ∀ events,
        Option.Rel Alike ((ofPool pool).follow failing events)
          ((ofPool pool).follow panicking events)) := by
  have hfresh : (ofPool pool).Twins failing.failFast (ofPool pool) := ⟨.refl pool, rfl, rfl⟩
  constructor
  · intro acts
    apply optionRel_imp fun _ _ htwins => Twins.alike htwins
    exact foldlM_rel (fun _ _ act h => Twins.perform hcounter h act) hfresh
  · intro hslow events
    apply optionRel_imp fun _ _ htwins => Twins.alike htwins
    exact foldlM_rel (fun _ _ event h => Twins.step hcounter h (not_parts hslow)) hfresh

/-- A job that fails fast, whose predicate goes wrong on 1 and accepts the rest. -/
def goingWrongAtOne (outcome : Outcome) : Rules where
  predicate value := if value = 1 then outcome else .decided true none
  yieldInterval := 2
  yieldInterval_pos := Nat.two_pos
  failFast := true

/-- One worker sends 0 and goes wrong on 1, and the other is cancelled before it begins. -/
theorem failure_panic_alike_fail_fast : ∃ pool failed panicked,
    Pool.start [⟨0, 3, by decide⟩, ⟨5, 7, by decide⟩] ⟨.ofCapacity 2 1, .ofExpected 2, 0, false⟩
      {} = .ok pool ∧
    (ofPool pool).performAll (goingWrongAtOne (.failed "one"))
      [.resume 0 true, .other .receive rfl, .resume 1 true, .other (.join 0) rfl] = some failed ∧
    (ofPool pool).performAll (goingWrongAtOne (.panicked .other))
      [.resume 0 true, .other .receive rfl, .resume 1 true, .other (.join 0) rfl] = some panicked ∧
    failed.pool.report.faults = [⟨0, ⟨0, 3, by decide⟩, some 1, "one"⟩] ∧
    panicked.pool.report.faults = [⟨0, ⟨0, 3, by decide⟩, none, "panicked: unknown panic payload"⟩] ∧
    failed.Alike panicked := by
  have hstart : Pool.start [Span.mk 0 3, Span.mk 5 7] ⟨.ofCapacity 2 1, .ofExpected 2, 0, false⟩ {} =
      .ok ⟨#[.ofRange 0 (Span.mk 0 3), .ofRange 1 (Span.mk 5 7)],
        ⟨.ofCapacity 2 3, .ofExpected 2, 0, false⟩, {}, .fresh, #[]⟩ := rfl
  have hcounter : (goingWrongAtOne (.failed "one")).Counterpart
      (goingWrongAtOne (.panicked .other)) := by
    refine ⟨fun value => ?_, rfl, rfl⟩
    by_cases hone : value = 1
    · exact .inr ⟨"one", .other, if_pos hone, if_pos hone⟩
    · exact .inl ((if_neg hone).trans (if_neg hone).symm)
  have hfails : ((ofPool ⟨#[.ofRange 0 (Span.mk 0 3), .ofRange 1 (Span.mk 5 7)],
        ⟨.ofCapacity 2 3, .ofExpected 2, 0, false⟩, {}, .fresh, #[]⟩).performAll
          (goingWrongAtOne (.failed "one"))
        [.resume 0 true, .other .receive rfl, .resume 1 true, .other (.join 0) rfl]).any
      (fun failed => failed.pool.report.faults == [⟨0, Span.mk 0 3, some 1, "one"⟩]) = true := by
    decide +kernel
  have hpanics : ((ofPool ⟨#[.ofRange 0 (Span.mk 0 3), .ofRange 1 (Span.mk 5 7)],
        ⟨.ofCapacity 2 3, .ofExpected 2, 0, false⟩, {}, .fresh, #[]⟩).performAll
          (goingWrongAtOne (.panicked .other))
        [.resume 0 true, .other .receive rfl, .resume 1 true, .other (.join 0) rfl]).any
      (fun panicked => panicked.pool.report.faults ==
        [⟨0, Span.mk 0 3, none, "panicked: unknown panic payload"⟩]) = true := by
    decide +kernel
  obtain ⟨failed, hfailed, hfault⟩ := (Option.any_eq_true _ _).1 hfails
  obtain ⟨panicked, hpanicked, hother⟩ := (Option.any_eq_true _ _).1 hpanics
  have halike : Option.Rel Alike (some failed) (some panicked) := by
    rw [← hfailed, ← hpanicked]
    exact (failure_panic_alike _ hcounter).1 _
  cases halike with
  | some halike =>
      exact ⟨_, failed, panicked, hstart, hfailed, hpanicked, beq_iff_eq.1 hfault,
        beq_iff_eq.1 hother, halike⟩

end History

end Pool

end ParallelFilter
