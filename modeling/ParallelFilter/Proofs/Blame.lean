import ParallelFilter.Proofs.Books

/-! Who is to blame for a cancellation. A worker that reports itself cancelled has seen the token
cancelled. And where nobody outside cancels the job and the predicate does not either, the token is
cancelled only on account of a worker that ran into a fault. -/

namespace ParallelFilter

namespace Ending

/-- Whether the worker ran into a fault. -/
def isFault : Ending → Bool
  | .failed _ | .panicked _ => true
  | .completed | .cancelled | .disconnected => false

theorem isFault_of_afterTicket {rules : Rules} {ending : Ending}
    (h : ending.afterTicket rules = .alarm) :
    ending.isFault = true := by
  cases ending with
  | failed _ | panicked _ => rfl
  | completed | cancelled | disconnected => cases h

end Ending

namespace Worker

/-- Whether the worker has stopped with a fault. -/
def hasFaulted (worker : Worker) : Bool :=
  worker.ending?.any Ending.isFault

theorem hasFaulted_iff {worker : Worker} :
    worker.hasFaulted = true ↔ ∃ ending, worker.ending? = some ending ∧ ending.isFault = true := by
  rw [hasFaulted, Option.any_eq_true]

theorem isSome_fault? (worker : Worker) : worker.fault?.isSome = worker.hasFaulted := by
  unfold fault? hasFaulted
  cases worker.ending? with
  | none => rfl
  | some ending => cases ending <;> rfl

end Worker

namespace Station.Moves

variable {rules : Rules} {kept : Nat} {before after : Station} {sent : Option Nat}

/-- A worker stops once, and for one reason. -/
theorem ending?_eq (h : Moves rules kept before sent after) {ending : Ending}
    (hending : before.worker.ending? = some ending) : after.worker.ending? = some ending := by
  cases h with
  | enter hphase _ _ | complete hphase _ | quit hphase _ _ | fail _ hphase _ | panic _ hphase _
  | reject _ hphase _ | accept _ hphase _ | suspend _ hphase _ _ _ | goOn hphase =>
      simp only [Worker.ending?, hphase] at hending
      cases hending
  | send _ hvalue _ _ _ | disconnect _ hvalue _ _ | giveUp _ hvalue _ _ =>
      rw [Worker.ending?_of_inHand? hvalue] at hending
      cases hending
  | dropSender _ hphase | dropTicket _ hphase | alarm _ hphase =>
      simp only [Worker.ending?, hphase] at hending
      exact hending

/-- Only a worker that ran into a fault calls for a cancellation after its ticket. -/
theorem isFault_of_alarm (h : Moves rules kept before sent after) {ending : Ending}
    (halarm : after.worker.phase = .stopped ending .alarm) : ending.isFault = true := by
  cases h with
  | reject _ _ _ | send _ _ _ _ _ =>
      rcases afterValue_cases rules _ with hphase | hphase <;> rw [hphase] at halarm <;> cases halarm
  | dropTicket ending _ =>
      obtain ⟨rfl, hleft⟩ := Phase.stopped.inj halarm
      exact Ending.isFault_of_afterTicket hleft
  | _ => cases halarm

/-- A move that cancels the job is that of a worker with a fault, unless the predicate asks for it. -/
theorem hasFaulted_of_token (h : Moves rules kept before sent after) (hcalm : rules.predicate.Calm)
    (halarm : ∀ ending, before.worker.phase = .stopped ending .alarm → ending.isFault = true)
    (hbefore : before.token.isCancelled = false) (hafter : after.token.isCancelled = true) :
    after.worker.hasFaulted = true := by
  have hnever {token : Token} (hfree : token.isCancelled = false)
      (hcancelled : token.isCancelled = true) :
      False := by
    rw [hfree] at hcancelled
    cases hcancelled
  cases h with
  | fail _ _ _ => rfl
  | reject cancels _ hcall | accept cancels _ hcall =>
      cases cancels with
      | none => exact (hnever hbefore hafter).elim
      | some scope => exact absurd hcall (hcalm _ _ _)
  | alarm ending hphase => exact halarm ending hphase
  | _ => exact (hnever hbefore hafter).elim

end Station.Moves

namespace Pool

/-- A worker that was cancelled has seen its job cancelled. -/
def Heeding (pool : Pool) : Prop :=
  ∀ worker ∈ pool.workers, worker.ending? = some .cancelled → pool.token.isCancelled = true

/-- If the job is cancelled, or is about to be, it is on account of a worker with a fault. -/
structure Blameable (pool : Pool) : Prop where
  cancelled : pool.token.isCancelled = true → ∃ worker ∈ pool.workers, worker.hasFaulted = true
  alarm : ∀ worker ∈ pool.workers, ∀ ending, worker.phase = .stopped ending .alarm →
    ending.isFault = true

variable {rules : Rules} {ranges : List Span} {link : ResultChannel} {token : Token} {pool after : Pool}
  {event : Event} {published : Option (Nat × Nat)} {answer : Option Polled}

theorem Heeding.ofStart (hstart : Pool.start ranges link token = .ok pool) : pool.Heeding := by
  intro worker hworker hending
  obtain ⟨id, range, rfl⟩ := exists_ofRange_of_start hstart hworker
  cases hending

theorem Heeding.moves (h : pool.Heeding) (hmoves : Moves rules pool event published answer after) :
    after.Heeding := by
  have htoken := hmoves.token_cancelled
  cases hmoves with
  | work index kept hindex _ moved hmoves =>
      refine forall_mem_set hindex (fun worker hworker hending => htoken (h worker hworker hending)) ?_
      intro hending
      rcases hmoves.ending_cases hending with hsame | ⟨hcancelled, -⟩
      · exact htoken (h _ (Array.getElem_mem hindex) hsame)
      · exact htoken (hcancelled rfl)
  | join index hindex worker hjoin =>
      refine forall_mem_set hindex h fun hending => h _ (Array.getElem_mem hindex) ?_
      rwa [Worker.ending?_of_join? hjoin] at hending
  | _ => exact fun worker hworker hending => htoken (h worker hworker hending)

theorem Blameable.ofStart (hstart : Pool.start ranges link token = .ok pool)
    (htoken : token.isCancelled = false) : pool.Blameable := by
  constructor
  · intro hcancelled
    obtain ⟨-, rfl⟩ := start_eq_ok.1 hstart
    exact absurd (htoken.symm.trans hcancelled) (by decide)
  · intro worker hworker ending halarm
    obtain ⟨id, range, rfl⟩ := exists_ofRange_of_start hstart hworker
    cases halarm

theorem Blameable.moves (h : pool.Blameable) (hcalm : rules.predicate.Calm)
    (houtside : ∀ scope, event ≠ .cancel scope)
    (hmoves : Moves rules pool event published answer after) :
    after.Blameable := by
  cases hmoves with
  | work index kept hindex _ moved hmoves =>
      refine ⟨fun hcancelled => ?_, forall_mem_set hindex h.alarm fun ending => hmoves.isFault_of_alarm⟩
      cases hbefore : pool.token.isCancelled with
      | true =>
          refine exists_mem_set hindex (h.cancelled hbefore) fun hfaulted => ?_
          obtain ⟨ending, hending, hfault⟩ := Worker.hasFaulted_iff.1 hfaulted
          exact Worker.hasFaulted_iff.2 ⟨ending, hmoves.ending?_eq hending, hfault⟩
      | false =>
          exact ⟨_, Array.mem_set hindex,
            hmoves.hasFaulted_of_token hcalm (h.alarm _ (Array.getElem_mem hindex)) hbefore hcancelled⟩
  | join index hindex worker hjoin =>
      refine ⟨fun hcancelled => ?_, forall_mem_set hindex h.alarm ?_⟩
      · refine exists_mem_set hindex (h.cancelled hcancelled) fun hfaulted => ?_
        rwa [Worker.hasFaulted, Worker.ending?_of_join? hjoin]
      · obtain ⟨ending, -, rfl, -⟩ := Worker.join?_eq_some hjoin
        exact nofun
  | cancel scope _ => exact absurd rfl (houtside scope)
  | register _ | sleep _ _ _ | wake _ _ _ | release _ _ _ | deliver _ _ _ _ _ | finish _ _ _ _ _
  | violate _ _ _ _ _ | dropDrain _ => exact ⟨h.cancelled, h.alarm⟩

end Pool

end ParallelFilter
