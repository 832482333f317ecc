import ParallelFilter.Proofs.Blame

/-! What becomes of a job's token, move by move. A move cancels what the caller or the predicate
asks it to cancel, or it makes the fault of a worker known under fail-fast, or it leaves the token
alone. So the token of a job tells exactly whether the job was asked to stop or a fault of its own
workers became known. -/

namespace ParallelFilter

namespace Token

variable (token : Token)

theorem job_cancel? (scope : Option Scope) :
    (token.cancel? scope).job = true ↔ token.job = true ∨ scope = some .job := by
  cases scope with
  | none => simp [cancel?]
  | some scope => cases scope <;> simp [cancel?, cancel]

theorem pool_cancel? (scope : Option Scope) :
    (token.cancel? scope).pool = true ↔ token.pool = true ∨ scope = some .pool := by
  cases scope with
  | none => simp [cancel?]
  | some scope => cases scope <;> simp [cancel?, cancel]

theorem isCancelled_iff : token.isCancelled = true ↔ token.job = true ∨ token.pool = true :=
  Bool.or_eq_true_iff

end Token

namespace Worker

/-- What the predicate cancels when the worker calls it. -/
def asks (rules : Rules) (worker : Worker) : Option Scope :=
  match worker.phase with
  | .evaluating =>
    match rules.predicate worker.next with
    | .decided _ cancels => cancels
    | .failed _ | .panicked _ => none
  | _ => none

/-- Whether the worker's fault has become known: a failure at once, a panic when it is caught, which is
after the worker has given up its ticket. -/
def faultIsKnown (worker : Worker) : Bool :=
  match worker.phase with
  | .stopped (.failed _) _ | .stopped (.panicked _) .outcome | .stopped (.panicked _) .nothing => true
  | _ => false

theorem hasFaulted_of_faultIsKnown {worker : Worker} (h : worker.faultIsKnown = true) :
    worker.hasFaulted = true := by
  obtain ⟨id, range, evaluated, accepted, phase⟩ := worker
  cases phase with
  | stopped ending remains =>
      cases ending with
      | failed _ | panicked _ => rfl
      | completed | cancelled | disconnected => cases h
  | _ => cases h

/-- The fault of a worker that is gone is known. -/
theorem faultIsKnown_of_isGone {worker : Worker} (hgone : worker.isGone = true)
    (hfaulted : worker.hasFaulted = true) : worker.faultIsKnown = true := by
  obtain ⟨id, range, evaluated, accepted, phase⟩ := worker
  cases phase with
  | stopped ending remains =>
      cases ending with
      | failed _ => rfl
      | panicked _ =>
          cases remains with
          | outcome | nothing => rfl
          | sender | ticket | alarm => cases hgone
      | completed | cancelled | disconnected => cases hfaulted
  | _ => cases hgone

theorem faultIsKnown_of_join? {worker next : Worker} {outcome : WorkerOutcome}
    (h : worker.join? = some (outcome, next)) : next.faultIsKnown = worker.faultIsKnown := by
  obtain ⟨ending, hphase, rfl, -⟩ := join?_eq_some h
  unfold faultIsKnown
  rw [hphase]
  cases ending <;> rfl

theorem faultIsKnown_of_running {worker : Worker} (h : worker.ending? = none) :
    worker.faultIsKnown = false := by
  obtain ⟨id, range, evaluated, accepted, phase⟩ := worker
  cases phase with
  | stopped ending remains => cases h
  | _ => rfl

theorem asks_of_phase {worker : Worker} {rules : Rules} (h : worker.phase ≠ .evaluating) :
    worker.asks rules = none := by
  unfold asks
  split
  · rename_i hphase
    exact absurd hphase h
  · rfl

theorem asks_of_inHand? {worker : Worker} {rules : Rules} {value : Nat}
    (h : worker.inHand? = some value) : worker.asks rules = none := by
  refine asks_of_phase fun hphase => ?_
  simp only [inHand?, hphase, reduceCtorEq] at h

/-- A worker that calls for a cancellation after its ticket has panicked under fail-fast. -/
def Alarmed (rules : Rules) (worker : Worker) : Prop :=
  ∀ ending, worker.phase = .stopped ending .alarm →
    rules.failFast = true ∧ ∃ payload, ending = .panicked payload

end Worker

namespace Station

variable {rules : Rules} {kept : Nat} {before after : Station} {sent : Option Nat}

/-- What a move does to the token: it cancels what is asked for, or what a fault calls for. -/
inductive Summons (rules : Rules) (before after : Station) : Prop where
  | asked (htoken : after.token = before.token.cancel? (before.worker.asks rules))
      (hknown : rules.failFast = true → after.worker.faultIsKnown = before.worker.faultIsKnown)
  | fault (hfast : rules.failFast = true) (hasks : before.worker.asks rules = none)
      (htoken : after.token = before.token.cancel .job) (hknown : after.worker.faultIsKnown = true)

namespace Moves

theorem alarmed (h : Moves rules kept before sent after) (hbefore : before.worker.Alarmed rules) :
    after.worker.Alarmed rules := by
  intro ending halarm
  cases h with
  | reject _ _ _ | send _ _ _ _ _ =>
      rcases afterValue_cases rules _ with hphase | hphase <;> rw [hphase] at halarm <;> cases halarm
  | dropTicket stopped _ =>
      obtain ⟨rfl, hremains⟩ := Phase.stopped.inj halarm
      cases stopped with
      | panicked payload =>
          cases hfast : rules.failFast with
          | true => exact ⟨rfl, payload, rfl⟩
          | false =>
              rw [Ending.afterTicket, hfast] at hremains
              cases hremains
      | completed | cancelled | disconnected | failed _ => cases hremains
  | _ => cases halarm

/-- A move cancels what the predicate asks for, or what the worker's fault calls for. -/
theorem summons (h : Moves rules kept before sent after) (hbefore : before.worker.Alarmed rules) :
    Summons rules before after := by
  have quiet {worker next : Worker} {link other : ResultChannel} {token : Token}
      (hasks : worker.asks rules = none)
      (hknown : rules.failFast = true → next.faultIsKnown = worker.faultIsKnown) :
      Summons rules ⟨worker, link, token⟩ ⟨next, other, token⟩ :=
    .asked (by rw [hasks]; rfl) hknown
  have running {worker next : Worker} (hworker : worker.ending? = none) (hnext : next.ending? = none) :
      next.faultIsKnown = worker.faultIsKnown := by
    rw [Worker.faultIsKnown_of_running hworker, Worker.faultIsKnown_of_running hnext]
  cases h with
  | enter hphase _ _ | complete hphase _ | quit hphase _ _ | suspend _ hphase _ _ _ | goOn hphase =>
      refine quiet (Worker.asks_of_phase (by simp [hphase])) fun _ => ?_
      simp only [Worker.faultIsKnown, hphase]
  | send value hhand _ _ _ =>
      exact quiet (Worker.asks_of_inHand? hhand) fun _ =>
        running (Worker.ending?_of_inHand? hhand) (ending?_afterValue rules _ _ _ _)
  | disconnect value hhand _ _ | giveUp value hhand _ _ =>
      refine quiet (Worker.asks_of_inHand? hhand) fun _ => ?_
      exact (Worker.faultIsKnown_of_running (Worker.ending?_of_inHand? hhand)).symm
  | @fail worker _ _ reason hphase hcall =>
      have hasks : worker.asks rules = none := by simp only [Worker.asks, hphase, hcall]
      cases hfast : rules.failFast with
      | true => exact .fault hfast hasks rfl rfl
      | false => exact quiet hasks fun htrue => absurd (hfast.symm.trans htrue) (by decide)
  | panic payload hphase hcall =>
      refine quiet (by simp only [Worker.asks, hphase, hcall]) fun _ => ?_
      simp only [Worker.faultIsKnown, hphase]
  | reject cancels hphase hcall =>
      refine .asked (by simp only [Worker.asks, hphase, hcall]) fun _ => ?_
      exact running (by simp only [Worker.ending?, hphase]) (ending?_afterValue rules _ _ _ _)
  | accept cancels hphase hcall =>
      refine .asked (by simp only [Worker.asks, hphase, hcall]) fun _ => ?_
      exact running (by simp only [Worker.ending?, hphase]) rfl
  | dropSender ending hphase =>
      refine quiet (Worker.asks_of_phase (by simp [hphase])) fun _ => ?_
      cases ending <;> simp only [Worker.faultIsKnown, hphase]
  | dropTicket ending hphase =>
      refine quiet (Worker.asks_of_phase (by simp [hphase])) fun hfast => ?_
      cases ending <;> simp only [Worker.faultIsKnown, hphase, Ending.afterTicket, hfast, if_true]
  | alarm ending hphase =>
      obtain ⟨hfast, payload, rfl⟩ := hbefore ending hphase
      exact .fault hfast (Worker.asks_of_phase (by simp [hphase])) rfl rfl

end Moves

end Station

namespace Pool

/-- What is cancelled on request when the event happens: by whoever cancels, or by the predicate. -/
def asks (rules : Rules) (pool : Pool) : Event → Option Scope
  | .work index | .queue index => pool.workers[index]?.bind (Worker.asks rules)
  | .cancel scope => some scope
  | .close | .join _ | .receive | .dropDrain => none

/-- Whether the fault of some worker has become known. -/
def FaultIsKnown (pool : Pool) : Prop :=
  ∃ worker ∈ pool.workers, worker.faultIsKnown = true

def Alarmed (rules : Rules) (pool : Pool) : Prop :=
  ∀ worker ∈ pool.workers, worker.Alarmed rules

/-- What becomes of a pool's token: it is cancelled as asked for, or as the fault of a worker calls
for. -/
inductive Summons (rules : Rules) (pool : Pool) (asks : Option Scope) (after : Pool) : Prop where
  | asked (htoken : after.token = pool.token.cancel? asks)
      (hknown : rules.failFast = true → (after.FaultIsKnown ↔ pool.FaultIsKnown))
  | fault (hfast : rules.failFast = true) (hasks : asks = none)
      (htoken : after.token = pool.token.cancel .job) (hknown : after.FaultIsKnown)

variable {rules : Rules} {ranges : List Span} {link : ResultChannel} {token : Token} {pool after : Pool}
  {event : Event} {published : Option (Nat × Nat)} {answer : Option Polled}

theorem ofStart_alarmed (hstart : Pool.start ranges link token = .ok pool) : pool.Alarmed rules := by
  intro worker hworker ending halarm
  obtain ⟨id, range, rfl⟩ := exists_ofRange_of_start hstart hworker
  cases halarm

theorem ofStart_faultIsKnown (hstart : Pool.start ranges link token = .ok pool) :
    ¬pool.FaultIsKnown := by
  rintro ⟨worker, hworker, hknown⟩
  obtain ⟨id, range, rfl⟩ := exists_ofRange_of_start hstart hworker
  cases hknown

theorem faultIsKnown_set {index : Nat} (hindex : index < pool.workers.size) {worker : Worker}
    (hsame : worker.faultIsKnown = pool.workers[index].faultIsKnown) :
    (∃ other ∈ pool.workers.set index worker, other.faultIsKnown = true) ↔ pool.FaultIsKnown := by
  constructor
  · rintro ⟨other, hother, hknown⟩
    rcases Array.mem_or_eq_of_mem_set hother with hother | rfl
    · exact ⟨other, hother, hknown⟩
    · exact ⟨_, Array.getElem_mem hindex, hsame.symm.trans hknown⟩
  · intro hbefore
    exact exists_mem_set hindex hbefore fun hknown => hsame.trans hknown

theorem Moves.alarmed (h : Moves rules pool event published answer after)
    (hbefore : pool.Alarmed rules) :
    after.Alarmed rules := by
  cases h with
  | work index kept hindex _ moved hmoves =>
      exact forall_mem_set hindex hbefore (hmoves.alarmed (hbefore _ (Array.getElem_mem hindex)))
  | join index hindex worker hjoin =>
      refine forall_mem_set hindex hbefore ?_
      obtain ⟨ending, -, rfl, -⟩ := Worker.join?_eq_some hjoin
      exact nofun
  | _ => exact hbefore

theorem Moves.summons (h : Moves rules pool event published answer after)
    (hbefore : pool.Alarmed rules) :
    Summons rules pool (pool.asks rules event) after := by
  cases h with
  | work index kept hindex hevent moved hmoves =>
      have hasks : pool.asks rules event = pool.workers[index].asks rules := by
        rcases hevent with ⟨rfl, -⟩ | ⟨rfl, -⟩ <;> simp only
          [asks, Array.getElem?_eq_getElem hindex, Option.bind_some]
      cases hmoves.summons (hbefore _ (Array.getElem_mem hindex)) with
      | asked htoken hknown =>
          exact .asked (by rw [hasks]; exact htoken) fun hfast => faultIsKnown_set hindex (hknown hfast)
      | fault hfast hnone htoken hknown =>
          exact .fault hfast (hasks.trans hnone) htoken ⟨_, Array.mem_set hindex, hknown⟩
  | join index hindex worker hjoin =>
      exact .asked rfl fun _ => faultIsKnown_set hindex (Worker.faultIsKnown_of_join? hjoin)
  | _ => exact .asked rfl fun _ => .rfl

/-- The token above is cancelled on request only. -/
theorem Summons.token_pool {asks : Option Scope} (h : Summons rules pool asks after) :
    after.token.pool = true ↔ pool.token.pool = true ∨ asks = some .pool := by
  cases h with
  | asked htoken hknown =>
      rw [htoken]
      exact Token.pool_cancel? _ _
  | fault hfast hasks htoken hknown =>
      rw [htoken, hasks]
      exact (or_iff_left nofun).symm

/-- The job's own token is cancelled on request, or when the fault of a worker becomes known. -/
theorem Summons.token_job {asks : Option Scope} {asked : Prop} (h : Summons rules pool asks after)
    (hbefore : pool.token.job = true ↔ asked ∨ rules.failFast = true ∧ pool.FaultIsKnown) :
    after.token.job = true ↔ (asked ∨ asks = some .job) ∨ rules.failFast = true ∧
      after.FaultIsKnown := by
  cases h with
  | asked htoken hknown =>
      rw [htoken, Token.job_cancel?, hbefore, and_congr_right hknown, or_right_comm]
  | fault hfast hasks htoken hknown =>
      rw [htoken]
      exact iff_of_true rfl (.inr ⟨hfast, hknown⟩)

end Pool

end ParallelFilter
