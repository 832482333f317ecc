import ParallelFilter.Proofs.WindingDown

/-! How prompt a cancellation is. Once the token of a job is cancelled, each worker winds down,
whatever the others, the drain and the closer do meanwhile: no more is evaluated than the call that
was about to be made, no more is published than the value in hand, and nobody is resumed twice. A
worker that is suspended does nothing any more but stop. A job that was cancelled before any worker
began does nothing at all, and its report says so. -/

namespace ParallelFilter

/-- The worker that moves with the event. -/
def Event.worker? : Event → Option Nat
  | .work index | .queue index => some index
  | .close | .join _ | .receive | .dropDrain | .cancel _ => none

/-- The worker whose move is a step of the pool. -/
theorem Event.worker?_of_move {event : Event} {index kept waiting : Nat}
    (h : event = .work index ∧ kept = 0 ∨ event = .queue index ∧ kept = waiting) :
    event.worker? = some index := by
  rcases h with ⟨rfl, -⟩ | ⟨rfl, -⟩ <;> rfl

namespace Pool

/-- The call of the predicate that the event brings with it, with the worker's id. -/
def calls (pool : Pool) (event : Event) : Option (Nat × Nat) :=
  event.worker?.bind fun index =>
    (pool.workers[index]?.bind Worker.calls?).map fun value => (index, value)

/-- The worker that the event resumes. -/
def resumes (pool : Pool) (event : Event) : Option Nat :=
  event.worker?.filter fun index => pool.workers[index]?.any Worker.isSuspended

section Parties

variable {rules : Rules} {pool after : Pool} {event : Event} {published : Option (Nat × Nat)}
  {answer : Option Polled} {index : Nat} {worker : Worker}

theorem calls_of_worker? (hevent : event.worker? = some index)
    (hworker : pool.workers[index]? = some worker) :
    pool.calls event = worker.calls?.map fun value => (index, value) := by
  rw [calls, hevent, Option.bind_some, hworker, Option.bind_some]

theorem worker?_of_calls {entry : Nat × Nat} (h : pool.calls event = some entry) :
    event.worker? = some entry.1 := by
  obtain ⟨other, hevent, hcall⟩ := Option.bind_eq_some_iff.1 h
  obtain ⟨value, -, rfl⟩ := Option.map_eq_some_iff.1 hcall
  exact hevent

/-- What becomes of one worker with a move: it has moved itself, or it was joined, or it is as it
was. -/
theorem Moves.worker_cases (h : Moves rules pool event published answer after)
    (hworker : pool.workers[index]? = some worker) :
    (event.worker? = some index ∧ ∃ kept sent moved,
      published = sent.map (fun value => (index, value)) ∧
      Station.Moves rules kept (pool.station worker) sent moved ∧
        after.workers[index]? = some moved.worker) ∨
    event.worker? ≠ some index ∧ ∃ same, after.workers[index]? = some same ∧
      (same = worker ∨ ∃ outcome, worker.join? = some (outcome, same)) := by
  cases h with
  | work other kept hother hevent moved hmoves =>
      rw [Event.worker?_of_move hevent, Ne, Option.some_inj]
      by_cases hsame : other = index
      · subst hsame
        obtain rfl := Option.some.inj ((Array.getElem?_eq_getElem hother).symm.trans hworker)
        exact .inl ⟨rfl, kept, _, moved, rfl, hmoves, Array.getElem?_set_self hother⟩
      · exact .inr ⟨hsame, worker, (Array.getElem?_set_ne hother hsame).trans hworker, .inl rfl⟩
  | join other hother joined hjoin =>
      refine .inr ⟨nofun, ?_⟩
      by_cases hsame : other = index
      · subst hsame
        obtain rfl := Option.some.inj ((Array.getElem?_eq_getElem hother).symm.trans hworker)
        exact ⟨joined, Array.getElem?_set_self hother, .inr ⟨_, hjoin⟩⟩
      · exact ⟨worker, (Array.getElem?_set_ne hother hsame).trans hworker, .inl rfl⟩
  | _ => exact .inr ⟨nofun, worker, hworker, .inl rfl⟩

end Parties

/-- A history with the calls of the predicate and the resumptions that it was made of. -/
structure Watch where
  history : History
  /-- What the predicate was called on, oldest first, each value with the id of the worker. -/
  calls : List (Nat × Nat)
  /-- Who was resumed, oldest first. -/
  resumed : List Nat

namespace Watch

def ofPool (pool : Pool) : Watch :=
  ⟨.ofPool pool, [], []⟩

/-- The watch after one more event, if the event can happen. -/
def step (rules : Rules) (watch : Watch) (event : Event) : Option Watch :=
  (watch.history.step rules event).map fun history =>
    ⟨history, watch.calls ++ (watch.history.pool.calls event).toList,
      watch.resumed ++ (watch.history.pool.resumes event).toList⟩

/-- The watch after the events, if they can happen one after another. -/
def follow (rules : Rules) (watch : Watch) (events : List Event) : Option Watch :=
  events.foldlM (step rules) watch

/-- The watch after a move. -/
def extend (watch : Watch) (event : Event) (published : Option (Nat × Nat)) (answer : Option Polled)
    (pool : Pool) : Watch :=
  ⟨watch.history.extend published answer pool, watch.calls ++ (watch.history.pool.calls event).toList,
    watch.resumed ++ (watch.history.pool.resumes event).toList⟩

/-- What one worker has called the predicate on, oldest first. -/
def calledBy (watch : Watch) (index : Nat) : List Nat :=
  History.shareOf watch.calls index

/-- How often one worker was resumed. -/
def resumedBy (watch : Watch) (index : Nat) : Nat :=
  watch.resumed.count index

variable {rules : Rules} {ranges : List Span} {link : ResultChannel} {token : Token}
  {watch next moment last : Watch} {event : Event}
  {events more : List Event} {index : Nat} {before between after worker : Worker}

theorem step_moves (hstep : watch.step rules event = some next) : ∃ published answer pool,
    Moves rules watch.history.pool event published answer pool ∧
      next = watch.extend event published answer pool := by
  obtain ⟨history, hhistory, rfl⟩ := Option.map_eq_some_iff.1 hstep
  obtain ⟨published, answer, pool, hmoves, rfl⟩ := History.step_moves hhistory
  exact ⟨published, answer, pool, hmoves, rfl⟩

/-- What every step of a cancelled job keeps is kept by a whole run, and the job stays cancelled. -/
theorem cancelled_induction {P : Watch → Prop}
    (hkeeps : ∀ watch event next, watch.history.pool.token.isCancelled = true → P watch →
      watch.step rules event = some next → P next)
    (hcancelled : moment.history.pool.token.isCancelled = true) (h : P moment)
    (hrun : moment.follow rules more = some last) :
    last.history.pool.token.isCancelled = true ∧ P last := by
  refine foldlM_induction (P := fun watch : Watch => watch.history.pool.token.isCancelled = true ∧
    P watch)
    (fun watch event next _ hkept hstep => ⟨?_, hkeeps watch event next hkept.1 hkept.2 hstep⟩)
      ⟨hcancelled, h⟩ hrun
  obtain ⟨published, answer, pool, hmoves, rfl⟩ := step_moves hstep
  exact hmoves.token_cancelled hkept.1

/-- What one worker has done between two moments, and where it stood and stands. -/
structure Since (moment last : Watch) (index : Nat) (before after : Worker)
    (called published : List Nat) (resumed : Nat) : Prop where
  calledBy_eq : last.calledBy index = moment.calledBy index ++ called
  publishedBy_eq : last.history.publishedBy index = moment.history.publishedBy index ++ published
  resumedBy_eq : last.resumedBy index = moment.resumedBy index + resumed
  windsDown : before.WindsDown called published resumed after

theorem Since.refl (moment : Watch) (index : Nat) (worker : Worker) :
    moment.Since moment index worker worker [] [] 0 where
  calledBy_eq := (List.append_nil _).symm
  publishedBy_eq := (List.append_nil _).symm
  resumedBy_eq := rfl
  windsDown := .refl worker

theorem Since.trans {called published others further : List Nat} {resumed again : Nat}
    (h : moment.Since watch index before between called published resumed)
    (hmore : watch.Since last index between after others further again) :
    moment.Since last index before after (called ++ others) (published ++ further)
      (resumed + again) where
  calledBy_eq := by rw [hmore.calledBy_eq, h.calledBy_eq, List.append_assoc]
  publishedBy_eq := by rw [hmore.publishedBy_eq, h.publishedBy_eq, List.append_assoc]
  resumedBy_eq := by rw [hmore.resumedBy_eq, h.resumedBy_eq, Nat.add_assoc]
  windsDown := h.windsDown.trans hmore.windsDown

section Step

variable {published : Option (Nat × Nat)} {answer : Option Polled} {pool : Pool}

theorem calledBy_extend_of_ne (hevent : event.worker? ≠ some index) :
    (watch.extend event published answer pool).calledBy index = watch.calledBy index := by
  rw [calledBy, extend, History.shareOf_append, History.shareOf_toList_of_ne, List.append_nil]
  · rfl
  · rintro entry hentry rfl
    exact hevent (worker?_of_calls hentry)

theorem calledBy_extend_self (hevent : event.worker? = some index)
    (hbefore : watch.history.pool.workers[index]? = some before) :
    (watch.extend event published answer pool).calledBy index =
      watch.calledBy index ++ before.calls?.toList := by
  rw [calledBy, extend, History.shareOf_append, calls_of_worker? hevent hbefore,
    History.shareOf_toList_self]
  rfl

end Step

/-- No worker is in the middle of an iteration, and none ever was. -/
structure Idle (watch : Watch) : Prop where
  calls : watch.calls = []
  published : watch.history.published = []
  quiet : ∀ worker ∈ watch.history.pool.workers, worker.due? = none

theorem Idle.extend {answer : Option Polled} {pool : Pool} (h : watch.Idle)
    (hquiet : ∀ worker ∈ pool.workers, worker.due? = none) :
    (watch.extend event none answer pool).Idle where
  calls := by
    have hnone : watch.history.pool.calls event = none := by
      rw [Option.eq_none_iff_forall_ne_some]
      intro entry hentry
      obtain ⟨index, -, hcall⟩ := Option.bind_eq_some_iff.1 hentry
      obtain ⟨value, hvalue, -⟩ := Option.map_eq_some_iff.1 hcall
      obtain ⟨worker, hworker, hcalls⟩ := Option.bind_eq_some_iff.1 hvalue
      rw [Worker.calls?_eq_none_of_due? (h.quiet worker (Array.mem_of_getElem? hworker))] at hcalls
      cases hcalls
    rw [Watch.extend, h.calls, hnone]
    rfl
  published := by
    rw [Watch.extend, History.extend, h.published]
    rfl
  quiet := hquiet

/-- In a cancelled job nobody leaves the head of its loop but to stop. -/
theorem Idle.step (h : watch.Idle) (hcancelled : watch.history.pool.token.isCancelled = true)
    (hstep : watch.step rules event = some next) : next.Idle := by
  obtain ⟨published, answer, pool, hmoves, rfl⟩ := step_moves hstep
  cases hmoves with
  | work index kept hindex _ moved hmoves =>
      have hwinds := hmoves.windsDown hcancelled
      have hquiet : watch.history.pool.workers[index].due? = none :=
        h.quiet _ (Array.getElem_mem hindex)
      obtain ⟨-, hsent⟩ := hwinds.eq_nil hquiet
      obtain rfl := Option.toList_eq_nil_iff.1 hsent
      exact h.extend (forall_mem_set hindex h.quiet (hwinds.quiet hquiet).1)
  | join index hindex worker hjoin =>
      have hquiet := h.quiet _ (Array.getElem_mem hindex)
      exact h.extend (forall_mem_set hindex h.quiet ((Worker.windsDown_of_join? hjoin).quiet hquiet).1)
  | _ => exact h.extend h.quiet

section Run

variable (hsound : moment.history.Sound rules.predicate ranges)
  (hcancelled : moment.history.pool.token.isCancelled = true)
  (hrun : moment.follow rules more = some last)

include hcancelled hrun

theorem Idle.follow (hidle : moment.Idle) : last.Idle :=
  (cancelled_induction (fun _ _ _ hstill h hstep => h.step hstill hstep) hcancelled hidle hrun).2

include hsound

end Run

end Watch

end Pool

end ParallelFilter
