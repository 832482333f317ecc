import ParallelFilter.Proofs.Stint

/-! A worker whose job is cancelled. It does not come past the head of its loop any more, so what it
still does is the rest of an iteration: the call that it was about to make, the value that it has in
hand, and one resumption, if it is suspended then. Each move leaves less of this. A worker that is
not in the middle of an iteration only stops, and how it will stop is settled already. -/

namespace ParallelFilter

theorem Span.isEmpty_iff (span : Span) : span.isEmpty = true ↔ ¬0 < span.length := by
  have hle := span.start_le_stop
  rw [isEmpty, length, beq_iff_eq]
  omega

namespace Worker

/-- What the worker may still publish when its job is cancelled: the value it evaluates, or one that
it has accepted and not yet offered. A value that waits for room is given up. -/
def due? (worker : Worker) : Option Nat :=
  match worker.phase with
  | .evaluating => some worker.next
  | .offering value => some value
  | _ => none

def isSuspended (worker : Worker) : Bool :=
  match worker.phase with
  | .waiting _ | .yielding => true
  | _ => false

/-- How often the worker may still be resumed when its job is cancelled. -/
def resumptions (worker : Worker) : Nat :=
  match worker.phase with
  | .evaluating | .offering _ | .waiting _ | .yielding => 1
  | .ready | .stopped _ _ => 0

/-- How a worker that is not in the middle of an iteration stops when its job is cancelled. -/
def farewell (worker : Worker) : Ending :=
  match worker.phase with
  | .stopped ending _ => ending
  | .waiting _ => .cancelled
  | _ => if worker.evaluated < worker.range.length then .cancelled else .completed

/-- What a cancelled worker has done and what is left for it to do are together no more than was
left before: it has called the predicate on `called`, published `published` and was resumed so
often. -/
structure WindsDown (before : Worker) (called published : List Nat) (resumed : Nat) (after : Worker) :
    Prop where
  called : called ++ after.calls?.toList <+: before.calls?.toList
  published : published ++ after.due?.toList <+: before.due?.toList
  resumed : resumed + after.resumptions ≤ before.resumptions
  /-- It has not come past the head of its loop. -/
  head : after.phase = .evaluating → after = before
  quiet : before.due? = none → after.due? = none ∧ after.farewell = before.farewell ∧
    after = { before with phase := after.phase }

variable {before between after worker : Worker} {called published others more : List Nat}
  {resumed again : Nat}

theorem WindsDown.refl (worker : Worker) : worker.WindsDown [] [] 0 worker where
  called := List.prefix_rfl
  published := List.prefix_rfl
  resumed := Nat.le_of_eq (Nat.zero_add _)
  head _ := rfl
  quiet hquiet := ⟨hquiet, rfl, rfl⟩

theorem WindsDown.trans (h : before.WindsDown called published resumed between)
    (hmore : between.WindsDown others more again after) :
    before.WindsDown (called ++ others) (published ++ more) (resumed + again) after where
  called := by
    rw [List.append_assoc]
    exact ((List.prefix_append_right_inj _).2 hmore.called).trans h.called
  published := by
    rw [List.append_assoc]
    exact ((List.prefix_append_right_inj _).2 hmore.published).trans h.published
  resumed := by
    have hfirst := h.resumed
    have hsecond := hmore.resumed
    omega
  head hphase := by
    obtain rfl := hmore.head hphase
    exact h.head hphase
  quiet hquiet := by
    obtain ⟨hbetween, hfarewell, hsame⟩ := h.quiet hquiet
    obtain ⟨hafter, hstill, hlast⟩ := hmore.quiet hbetween
    refine ⟨hafter, hstill.trans hfarewell, ?_⟩
    rw [hlast, hsame]

theorem calls?_eq_none_of_due? (h : worker.due? = none) : worker.calls? = none := by
  unfold due? at h
  split at h
  · cases h
  · cases h
  · rename_i hevaluating _
    unfold calls?
    split
    · rename_i hphase
      exact absurd hphase hevaluating
    · rfl

theorem due?_of_isSuspended (h : worker.isSuspended = true) : worker.due? = none := by
  unfold isSuspended at h
  split at h
  · rename_i hphase
    simp only [due?, hphase]
  · rename_i hphase
    simp only [due?, hphase]
  · cases h

theorem resumptions_le (worker : Worker) : worker.resumptions ≤ 1 := by
  unfold resumptions
  split <;> decide

theorem farewell_of_ending? {ending : Ending} (h : worker.ending? = some ending) :
    worker.farewell = ending := by
  obtain ⟨remains, hphase⟩ := phase_of_ending? h
  simp only [farewell, hphase]

theorem resumptions_of_due? {value : Nat} (h : worker.due? = some value) : worker.resumptions = 1 := by
  unfold due? at h
  split at h
  · rename_i hphase
    simp only [resumptions, hphase]
  · rename_i hphase
    simp only [resumptions, hphase]
  · cases h

theorem calls?_of_evaluating (h : worker.phase = .evaluating) : worker.calls? = some worker.next := by
  simp only [calls?, h]

theorem due?_of_evaluating (h : worker.phase = .evaluating) : worker.due? = some worker.next := by
  simp only [due?, h]

theorem due?_of_offering {value : Nat} (h : worker.phase = .offering value) :
    worker.due? = some value := by
  simp only [due?, h]

/-- The rest of an iteration: what is left is the sending of a value at most, and one resumption. -/
theorem windsDown_of_due? {value : Nat} (hdue : before.due? = some value) (hcalls : after.calls? = none)
    (hpublished : published ++ after.due?.toList <+: [value]) :
    before.WindsDown before.calls?.toList published before.isSuspended.toNat after where
  called := by
    simp only [hcalls, Option.toList_none, List.append_nil, List.prefix_rfl]
  published := by
    rw [hdue]
    exact hpublished
  resumed := by
    have hawake : before.isSuspended = false := by
      by_contra hsuspended
      rw [due?_of_isSuspended (Bool.eq_true_of_not_eq_false hsuspended)] at hdue
      cases hdue
    rw [hawake, resumptions_of_due? hdue]
    exact (Nat.zero_add _).le.trans after.resumptions_le
  head hphase := by
    rw [calls?_of_evaluating hphase] at hcalls
    cases hcalls
  quiet hquiet := by
    rw [hdue] at hquiet
    cases hquiet

/-- A worker that is not in the middle of an iteration only stands elsewhere, and stops as before. -/
theorem windsDown_of_quiet {phase : Phase} (hquiet : worker.due? = none)
    (hstill : ({ worker with phase } : Worker).due? = none)
    (hresumed : worker.isSuspended.toNat + ({ worker with phase } : Worker).resumptions ≤
      worker.resumptions)
    (hfarewell : ({ worker with phase } : Worker).farewell = worker.farewell) :
    worker.WindsDown worker.calls?.toList [] worker.isSuspended.toNat { worker with phase } where
  called := by
    simp only [calls?_eq_none_of_due? hquiet, calls?_eq_none_of_due? hstill, Option.toList_none,
      List.append_nil, List.prefix_rfl]
  published := by
    simp only [hquiet, hstill, Option.toList_none, List.append_nil, List.prefix_rfl]
  resumed := hresumed
  head hphase := by
    rw [due?, hphase] at hstill
    cases hstill
  quiet _ := ⟨hstill, hfarewell, rfl⟩

/-- A worker that is not in the middle of an iteration neither calls the predicate nor publishes. -/
theorem WindsDown.eq_nil (h : before.WindsDown called published resumed after)
    (hquiet : before.due? = none) :
    called = [] ∧ published = [] := by
  have hcalled := h.called
  have hpublished := h.published
  rw [calls?_eq_none_of_due? hquiet, Option.toList_none, List.prefix_nil,
    List.append_eq_nil_iff] at hcalled
  rw [hquiet, Option.toList_none, List.prefix_nil, List.append_eq_nil_iff] at hpublished
  exact ⟨hcalled.1, hpublished.1⟩

/-- What a worker reports that was not in the middle of an iteration when its job was cancelled. -/
theorem WindsDown.report_eq (h : before.WindsDown called published resumed after)
    (hquiet : before.due? = none) {summary : WorkerSummary}
    (hsummary : after.report? = some summary) :
    summary = ⟨before.id, before.range, before.evaluated, before.accepted, before.farewell.status⟩ := by
  obtain ⟨-, hfarewell, hsame⟩ := h.quiet hquiet
  obtain ⟨ending, hending, rfl⟩ := Option.map_eq_some_iff.1 hsummary
  rw [← hfarewell, farewell_of_ending? hending, hsame]

/-- A worker that was joined has nothing left to do, as before. -/
theorem windsDown_of_join? {outcome : WorkerOutcome} {next : Worker}
    (h : worker.join? = some (outcome, next)) :
    worker.WindsDown [] [] 0 next := by
  obtain ⟨ending, hphase, rfl, -⟩ := join?_eq_some h
  refine ⟨List.nil_prefix, List.nil_prefix, Nat.zero_le _, nofun, fun _ => ⟨rfl, ?_, rfl⟩⟩
  simp only [farewell, hphase]

end Worker

namespace Station

variable {rules : Rules} {before after : Station} {sent : Option Nat} {kept : Nat}

theorem calls?_afterValue (rules : Rules) (worker : Worker) (evaluated accepted count : Nat) :
    ({ worker with evaluated, accepted, phase := afterValue rules count } : Worker).calls? = none ∧
      ({ worker with evaluated, accepted, phase := afterValue rules count } : Worker).due? = none := by
  rcases afterValue_cases rules count with h | h <;> simp only [Worker.calls?, Worker.due?, h, and_self]

/-- A value that waits for room is not sent any more, so one that is sent or refused was offered at
once. -/
theorem due?_of_inHand? {worker : Worker} {token : Token} {value : Nat}
    (hhand : worker.inHand? = some value)
    (htoken : worker.isWaiting = true → token.isCancelled = false)
    (hcancelled : token.isCancelled = true) :
    worker.due? = some value := by
  rcases Worker.phase_of_inHand? hhand with hphase | hphase
  · exact Worker.due?_of_offering hphase
  · have hfree := htoken (by simp only [Worker.isWaiting, hphase])
    exact absurd (hfree.symm.trans hcancelled) (by decide)

/-- Each move of a worker winds it down, once its job is cancelled. -/
theorem Moves.windsDown (h : Moves rules kept before sent after)
    (hcancelled : before.token.isCancelled = true) :
    before.worker.WindsDown before.worker.calls?.toList sent.toList before.worker.isSuspended.toNat
      after.worker := by
  cases h with
  | enter _ _ htoken | suspend _ _ _ _ htoken => exact absurd (htoken.symm.trans hcancelled) (by decide)
  | complete hphase hend =>
      apply Worker.windsDown_of_quiet
      · simp only [Worker.due?, hphase]
      · rfl
      · simp only [Worker.isSuspended, Worker.resumptions, hphase]
        exact Nat.le_refl 0
      · simp only [Worker.farewell, hphase, if_neg (Nat.not_lt.2 hend)]
  | quit hphase hlt _ =>
      apply Worker.windsDown_of_quiet
      · simp only [Worker.due?, hphase]
      · rfl
      · simp only [Worker.isSuspended, Worker.resumptions, hphase]
        exact Nat.le_refl 0
      · simp only [Worker.farewell, hphase, if_pos hlt]
  | goOn hphase =>
      apply Worker.windsDown_of_quiet
      · simp only [Worker.due?, hphase]
      · rfl
      · simp only [Worker.isSuspended, Worker.resumptions, hphase]
        exact Nat.le_refl 1
      · simp only [Worker.farewell, hphase]
  | dropSender ending hphase | dropTicket ending hphase | alarm ending hphase =>
      apply Worker.windsDown_of_quiet
      · simp only [Worker.due?, hphase]
      · rfl
      · simp only [Worker.isSuspended, Worker.resumptions, hphase]
        exact Nat.le_refl 0
      · simp only [Worker.farewell, hphase]
  | fail _ hphase _ | panic _ hphase _ =>
      exact Worker.windsDown_of_due? (Worker.due?_of_evaluating hphase) rfl List.nil_prefix
  | accept _ hphase _ =>
      exact Worker.windsDown_of_due? (Worker.due?_of_evaluating hphase) rfl List.prefix_rfl
  | reject _ hphase _ =>
      obtain ⟨hcalls, hdue⟩ := calls?_afterValue rules _ _ _ _
      refine Worker.windsDown_of_due? (Worker.due?_of_evaluating hphase) hcalls ?_
      rw [hdue]
      exact List.nil_prefix
  | send value hhand htoken _ _ =>
      obtain ⟨hcalls, hdue⟩ := calls?_afterValue rules _ _ _ _
      refine Worker.windsDown_of_due? (due?_of_inHand? hhand htoken hcancelled) hcalls ?_
      simp only [hdue, Option.toList_some, Option.toList_none, List.append_nil, List.prefix_rfl]
  | disconnect value hhand htoken _ =>
      exact Worker.windsDown_of_due? (due?_of_inHand? hhand htoken hcancelled) rfl List.nil_prefix
  | giveUp value hhand _ _ =>
      rcases Worker.phase_of_inHand? hhand with hphase | hphase
      · exact Worker.windsDown_of_due? (Worker.due?_of_offering hphase) rfl List.nil_prefix
      · apply Worker.windsDown_of_quiet
        · simp only [Worker.due?, hphase]
        · rfl
        · simp only [Worker.isSuspended, Worker.resumptions, hphase]
          exact Nat.le_refl 1
        · simp only [Worker.farewell, hphase]

section Resume

variable {worker : Worker} {link : ResultChannel} {token : Token}

theorem run_of_isActive {station : Station} (h : station.worker.isActive = true) :
    station.run rules = (station.step rules).run rules := by
  rw [run, if_pos h]

/-- A stopped worker gives up its sender and its ticket and is gone; if it has panicked under
fail-fast it cancels its job before. -/
theorem run_of_ending (ending : Ending) :
    run rules ⟨{ worker with phase := .stopped ending .sender }, link, token⟩ =
      ⟨{ worker with phase := .stopped ending .outcome }, link.dropSender.dropTicket,
        if ending.afterTicket rules = .alarm then token.cancel .job else token⟩ := by
  calc
    run rules ⟨{ worker with phase := .stopped ending .sender }, link, token⟩
      = run rules ⟨{ worker with phase := .stopped ending .ticket }, link.dropSender, token⟩ :=
        run_of_isActive rfl
    _ = run rules ⟨{ worker with phase := .stopped ending (ending.afterTicket rules) },
          link.dropSender.dropTicket, token⟩ := run_of_isActive rfl
    _ = _ := by
      rcases afterTicket_cases rules ending with hleft | hleft
      · rw [hleft, run_of_isActive rfl, if_pos rfl]
        exact run_of_not_isActive rfl
      · rw [hleft, if_neg (by decide)]
        exact run_of_not_isActive rfl

/-- A worker that stops without a fault leaves the token alone. -/
theorem run_of_stopped {ending : Ending} (hending : ending.isFault = false) :
    run rules ⟨{ worker with phase := .stopped ending .sender }, link, token⟩ =
      ⟨{ worker with phase := .stopped ending .outcome }, link.dropSender.dropTicket, token⟩ := by
  rw [run_of_ending, if_neg]
  intro halarm
  rw [Ending.isFault_of_afterTicket halarm] at hending
  cases hending

end Resume

end Station

end ParallelFilter
