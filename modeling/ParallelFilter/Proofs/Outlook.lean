import ParallelFilter.Proofs.Disconnection
import ParallelFilter.Proofs.Turns

/-! What can be told in advance of a worker that takes its turn: on which values the predicate will
have been called when it stops, if nobody else cancels its job meanwhile. Where there is room in the
channel no move of the worker changes this; the worker never waits, sends what it accepts before it
goes on, and the job is cancelled by the time that the worker is gone if one of its calls has halted
it. -/

namespace ParallelFilter

namespace Worker

variable {predicate : Predicate} {failFast cancelled : Bool} {worker : Worker}

/-- What the predicate will have been called on when the worker stops, if nobody else cancels the
job meanwhile. -/
def outlook (predicate : Predicate) (failFast cancelled : Bool) (worker : Worker) : List Nat :=
  worker.called ++
    match worker.phase with
    | .stopped _ _ => []
    | .evaluating => takeThrough (predicate.ends failFast) worker.ahead
    | .ready | .offering _ | .waiting _ | .yielding =>
      if cancelled then [] else takeThrough (predicate.ends failFast) worker.ahead

/-- Whether the worker is still to cancel its job, with the last thing that it does. -/
def owes (rules : Rules) (worker : Worker) : Bool :=
  match worker.phase with
  | .stopped ending .sender | .stopped ending .ticket => ending.afterTicket rules == .alarm
  | .stopped _ .alarm => true
  | _ => false

/-- What is kept of a worker of a job with this token, where workers take turns and there is room. -/
structure Steady (rules : Rules) (token : Token) (worker : Worker) : Prop where
  /-- Where a call has halted the job it is cancelled, or will be. -/
  heard : worker.called.any (rules.predicate.halts rules.failFast) = true →
    token.isCancelled = true ∨ worker.owes rules = true
  owed : worker.owes rules = true → worker.called.any (rules.predicate.halts rules.failFast) = true
  calm : worker.phase = .evaluating → token.isCancelled = false
  waiting : worker.isWaiting = false
  connected : worker.ending? ≠ some .disconnected
  /-- No value was given up. -/
  whole : worker.ending? = some .cancelled →
    worker.accepted = worker.called.countP rules.predicate.accepts
  yielding : worker.phase = .yielding → 0 < worker.evaluated ∧
    worker.evaluated % rules.yieldInterval = 0

theorem steady_ofRange {rules : Rules} (id : Nat) (range : Span) (token : Token) :
    (ofRange id range).Steady rules token where
  heard hany := by
    rw [called_of_running rfl, Span.firstValues_eq_take] at hany
    cases hany
  owed := nofun
  calm := nofun
  waiting := rfl
  connected := nofun
  whole := nofun
  yielding := nofun

/-- What others do can only cancel the job, and it does not come between the look at the token and
the call. -/
theorem Steady.mono {rules : Rules} {token next : Token} (h : worker.Steady rules token)
    (hmono : token.isCancelled = true → next.isCancelled = true) (hphase : worker.phase ≠ .evaluating) :
    worker.Steady rules next where
  heard hany := (h.heard hany).imp_left hmono
  owed := h.owed
  calm hevaluating := absurd hevaluating hphase
  waiting := h.waiting
  connected := h.connected
  whole := h.whole
  yielding := h.yielding

/-- A worker that was joined is as it was but for its phase. -/
theorem Steady.join {rules : Rules} {token : Token} {outcome : WorkerOutcome} {next : Worker}
    (h : worker.Steady rules token) (hjoin : worker.join? = some (outcome, next)) :
    next.Steady rules token := by
  have hcalled := called_of_join? hjoin
  have hending := ending?_of_join? hjoin
  obtain ⟨ending, hphase, rfl, -⟩ := join?_eq_some hjoin
  refine ⟨fun hany => .inl ?_, nofun, nofun, rfl, ?_, fun hcancelled => ?_, nofun⟩
  · rw [hcalled] at hany
    rcases h.heard hany with htoken | howes
    · exact htoken
    · simp only [owes, hphase] at howes
      cases howes
  · rw [hending]
    exact h.connected
  · rw [hcalled]
    exact h.whole (hending ▸ hcancelled)

theorem called_prefix_outlook (predicate : Predicate) (failFast cancelled : Bool) (worker : Worker) :
    worker.called <+: worker.outlook predicate failFast cancelled :=
  List.prefix_append _ _

theorem any_outlook {p : Nat → Bool} (h : worker.called.any p = true) :
    (worker.outlook predicate failFast cancelled).any p = true := by
  rw [outlook, List.any_append, h, Bool.true_or]

theorem outlook_of_ending? (h : worker.ending?.isSome = true) :
    worker.outlook predicate failFast cancelled = worker.called := by
  obtain ⟨ending, hending⟩ := Option.isSome_iff_exists.1 h
  obtain ⟨remains, hphase⟩ := phase_of_ending? hending
  simp only [outlook, hphase, List.append_nil]

theorem outlook_of_evaluating (h : worker.phase = .evaluating) :
    worker.outlook predicate failFast cancelled =
    worker.called ++ takeThrough (predicate.ends failFast) worker.ahead := by
  simp only [outlook, h]

/-- A worker that is neither stopped nor about to evaluate looks at the token before it evaluates
again. -/
theorem outlook_of_running (hending : worker.ending? = none) (hcalls : worker.calls? = none) :
    worker.outlook predicate failFast cancelled =
      worker.called ++ if cancelled then []
        else takeThrough (predicate.ends failFast) worker.ahead := by
  unfold outlook
  split
  · rename_i hphase
    simp only [ending?, hphase] at hending
    cases hending
  · rename_i hphase
    simp only [calls?, hphase] at hcalls
    cases hcalls
  all_goals rfl

theorem owes_of_running (rules : Rules) (h : worker.ending? = none) : worker.owes rules = false := by
  unfold owes
  split
  · rename_i hphase
    simp only [ending?, hphase] at h
    cases h
  · rename_i hphase
    simp only [ending?, hphase] at h
    cases h
  · rename_i hphase
    simp only [ending?, hphase] at h
    cases h
  · rfl

theorem isGone_of_not_isActive (hactive : worker.isActive = false)
    (hawake : worker.isSuspended = false) :
    worker.isGone = true := by
  obtain ⟨id, range, evaluated, accepted, phase⟩ := worker
  cases phase with
  | ready | evaluating | offering _ => cases hactive
  | waiting _ | yielding => cases hawake
  | stopped ending remains =>
      cases remains with
      | sender | ticket | alarm => cases hactive
      | outcome | nothing => rfl

theorem owes_of_isGone (rules : Rules) (h : worker.isGone = true) : worker.owes rules = false := by
  unfold isGone at h
  split at h
  · rename_i hphase
    simp only [owes, hphase]
  · rename_i hphase
    simp only [owes, hphase]
  · cases h

theorem any_calls?_of_evaluating (h : worker.phase = .evaluating) (p : Nat → Bool) :
    worker.calls?.toList.any p = p worker.next := by
  rw [calls?_of_evaluating h, Option.toList_some, List.any_cons, List.any_nil, Bool.or_false]

theorem outlook_ofRange (id : Nat) (range : Span) :
    (ofRange id range).outlook predicate failFast cancelled =
      predicate.turn failFast cancelled range := by
  have hahead : (ofRange id range).ahead = range.values := rfl
  rw [outlook_of_running rfl rfl, called_of_running rfl, hahead]
  rfl

/-- What was accepted is sent, or it is in hand. -/
theorem Accounts.countP_called {sent : List Nat} (h : worker.Accounts predicate sent) :
    ∃ rest : List Nat,
    worker.called.countP predicate.accepts = worker.accepted + rest.length ∧
      worker.Holds predicate rest := by
  obtain ⟨rest, hrest, hholds⟩ := h.balance
  refine ⟨rest, ?_, hholds⟩
  rw [List.countP_eq_length_filter, h.filter_accepts_called, ← hrest, List.length_append, h.accepted]

theorem Accounts.countP_of_inHand? {sent : List Nat} {value : Nat}
    (h : worker.Accounts predicate sent) (hhand : worker.inHand? = some value) :
    worker.called.countP predicate.accepts = worker.accepted + 1 := by
  obtain ⟨rest, hcount, hholds⟩ := h.countP_called
  obtain ⟨rfl, -⟩ := (holds_of_inHand? hhand).1 hholds
  exact hcount

/-- Of what the predicate was called on, the value that led to a fault is not decided, and no other. -/
theorem Accounts.find?_called {sent : List Nat} (h : worker.Accounts predicate sent) :
    (worker.called.find? fun value => !predicate.decides value) =
      if worker.hasFaulted then some worker.next else none := by
  have hnone : (worker.range.firstValues worker.evaluated).find?
      (fun value => !predicate.decides value) = none := by
    rw [List.find?_eq_none]
    intro value hvalue
    rw [h.decided value hvalue]
    decide
  rw [called, List.find?_append, hnone, Option.none_or]
  split
  · rename_i hfaulted
    rw [← isSome_fault?, Option.isSome_iff_exists] at hfaulted
    obtain ⟨fault, hfault⟩ := hfaulted
    obtain ⟨-, -, hnot⟩ := h.of_fault? hfault
    exact List.find?_cons_of_pos (by rw [hnot]; rfl)
  · rfl

theorem Accounts.fault?_eq {sent : List Nat} (h : worker.Accounts predicate sent) : worker.fault? =
    (worker.called.find? fun value => !predicate.decides value).bind
      (predicate.faultOn worker.id worker.range) := by
  rw [h.find?_called]
  cases hfault : worker.fault? with
  | none =>
      have hfaulted : worker.hasFaulted = false := by
        rw [← isSome_fault?, hfault]
        rfl
      rw [hfaulted]
      rfl
  | some fault =>
      have hfaulted : worker.hasFaulted = true := by
        rw [← isSome_fault?, hfault]
        rfl
      rw [hfaulted, if_pos rfl, Option.bind_some, h.faultOn_of_fault? hfault]

/-- How a worker stopped shows in its calls: an undecided value means a fault, and too few values a
cancellation. -/
theorem Accounts.status_eq {sent : List Nat} {ending : Ending} (h : worker.Accounts predicate sent)
    (hending : worker.ending? = some ending) (hconnected : ending ≠ .disconnected)
    (hcancelled : ending = .cancelled → worker.evaluated < worker.range.length) :
    ending.status = if worker.called.all predicate.decides then
      if worker.called.length = worker.range.length then .completed else .cancelled else .faulted := by
  have hall : worker.called.all predicate.decides = !worker.hasFaulted := by
    rw [List.all_eq_not_any_not, ← List.isSome_find?, h.find?_called]
    cases worker.hasFaulted <;> rfl
  have hlength (hclean : worker.hasFaulted = false) : worker.called.length = worker.evaluated := by
    rw [called, hclean, if_neg Bool.false_ne_true, List.append_nil,
      Span.length_firstValues h.evaluated_le]
  have hfaulted : worker.hasFaulted = ending.isFault := by
    rw [hasFaulted, hending, Option.any_some]
  rw [hall]
  cases ending with
  | completed =>
      rw [hlength hfaulted, hfaulted, if_pos (h.of_completed hending).1]
      rfl
  | cancelled =>
      rw [hlength hfaulted, hfaulted, if_neg (Nat.ne_of_lt (hcancelled rfl))]
      rfl
  | disconnected => exact absurd rfl hconnected
  | failed reason | panicked payload =>
      rw [hfaulted]
      rfl

/-- A worker that has stopped with nothing in hand contributes what its calls amount to. -/
theorem Accounts.contributes {rules : Rules} {token : Token} {sent : List Nat}
    (h : worker.Accounts rules.predicate sent) (hsteady : worker.Steady rules token)
    (hstopped : worker.ending?.isSome = true) :
    worker.outcome? = some (rules.predicate.contributionOf worker.id worker.range
      worker.called).outcome ∧
      sent = (rules.predicate.contributionOf worker.id worker.range worker.called).values := by
  obtain ⟨ending, hending⟩ := Option.isSome_iff_exists.1 hstopped
  obtain ⟨rest, hrest, hholds⟩ := h.balance
  have hsent : rest = [] := by
    rcases hholds.cases with hnone | ⟨value, hone, -, hhand | hcancelled | hdisconnected⟩
    · exact hnone
    · rw [inHand?_of_ending? hending] at hhand
      cases hhand
    · have hwhole := hsteady.whole hcancelled
      rw [List.countP_eq_length_filter, h.filter_accepts_called, ← hrest, List.length_append,
        h.accepted] at hwhole
      exact List.eq_nil_of_length_eq_zero (by omega)
    · exact absurd hdisconnected hsteady.connected
  subst hsent
  rw [List.append_nil, ← h.filter_accepts_called] at hrest
  have haccepted : worker.called.countP rules.predicate.accepts = worker.accepted := by
    rw [List.countP_eq_length_filter, ← hrest, h.accepted]
  have hevaluated : worker.called.countP rules.predicate.decides = worker.evaluated := by
    rw [List.countP_eq_length_filter, h.filter_called, Span.length_firstValues h.evaluated_le]
  have hstatus :=
    h.status_eq hending (fun hlost => hsteady.connected (hlost ▸ hending)) fun hcancelled => by
    obtain ⟨remains, hphase⟩ := phase_of_ending? hending
    rw [hcancelled] at hphase
    simp only [Holds, hphase, List.nil_eq, reduceCtorEq, false_and, exists_false, or_false,
      true_and] at hholds
    exact hholds
  refine ⟨?_, hrest⟩
  rw [outcome?, report?, hending, Option.map_some, Option.map_some, h.fault?_eq, hstatus,
    Predicate.contributionOf, haccepted, hevaluated]

/-- A worker with a value in hand has evaluated it. -/
theorem Accounts.evaluated_pos_of_inHand? {sent : List Nat} {value : Nat}
    (h : worker.Accounts predicate sent) (hhand : worker.inHand? = some value) :
    0 < worker.evaluated := by
  have hcount := h.countP_of_inHand? hhand
  have hle : worker.called.countP predicate.accepts ≤ worker.called.length := List.countP_le_length
  rw [called_of_running (ending?_of_inHand? hhand), Span.length_firstValues h.evaluated_le] at hle
  rw [called_of_running (ending?_of_inHand? hhand)] at hcount
  omega

end Worker

namespace Station

theorem isWaiting_afterValue (rules : Rules) (worker : Worker) (evaluated accepted count : Nat) :
    ({ worker with evaluated, accepted, phase := afterValue rules count } : Worker).isWaiting =
      false := by
  rcases afterValue_cases rules count with h | h <;> simp only [Worker.isWaiting, h]

theorem mod_of_afterValue {rules : Rules} {evaluated : Nat}
    (h : afterValue rules evaluated = .yielding) :
    evaluated % rules.yieldInterval = 0 := by
  unfold afterValue at h
  split at h
  · assumption
  · cases h

end Station

namespace Station.Moves

variable {rules : Rules} {kept : Nat} {before after : Station} {sent : Option Nat}
  {predicate : Predicate} {failFast : Bool} {worker : Worker}

/-- A worker that is gone does not move. -/
theorem not_gone (h : Moves rules kept before sent after) : before.worker.isGone = false := by
  cases h with
  | send _ hhand _ _ _ | disconnect _ hhand _ _ | giveUp _ hhand _ _ =>
      rcases Worker.phase_of_inHand? hhand with hphase | hphase <;> simp only [Worker.isGone, hphase]
  | enter hphase _ _ | complete hphase _ | quit hphase _ _ | fail _ hphase _ | panic _ hphase _
  | reject _ hphase _
  | accept _ hphase _ | suspend _ hphase _ _ _ | goOn hphase | dropSender _ hphase | dropTicket _ hphase
  | alarm _ hphase =>
      simp only [Worker.isGone, hphase]

/-- A move without a call adds nothing to what the predicate was called on. -/
theorem called_of_quiet (h : Moves rules kept before sent after) {published : List Nat}
    (haccounts : before.worker.Accounts predicate published) (hquiet : before.worker.calls? = none) :
    after.worker.called = before.worker.called := by
  rw [h.called_eq haccounts.lt_of_evaluating, hquiet, Option.toList_none, List.append_nil]

/-- What the predicate was called on stays. -/
theorem any_called (h : Moves rules kept before sent after) {published : List Nat}
    (haccounts : before.worker.Accounts predicate published) {p : Nat → Bool}
    (hany : before.worker.called.any p = true) : after.worker.called.any p = true := by
  rw [h.called_eq haccounts.lt_of_evaluating, List.any_append, hany, Bool.true_or]

/-- A worker that is about to evaluate has this call before it, and goes on if it does not end with
it. -/
theorem outlook_of_next (hphase : worker.phase = .evaluating)
    (hlt : worker.evaluated < worker.range.length) (cancelled : Bool) :
    worker.outlook predicate failFast cancelled =
      worker.called ++ worker.next :: if predicate.ends failFast worker.next then [] else
        takeThrough (predicate.ends failFast)
          (List.range' (worker.next + 1) (worker.range.length - (worker.evaluated + 1))) := by
  rw [Worker.outlook_of_evaluating hphase, Worker.ahead_of_lt hlt, takeThrough]
  split <;> rfl

/-- A value that is decided halts the job if and only if the call cancels it. -/
theorem outlook_of_decided {accepted : Bool} {cancels : Option Scope} {phase : Phase} {token : Token}
    (hphase : worker.phase = .evaluating) (hlt : worker.evaluated < worker.range.length)
    (hcall : predicate worker.next = .decided accepted cancels) (htoken : token.isCancelled = false)
    (hending : ({ worker with evaluated := worker.evaluated + 1, phase } : Worker).ending? = none)
    (hcalls : ({ worker with evaluated := worker.evaluated + 1, phase } : Worker).calls? = none) :
    ({ worker with evaluated := worker.evaluated + 1, phase } : Worker).outlook predicate failFast
      (token.cancel? cancels).isCancelled = worker.outlook predicate failFast token.isCancelled := by
  obtain ⟨hdecides, hhalts⟩ : _ ∧ predicate.halts failFast worker.next = _ :=
    Predicate.halts_of_decided hcall
  have hcancelled : (token.cancel? cancels).isCancelled = predicate.ends failFast worker.next := by
    rw [Predicate.ends, hdecides, hhalts]
    cases cancels with
    | none => exact htoken
    | some scope => exact token.isCancelled_cancel scope
  rw [outlook_of_next hphase hlt, Worker.outlook_of_running hending hcalls, hcancelled,
    Worker.called_of_decided hphase hlt hending, Worker.calls?_of_evaluating hphase, Option.toList_some,
    List.append_assoc, List.singleton_append]
  rfl

/-- A call that goes wrong is the last. -/
theorem outlook_of_mishap {ending : Ending} {token : Bool} (hphase : worker.phase = .evaluating)
    (hlt : worker.evaluated < worker.range.length) (hfault : ending.isFault = true)
    (hcall : predicate.decides worker.next = false) (cancelled : Bool) :
    ({ worker with phase := .stopped ending .sender } : Worker).outlook predicate failFast token =
      worker.outlook predicate failFast cancelled := by
  have hends : predicate.ends failFast worker.next = true := by rw [Predicate.ends, hcall]; rfl
  rw [outlook_of_next hphase hlt, hends, if_pos rfl, Worker.outlook_of_ending? rfl,
    Worker.called_of_fault hphase hfault, Worker.calls?_of_evaluating hphase]
  rfl

section

variable (h : Moves rules kept before sent after) (hsteady : before.worker.Steady rules before.token)
  {published : List Nat} (haccounts : before.worker.Accounts rules.predicate published)
  (hopen : before.link.channel.receiving = true)
  (hroom : ∀ value, before.worker.inHand? = some value →
    before.link.channel.buffer.size + kept < before.link.channel.capacity)

include h hsteady haccounts hopen hroom

/-- Where there is room no move changes what the predicate will have been called on. -/
theorem outlook_eq : after.worker.outlook rules.predicate rules.failFast after.token.isCancelled =
    before.worker.outlook rules.predicate rules.failFast before.token.isCancelled := by
  have hlt := haccounts.lt_of_evaluating
  have hquiet := h.called_of_quiet haccounts
  cases h with
  | enter hphase hless htoken =>
      have hcalled := hquiet (by simp only [Worker.calls?, hphase])
      rw [Worker.outlook_of_evaluating rfl, hcalled, Worker.outlook, hphase, htoken]
      rfl
  | complete hphase hend =>
      have hcalled := hquiet (by simp only [Worker.calls?, hphase])
      rw [Worker.outlook_of_ending? rfl, hcalled, Worker.outlook, hphase, Worker.ahead_of_end hend]
      simp [takeThrough]
  | quit hphase hless htoken =>
      have hcalled := hquiet (by simp only [Worker.calls?, hphase])
      rw [Worker.outlook_of_ending? rfl, hcalled, Worker.outlook, hphase, htoken]
      exact (List.append_nil _).symm
  | fail reason hphase hcall =>
      exact outlook_of_mishap hphase (hlt hphase) rfl (by rw [Predicate.decides, hcall]) _
  | panic payload hphase hcall =>
      exact outlook_of_mishap hphase (hlt hphase) rfl (by rw [Predicate.decides, hcall]) _
  | reject cancels hphase hcall =>
      exact outlook_of_decided hphase (hlt hphase) hcall (hsteady.calm hphase)
        (ending?_afterValue rules _ _ _ _)
        (calls?_afterValue rules _ _ _ _).1
  | accept cancels hphase hcall =>
      exact outlook_of_decided hphase (hlt hphase) hcall (hsteady.calm hphase) rfl rfl
  | send value hhand htoken _ hfree =>
      have hcalled := hquiet (Worker.calls?_of_inHand? hhand)
      rw [Worker.outlook_of_running (ending?_afterValue rules _ _ _ _)
        (calls?_afterValue rules _ _ _ _).1, hcalled,
        Worker.outlook_of_running (Worker.ending?_of_inHand? hhand) (Worker.calls?_of_inHand? hhand)]
      rfl
  | disconnect value hhand htoken hclosed => exact absurd (hopen.symm.trans hclosed) (by decide)
  | giveUp value hhand hcrowded htoken =>
      rcases hcrowded with hwaiting | ⟨-, hcrowded⟩
      · exact absurd (hsteady.waiting.symm.trans hwaiting) (by decide)
      · exact absurd hcrowded (Nat.not_le.2 (hroom value hhand))
  | suspend value hphase _ hcrowded htoken =>
      exact absurd hcrowded (Nat.not_le.2 (hroom value (by simp only [Worker.inHand?, hphase])))
  | goOn hphase =>
      have hcalled := hquiet (by simp only [Worker.calls?, hphase])
      rw [Worker.outlook_of_running rfl rfl, hcalled, Worker.outlook, hphase]
      rfl
  | dropSender ending hphase | dropTicket ending hphase | alarm ending hphase =>
      have hcalled := hquiet (by simp only [Worker.calls?, hphase])
      rw [Worker.outlook_of_ending? rfl, hcalled, Worker.outlook, hphase, List.append_nil]

omit hopen hroom in
/-- A call that halts the job is heard of by the time that its worker is gone. -/
theorem heard (hany : after.worker.called.any (rules.predicate.halts rules.failFast) = true) :
    after.token.isCancelled = true ∨ after.worker.owes rules = true := by
  have hmono := h.token_cancelled
  rw [h.called_eq haccounts.lt_of_evaluating, List.any_append, Bool.or_eq_true] at hany
  rcases hany with hbefore | hnew
  · rcases hsteady.heard hbefore with htoken | howes
    · exact .inl (hmono htoken)
    · cases h with
      | dropSender ending hphase =>
          simp only [Worker.owes, hphase] at howes
          exact .inr howes
      | dropTicket ending hphase =>
          simp only [Worker.owes, hphase, beq_iff_eq] at howes
          refine .inr ?_
          rw [howes]
          rfl
      | alarm ending hphase => exact .inl (Token.isCancelled_cancel _ _)
      | send _ hhand _ _ _ | disconnect _ hhand _ _ | giveUp _ hhand _ _ =>
          rw [Worker.owes_of_running rules (Worker.ending?_of_inHand? hhand)] at howes
          cases howes
      | enter hphase _ _ | complete hphase _ | quit hphase _ _ | fail _ hphase _ | panic _ hphase _
      | reject _ hphase _ | accept _ hphase _ | suspend _ hphase _ _ _ | goOn hphase =>
          simp only [Worker.owes, hphase] at howes
          cases howes
  · cases h with
    | fail reason hphase hcall =>
        rw [Worker.any_calls?_of_evaluating hphase, Predicate.halts, hcall] at hnew
        refine .inl ?_
        dsimp only at hnew ⊢
        rw [if_pos hnew]
        exact Token.isCancelled_cancel _ _
    | panic payload hphase hcall =>
        rw [Worker.any_calls?_of_evaluating hphase, Predicate.halts, hcall] at hnew
        refine .inr ?_
        dsimp only at hnew
        simp only [Worker.owes, Ending.afterTicket, hnew, if_true, beq_self_eq_true]
    | reject cancels hphase hcall | accept cancels hphase hcall =>
        rw [Worker.any_calls?_of_evaluating hphase, Predicate.halts, hcall] at hnew
        obtain ⟨scope, rfl⟩ := Option.isSome_iff_exists.1 hnew
        exact .inl (Token.isCancelled_cancel _ _)
    | send _ hhand _ _ _ | disconnect _ hhand _ _ | giveUp _ hhand _ _ =>
        rw [Worker.calls?_of_inHand? hhand] at hnew
        cases hnew
    | enter hphase _ _ | complete hphase _ | quit hphase _ _ | suspend _ hphase _ _ _ | goOn hphase
    | dropSender _ hphase | dropTicket _ hphase | alarm _ hphase =>
        simp only [Worker.calls?, hphase] at hnew
        cases hnew

omit hsteady hopen hroom in
/-- A worker that makes a call that halts has called the predicate on a value that does. -/
theorem any_called_of_halts (hphase : before.worker.phase = .evaluating)
    (hhalts : rules.predicate.halts rules.failFast before.worker.next = true) :
    after.worker.called.any (rules.predicate.halts rules.failFast) = true := by
  rw [h.called_eq haccounts.lt_of_evaluating, List.any_append,
    Worker.any_calls?_of_evaluating hphase, hhalts, Bool.or_true]

omit hopen hroom in
/-- A worker cancels its job only by a call that halts it. -/
theorem halts_of_token (hafter : after.token.isCancelled = true) : before.token.isCancelled = true ∨
    after.worker.called.any (rules.predicate.halts rules.failFast) = true := by
  have hcalled := h.any_called_of_halts haccounts
  have hstays := h.any_called haccounts (p := rules.predicate.halts rules.failFast)
  cases h with
  | fail reason hphase hcall =>
      by_cases hfailFast : rules.failFast = true
      · exact .inr (hcalled hphase (by rw [Predicate.halts, hcall, hfailFast]))
      · rw [if_neg hfailFast] at hafter
        exact .inl hafter
  | reject cancels hphase hcall | accept cancels hphase hcall =>
      cases cancels with
      | none => exact .inl hafter
      | some scope => exact .inr (hcalled hphase (by rw [Predicate.halts, hcall]; rfl))
  | alarm ending hphase =>
      exact .inr (hstays (hsteady.owed (by simp only [Worker.owes, hphase])))
  | _ => exact .inl hafter

omit hopen hroom in
/-- A worker that is to cancel its job has made a call that halts it. -/
theorem owed (howes : after.worker.owes rules = true) :
    after.worker.called.any (rules.predicate.halts rules.failFast) = true := by
  have hcalled := h.any_called_of_halts haccounts
  have hstays := h.any_called haccounts (p := rules.predicate.halts rules.failFast)
  cases h with
  | panic payload hphase hcall =>
      have hfailFast : rules.failFast = true := by
        simpa [Worker.owes, Ending.afterTicket] using howes
      exact hcalled hphase (by rw [Predicate.halts, hcall, hfailFast])
  | dropSender ending hphase =>
      refine hstays (hsteady.owed ?_)
      simp only [Worker.owes, hphase]
      exact howes
  | dropTicket ending hphase =>
      refine hstays (hsteady.owed ?_)
      rcases afterTicket_cases rules ending with hleft | hleft
      · simp only [Worker.owes, hphase, hleft, beq_self_eq_true]
      · rw [Worker.owes, hleft] at howes
        cases howes
  | reject _ _ _ | send _ _ _ _ _ =>
      rw [Worker.owes_of_running rules (ending?_afterValue rules _ _ _ _)] at howes
      cases howes
  | _ => cases howes

/-- Where there is room, a worker that is cancelled has nothing in hand. -/
theorem whole (hending : after.worker.ending? = some .cancelled) :
    after.worker.accepted = after.worker.called.countP rules.predicate.accepts := by
  have hquiet := h.called_of_quiet haccounts
  cases h with
  | quit hphase _ _ =>
      have hcalled := hquiet (by simp only [Worker.calls?, hphase])
      obtain ⟨rest, hrest, hholds⟩ := haccounts.balance
      simp only [Worker.Holds, hphase] at hholds
      rw [hholds, List.append_nil] at hrest
      rw [hcalled, List.countP_eq_length_filter, haccounts.filter_accepts_called, ← hrest]
      exact haccounts.accepted
  | giveUp value hhand hcrowded _ =>
      rcases hcrowded with hwaiting | ⟨-, hcrowded⟩
      · exact absurd (hsteady.waiting.symm.trans hwaiting) (by decide)
      · exact absurd hcrowded (Nat.not_le.2 (hroom value hhand))
  | dropSender ending hphase | dropTicket ending hphase | alarm ending hphase =>
      cases hending
      rw [hquiet (by simp only [Worker.calls?, hphase])]
      exact hsteady.whole (by simp only [Worker.ending?, hphase])
  | reject _ _ _ | send _ _ _ _ _ =>
      rw [ending?_afterValue] at hending
      cases hending
  | _ => cases hending

theorem steady : after.worker.Steady rules after.token where
  heard := h.heard hsteady haccounts
  owed := h.owed hsteady haccounts
  calm hphase := by
    cases h with
    | enter _ _ htoken => exact htoken
    | reject _ _ _ | send _ _ _ _ _ =>
        rcases afterValue_cases rules _ with hafter | hafter <;> rw [hafter] at hphase <;> cases hphase
    | _ => cases hphase
  waiting := by
    cases h with
    | suspend value hphase _ hcrowded _ =>
        exact absurd hcrowded (Nat.not_le.2 (hroom value (by simp only [Worker.inHand?, hphase])))
    | reject _ _ _ | send _ _ _ _ _ => exact isWaiting_afterValue rules _ _ _ _
    | _ => rfl
  connected hending := by
    rcases h.ending_cases hending with hbefore | ⟨-, hlost⟩
    · exact hsteady.connected hbefore
    · exact absurd ((hlost rfl).1.symm.trans hopen) (by decide)
  whole := h.whole hsteady haccounts hopen hroom
  yielding hphase := by
    cases h with
    | reject _ _ _ => exact ⟨Nat.succ_pos _, mod_of_afterValue hphase⟩
    | send value hhand _ _ _ =>
        exact ⟨haccounts.evaluated_pos_of_inHand? hhand, mod_of_afterValue hphase⟩
    | _ => cases hphase

end

end Station.Moves

end ParallelFilter
