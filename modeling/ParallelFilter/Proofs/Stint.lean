import ParallelFilter.Proofs.Agreement
import ParallelFilter.Proofs.Scheduling

/-! A worker on its own, with the channel it sends to. Its moves may come as they like between
receives, cancellations and the loss of the receiver, and the worker may be dropped where it stands;
it moves no more then. The predicate was called on the values of the range in their order, what went
into the channel is what it accepted, and at most one accepted value is missing there: the last one,
whose sending is pending or was given up. -/

namespace ParallelFilter

namespace Worker

variable {worker : Worker}

/-- The value on which the worker's next move calls the predicate, if that is what the move does. -/
def calls? (worker : Worker) : Option Nat :=
  match worker.phase with
  | .evaluating => some worker.next
  | _ => none

/-- What the predicate was called on: the values it has decided, and the one that stopped the worker. -/
def called (worker : Worker) : List Nat :=
  worker.range.firstValues worker.evaluated ++ if worker.hasFaulted then [worker.next] else []

theorem hasFaulted_of_running (h : worker.ending? = none) : worker.hasFaulted = false := by
  rw [hasFaulted, h]
  rfl

theorem called_of_running (h : worker.ending? = none) :
    worker.called = worker.range.firstValues worker.evaluated := by
  rw [called, hasFaulted_of_running h, if_neg (by decide), List.append_nil]

theorem called_of_join? {next : Worker} {outcome : WorkerOutcome}
    (h : worker.join? = some (outcome, next)) :
    next.called = worker.called := by
  have hending := ending?_of_join? h
  obtain ⟨ending, -, rfl, -⟩ := join?_eq_some h
  rw [called, called, hasFaulted, hasFaulted, hending]
  rfl

theorem calls?_of_inHand? {value : Nat} (h : worker.inHand? = some value) : worker.calls? = none := by
  rcases phase_of_inHand? h with hphase | hphase <;> simp only [calls?, hphase]

/-- A worker that calls the predicate on nothing and does not stop with a fault has called it on
what it had. -/
theorem called_of_still {phase : Phase} (hcalls : worker.calls? = none)
    (hfaulted : ({ worker with phase } : Worker).hasFaulted = worker.hasFaulted) :
    ({ worker with phase } : Worker).called = worker.called ++ worker.calls?.toList := by
  rw [hcalls, Option.toList_none, List.append_nil, called, called, hfaulted]
  rfl

theorem called_of_fault {ending : Ending} (hphase : worker.phase = .evaluating)
    (hending : ending.isFault = true) :
    ({ worker with phase := .stopped ending .sender } : Worker).called = worker.called ++
      worker.calls?.toList := by
  have hbefore : worker.ending? = none := by simp only [ending?, hphase]
  have hafter : ({ worker with phase := .stopped ending .sender } : Worker).hasFaulted = true := hending
  rw [called_of_running hbefore, called, hafter, if_pos rfl]
  simp only [calls?, hphase]
  rfl

theorem called_of_decided {phase : Phase} (hphase : worker.phase = .evaluating)
    (hlt : worker.evaluated < worker.range.length)
    (hafter : ({ worker with evaluated := worker.evaluated + 1, phase } : Worker).ending? = none) :
    ({ worker with evaluated := worker.evaluated + 1, phase } : Worker).called =
      worker.called ++ worker.calls?.toList := by
  have hbefore : worker.ending? = none := by simp only [ending?, hphase]
  rw [called_of_running hbefore, called_of_running hafter]
  simp only [calls?, hphase]
  exact Span.firstValues_succ hlt

end Worker

namespace Station.Moves

variable {rules : Rules} {before after : Station} {sent : Option Nat} {kept : Nat}

/-- What a move puts into the channel is the last in its buffer then. -/
theorem buffer_eq (h : Moves rules kept before sent after) :
    after.link.channel.buffer.toList = before.link.channel.buffer.toList ++ sent.toList := by
  cases h.touches with
  | nothing hlink _ _ | loseSender hlink _ _ _ | loseTicket hlink _ _ _ _ =>
      rw [hlink]
      exact (List.append_nil _).symm
  | put value hlink _ _ _ _ =>
      rw [hlink]
      exact Queue.toList_push _ value

/-- The predicate is called on one value more by a move that evaluates, and by no other. -/
theorem called_eq (h : Moves rules kept before sent after)
    (hlt : before.worker.phase = .evaluating → before.worker.evaluated < before.worker.range.length) :
    after.worker.called = before.worker.called ++ before.worker.calls?.toList := by
  cases h with
  | enter hphase _ _ | suspend _ hphase _ _ _ | goOn hphase | dropSender _ hphase | dropTicket _ hphase
  | alarm _ hphase =>
      apply Worker.called_of_still
      · simp only [Worker.calls?, hphase]
      · simp only [Worker.hasFaulted, Worker.ending?, hphase]
  | complete hphase _ | quit hphase _ _ =>
      apply Worker.called_of_still
      · simp only [Worker.calls?, hphase]
      · simp only [Worker.hasFaulted, Worker.ending?, hphase]
        rfl
  | fail reason hphase _ | panic payload hphase _ => exact Worker.called_of_fault hphase rfl
  | reject cancels hphase _ =>
      exact Worker.called_of_decided hphase (hlt hphase) (ending?_afterValue rules _ _ _ _)
  | accept cancels hphase _ => exact Worker.called_of_decided hphase (hlt hphase) rfl
  | send value hhand _ _ _ =>
      rw [Worker.called_of_running (ending?_afterValue rules _ _ _ _),
        Worker.called_of_running (Worker.ending?_of_inHand? hhand), Worker.calls?_of_inHand? hhand,
        Option.toList_none, List.append_nil]
  | disconnect value hhand _ _ | giveUp value hhand _ _ =>
      apply Worker.called_of_still (Worker.calls?_of_inHand? hhand)
      rw [Worker.hasFaulted_of_running (Worker.ending?_of_inHand? hhand)]
      rfl

end Station.Moves

namespace Worker

variable {predicate : Predicate} {worker : Worker} {sent : List Nat}

/-- The value was accepted, and it is not sent: it is in hand, or was given up. -/
def Unsent (worker : Worker) (value : Nat) : Prop :=
  worker.inHand? = some value ∨ worker.ending? = some .cancelled ∨ worker.ending? = some .disconnected

/-- What is left over is one value at most. -/
theorem Holds.cases {rest : List Nat} (h : worker.Holds predicate rest) :
    rest = [] ∨ ∃ value, rest = [value] ∧ value + 1 = worker.next ∧ worker.Unsent value := by
  obtain ⟨id, range, evaluated, accepted, phase⟩ := worker
  cases phase with
  | ready | yielding => exact .inl h
  | evaluating => exact .inl h.1
  | offering value | waiting value => exact .inr ⟨value, h.1, h.2, .inl rfl⟩
  | stopped ending remains =>
      cases ending with
      | completed | failed _ | panicked _ => exact .inl h.1
      | cancelled =>
          rcases h with ⟨hrest, -⟩ | ⟨value, hrest, hnext⟩
          · exact .inl hrest
          · exact .inr ⟨value, hrest, hnext, .inr (.inl rfl)⟩
      | disconnected =>
          obtain ⟨value, hrest, hnext⟩ := h
          exact .inr ⟨value, hrest, hnext, .inr (.inr rfl)⟩

/-- The counts of a worker are right: it has called the predicate on `calls`, and has sent `sent`. -/
structure Exact (predicate : Predicate) (worker : Worker) (calls sent : List Nat) : Prop where
  /-- What was sent is the beginning of the accepted values of the range. -/
  sent_eq : sent = (worker.range.values.filter predicate.accepts).take worker.accepted
  accepted_eq : worker.accepted = sent.length
  evaluated_le : worker.evaluated ≤ worker.range.length
  /-- The predicate was called on the values in order and once each, and has decided those that are
  counted. -/
  calls_eq : calls = worker.range.firstValues worker.evaluated ++
    if worker.hasFaulted then [worker.next] else []
  decided : calls.filter predicate.decides = worker.range.firstValues worker.evaluated
  /-- At most one value that was accepted is missing, and it is the one evaluated last. -/
  balance : (predicate.hits worker.range worker.evaluated).length = worker.accepted ∨
    (predicate.hits worker.range worker.evaluated).length = worker.accepted + 1 ∧
      ∃ value, value + 1 = worker.next ∧ predicate.accepts value = true ∧ worker.Unsent value
  completed : ∀ summary, worker.report? = some summary → summary.status = .completed →
    summary.evaluated = worker.range.length ∧ sent = worker.range.values.filter predicate.accepts
  faulted : ∀ summary, worker.report? = some summary →
    (summary.status = .faulted ↔ ∃ fault, worker.fault? = some fault)
  /-- A fault lies on the value after those that were decided, and what was accepted before it was
  sent. -/
  fault : ∀ fault, worker.fault? = some fault → worker.evaluated < worker.range.length ∧
    predicate.faultOn worker.id worker.range worker.next = some fault ∧
      sent = predicate.hits worker.range worker.evaluated

namespace Accounts

variable (h : worker.Accounts predicate sent)

include h

theorem length_hits : (predicate.hits worker.range worker.evaluated).length = worker.accepted ∨
    (predicate.hits worker.range worker.evaluated).length = worker.accepted + 1 ∧
      ∃ value, value + 1 = worker.next ∧ predicate.accepts value = true ∧ worker.Unsent value := by
  obtain ⟨rest, hrest, hholds⟩ := h.balance
  rw [← hrest, List.length_append, h.accepted]
  rcases hholds.cases with rfl | ⟨value, rfl, hnext, hunsent⟩
  · exact .inl rfl
  · have hhit : value ∈ predicate.hits worker.range worker.evaluated :=
      hrest ▸ List.mem_append_right _ List.mem_cons_self
    exact .inr ⟨rfl, value, hnext, (List.mem_filter.1 hhit).2, hunsent⟩

/-- A worker with a fault has stopped at the value that led to it. -/
theorem of_fault? {fault : Fault} (hfault : worker.fault? = some fault) :
    worker.evaluated < worker.range.length ∧ sent = predicate.hits worker.range worker.evaluated ∧
      predicate.decides worker.next = false := by
  unfold fault? at hfault
  split at hfault
  · rename_i reason hending
    obtain ⟨hlt, hsent, hcall⟩ := h.of_failed hending
    exact ⟨hlt, hsent, by simp only [Predicate.decides, hcall]⟩
  · rename_i payload hending
    obtain ⟨hlt, hsent, hcall⟩ := h.of_panicked hending
    exact ⟨hlt, hsent, by simp only [Predicate.decides, hcall]⟩
  · cases hfault

theorem filter_called :
    worker.called.filter predicate.decides = worker.range.firstValues worker.evaluated := by
  rw [called, List.filter_append, List.filter_eq_self.2 h.decided]
  split
  · rename_i hfaulted
    rw [← isSome_fault?, Option.isSome_iff_exists] at hfaulted
    obtain ⟨fault, hfault⟩ := hfaulted
    obtain ⟨-, -, hnot⟩ := h.of_fault? hfault
    rw [List.filter_singleton, hnot]
    exact List.append_nil _
  · exact List.append_nil _

theorem exact : worker.Exact predicate worker.called sent where
  sent_eq := h.sent_eq_take
  accepted_eq := h.accepted
  evaluated_le := h.evaluated_le
  calls_eq := rfl
  decided := h.filter_called
  balance := h.length_hits
  completed := by
    intro summary hsummary hcompleted
    obtain ⟨ending, hending, rfl⟩ := Option.map_eq_some_iff.1 hsummary
    cases ending with
    | completed =>
        obtain ⟨hend, hsent⟩ := h.of_completed hending
        exact ⟨hend, by rw [hsent, hend, Predicate.hits_length]⟩
    | cancelled | disconnected | failed _ | panicked _ => cases hcompleted
  faulted := by
    intro summary hsummary
    obtain ⟨ending, hending, rfl⟩ := Option.map_eq_some_iff.1 hsummary
    rw [← Option.isSome_iff_exists, isSome_fault?, hasFaulted, hending]
    exact Ending.status_eq_faulted
  fault := by
    intro fault hfault
    obtain ⟨hlt, hsent, -⟩ := h.of_fault? hfault
    exact ⟨hlt, h.faultOn_of_fault? hfault, hsent⟩

end Accounts

end Worker

/-- Being dropped, a worker leaves what is buffered, and the receiver. -/
theorem Station.abandon_channel (station : Station) :
    station.abandon.channel.buffer = station.link.channel.buffer ∧
      station.abandon.channel.receiving = station.link.channel.receiving := by
  rw [abandon]
  split <;> exact ⟨rfl, rfl⟩

theorem Station.isActive_run (rules : Rules) (station : Station) :
    (station.run rules).worker.isActive = false := by
  induction station using Station.run.induct rules with
  | case1 station hactive ih => rwa [run, if_pos hactive]
  | case2 station hinactive =>
      rw [run, if_neg hinactive]
      exact Bool.eq_false_iff.2 hinactive

structure Stint where
  station : Station
  /-- Whether the worker was dropped. -/
  dropped : Bool
  /-- What the predicate was called on, oldest first. -/
  calls : List Nat
  /-- What the worker has put into the channel, oldest first. -/
  sent : List Nat
  /-- What was received, oldest first. -/
  taken : List Nat

namespace Stint

inductive Event where
  /-- The worker makes a move. -/
  | move
  /-- A value is received, if one is buffered. -/
  | receive
  | cancel (scope : Scope)
  | dropReceiver
  | drop
  deriving DecidableEq

/-- A worker that has not moved yet. -/
def ofRange (id : Nat) (range : Span) (link : ResultChannel) (token : Token) : Stint :=
  ⟨⟨.ofRange id range, link, token⟩, false, [], [], []⟩

/-- The stint after the worker's move. -/
def moved (rules : Rules) (stint : Stint) : Stint :=
  { stint with
    station := stint.station.step rules
    calls := stint.calls ++ stint.station.worker.calls?.toList
    sent := stint.sent ++ (stint.station.sends? rules).toList }

/-- The stint after the event, if the event can happen. -/
def step (rules : Rules) (stint : Stint) : Event → Option Stint
  | .move => if stint.dropped || stint.station.isBlocked then none else some (stint.moved rules)
  | .receive =>
    if stint.station.link.channel.receiving then
      match stint.station.link.channel.take with
      | .value value channel =>
        some { stint with station.link.channel := channel, taken := stint.taken ++ [value] }
      | .empty | .closed => some stint
    else none
  | .cancel scope => some { stint with station.token := stint.station.token.cancel scope }
  | .dropReceiver =>
    if stint.station.link.channel.receiving then
      some { stint with station.link := stint.station.link.dropDrain }
    else none
  | .drop =>
    if stint.dropped then none
    else some { stint with station.link := stint.station.abandon, dropped := true }

/-- The stint after the events, if they can happen one after another. -/
def follow (rules : Rules) (stint : Stint) (events : List Event) : Option Stint :=
  events.foldlM (step rules) stint

variable {rules : Rules} {predicate : Predicate} {id : Nat} {range : Span} {link : ResultChannel}
  {token : Token} {stint next later : Stint} {event : Event} {events : List Event}

/-- What holds of a worker on its own at every moment. -/
structure Sound (predicate : Predicate) (id : Nat) (range : Span) (stint : Stint) : Prop where
  id_range : stint.station.worker.id = id ∧ stint.station.worker.range = range
  accounts : stint.station.worker.Accounts predicate stint.sent
  calls : stint.calls = stint.station.worker.called
  taken : stint.taken <+: stint.sent
  /-- As long as there is a receiver, what it has not taken is buffered. -/
  queue : stint.station.link.channel.receiving = true →
    stint.sent = stint.taken ++ stint.station.link.channel.buffer.toList

theorem Sound.ofRange {capacity : Nat} (hlink : ResultChannel.make capacity 1 = .ok link) :
    (ofRange id range link token).Sound predicate id range where
  id_range := ⟨rfl, rfl⟩
  accounts := Worker.accounts_ofRange id range
  calls := by
    rw [Worker.called_of_running rfl, Span.firstValues_eq_take]
    rfl
  taken := List.prefix_rfl
  queue := by
    obtain ⟨-, -, rfl⟩ := ResultChannel.make_eq_ok.1 hlink
    exact fun _ => rfl

theorem Sound.moved (h : stint.Sound rules.predicate id range)
    (hfree : stint.station.isBlocked = false) :
    (stint.moved rules).Sound rules.predicate id range := by
  have hmoves : Station.Moves rules 0 stint.station (stint.station.sends? rules)
      (stint.station.step rules) :=
    Station.step_moves stint.station hfree
  obtain ⟨hid, hrange⟩ := hmoves.id_range
  obtain ⟨hreceiving, -⟩ := hmoves.drain_eq
  refine ⟨⟨hid.trans h.id_range.1, hrange.trans h.id_range.2⟩, h.accounts.moves hmoves, ?_, ?_,
    fun hopen => ?_⟩
  · rw [Stint.moved, h.calls]
    refine (hmoves.called_eq fun hphase => ?_).symm
    obtain ⟨rest, -, hholds⟩ := h.accounts.balance
    simp only [Worker.Holds, hphase] at hholds
    exact hholds.2
  · exact h.taken.trans (List.prefix_append _ _)
  · rw [Stint.moved, h.queue (hreceiving ▸ hopen), hmoves.buffer_eq, List.append_assoc]

theorem Sound.step (h : stint.Sound rules.predicate id range)
    (hstep : stint.step rules event = some next) :
    next.Sound rules.predicate id range := by
  cases event with
  | move =>
      simp only [Stint.step] at hstep
      split at hstep
      · cases hstep
      · rename_i hfree
        cases hstep
        exact h.moved ((Bool.or_eq_false_iff.1 (Bool.eq_false_iff.2 hfree)).2)
  | receive =>
      simp only [Stint.step] at hstep
      split at hstep
      · rename_i hopen
        have hqueue := h.queue hopen
        rcases stint.station.link.channel.take_cases with ⟨value, rest, htake, hbuffer⟩ |
          ⟨htake, -⟩ | ⟨htake, -⟩
        · rw [htake] at hstep
          cases hstep
          rw [hbuffer, ← List.singleton_append, ← List.append_assoc] at hqueue
          exact ⟨h.id_range, h.accounts, h.calls, ⟨_, hqueue.symm⟩, fun _ => hqueue⟩
        · rw [htake] at hstep
          cases hstep
          exact h
        · rw [htake] at hstep
          cases hstep
          exact h
      · cases hstep
  | cancel scope =>
      cases hstep
      exact ⟨h.id_range, h.accounts, h.calls, h.taken, h.queue⟩
  | dropReceiver =>
      simp only [Stint.step] at hstep
      split at hstep
      · cases hstep
        exact ⟨h.id_range, h.accounts, h.calls, h.taken, nofun⟩
      · cases hstep
  | drop =>
      simp only [Stint.step] at hstep
      split at hstep
      · cases hstep
      · cases hstep
        obtain ⟨hbuffer, hreceiving⟩ := stint.station.abandon_channel
        refine ⟨h.id_range, h.accounts, h.calls, h.taken, fun hopen => ?_⟩
        rw [hbuffer]
        exact h.queue (hreceiving ▸ hopen)

/-- A resumption is so many moves. -/
theorem reaches_run (rules : Rules) (stint : Stint) (hpresent : stint.dropped = false) :
    ∃ later, Reaches (step rules) stint later ∧ later.station = stint.station.run rules := by
  generalize hstation : stint.station = station
  induction station using Station.run.induct rules generalizing stint with
  | case1 station hactive ih =>
      obtain ⟨later, hlater, hends⟩ := ih (stint.moved rules) hpresent (by rw [Stint.moved, hstation])
      have hfree : stint.station.isBlocked = false := hstation ▸ Station.isBlocked_of_isActive hactive
      have hstep : stint.step rules .move = some (stint.moved rules) := by
        rw [step, hpresent, hfree]
        rfl
      rw [Station.run, if_pos hactive]
      exact ⟨later, (Reaches.ofStep .move hstep).trans hlater, hends⟩
  | case2 station hinactive =>
      rw [Station.run, if_neg hinactive]
      exact ⟨stint, .refl _ stint, hstation⟩

theorem reaches_resume (rules : Rules) (stint : Stint) (hpresent : stint.dropped = false) :
    ∃ later, Reaches (step rules) stint later ∧ later.station = stint.station.resume rules := by
  cases hblocked : stint.station.isBlocked with
  | true => exact ⟨stint, .refl _ stint, (Station.resume_of_isBlocked hblocked).symm⟩
  | false =>
      have hstep : stint.step rules .move = some (stint.moved rules) := by
        rw [step, hpresent, hblocked]
        rfl
      obtain ⟨later, hlater, hends⟩ := reaches_run rules (stint.moved rules) hpresent
      exact ⟨later, (Reaches.ofStep .move hstep).trans hlater, hends⟩

/-- What is known of a worker on its own, whatever has happened to it. -/
structure Exact (predicate : Predicate) (id : Nat) (range : Span) (stint : Stint) : Prop where
  id_range : stint.station.worker.id = id ∧ stint.station.worker.range = range
  counts : stint.station.worker.Exact predicate stint.calls stint.sent
  taken : stint.taken <+: stint.sent
  /-- As long as there is a receiver, what it has not taken is buffered. -/
  queue : stint.station.link.channel.receiving = true →
    stint.sent = stint.taken ++ stint.station.link.channel.buffer.toList

theorem Sound.exact (h : stint.Sound predicate id range) : stint.Exact predicate id range where
  id_range := h.id_range
  counts := by
    rw [h.calls]
    exact h.accounts.exact
  taken := h.taken
  queue := h.queue

/-- **The accounts of a worker are exact at every moment.** A worker begins a range, with a channel
of its own. Whatever happens to it then, between any two of its moves, it has sent the first
accepted values of its range, as many as it counts; it has called the predicate on the first values,
and all of those it counts were decided; and an accepted value that is missing among those sent is
the one evaluated last. A resumption is made of such moves, and ends with the worker suspended or
gone. -/
theorem exact_at_every_moment {capacity : Nat} (hlink : ResultChannel.make capacity 1 = .ok link)
    (hrun : (ofRange id range link token).follow rules events = some stint) :
    stint.Exact rules.predicate id range ∧
      (stint.dropped = false → ∃ later, Reaches (step rules) stint later ∧
        later.station = stint.station.resume rules ∧ later.station.worker.isActive = false ∧
          later.Exact rules.predicate id range) := by
  have hsound : stint.Sound rules.predicate id range :=
    foldlM_induction (fun _ _ _ _ h hstep => h.step hstep) (Sound.ofRange hlink) hrun
  refine ⟨hsound.exact, fun hpresent => ?_⟩
  obtain ⟨later, ⟨others, hothers⟩, hstation⟩ := reaches_resume rules stint hpresent
  have hlater : later.Sound rules.predicate id range :=
    foldlM_induction (fun _ _ _ _ h hstep => h.step hstep) hsound hothers
  refine ⟨later, ⟨others, hothers⟩, hstation, ?_, hlater.exact⟩
  rw [hstation]
  exact Station.isActive_run rules _

/-- All values are accepted, until the predicate fails on three. -/
def upToThree : Rules where
  predicate value := if value = 3 then .failed "three" else .decided true none
  yieldInterval := 2
  yieldInterval_pos := Nat.two_pos
  failFast := true

/-- A worker with four values before it. -/
def fourValues (capacity : Nat) : Stint :=
  ofRange 0 ⟨0, 4, by decide⟩ ⟨.ofCapacity capacity 1, .ofExpected 1, 0, false⟩ {}

/-- Where there is little room, one worker is cancelled while it waits with its third value, and
another is dropped while it waits with its second. A worker that has the room it needs fails on the
fourth. -/
theorem exact_at_every_moment_four_values :
    (∃ stint, (fourValues 1).follow upToThree
        (.replicate 6 .move ++ .receive :: .replicate 5 .move ++ [.cancel .job, .move]) = some stint ∧
      (stint.sent = [0, 1] ∧ stint.station.worker.evaluated = 3 ∧
        stint.station.worker.ending? = some .cancelled) ∧
          stint.Exact upToThree.predicate 0 ⟨0, 4, by decide⟩) ∧
    (∃ stint, (fourValues 1).follow upToThree (.replicate 6 .move ++ [.drop, .receive]) = some stint ∧
      (stint.sent = [0] ∧ stint.taken = [0] ∧ stint.station.worker.evaluated = 2) ∧
        stint.Exact upToThree.predicate 0 ⟨0, 4, by decide⟩) ∧
    ∃ stint, (fourValues 3).follow upToThree (.replicate 12 .move) = some stint ∧
      (stint.sent = [0, 1, 2] ∧ stint.calls = [0, 1, 2, 3] ∧
        stint.station.worker.fault? = some ⟨0, ⟨0, 4, by decide⟩, some 3, "three"⟩) ∧
      stint.Exact upToThree.predicate 0 ⟨0, 4, by decide⟩ := by
  have hone : ResultChannel.make 1 1 = .ok ⟨.ofCapacity 1 1, .ofExpected 1, 0, false⟩ := rfl
  have hthree : ResultChannel.make 3 1 = .ok ⟨.ofCapacity 3 1, .ofExpected 1, 0, false⟩ := rfl
  have hcancelled : (fourValues 1).follow upToThree
    (.replicate 6 .move ++ .receive :: .replicate 5 .move ++ [.cancel .job, .move]) = some _ := rfl
  have hdropped : (fourValues 1).follow upToThree (.replicate 6 .move ++ [.drop, .receive]) =
      some _ := rfl
  have hfailed : (fourValues 3).follow upToThree (.replicate 12 .move) = some _ := rfl
  exact ⟨⟨_, hcancelled, by decide, (exact_at_every_moment hone hcancelled).1⟩,
    ⟨_, hdropped, by decide, (exact_at_every_moment hone hdropped).1⟩,
    _, hfailed, by decide, (exact_at_every_moment hthree hfailed).1⟩

end Stint

end ParallelFilter
