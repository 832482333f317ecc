import ParallelFilter.Proofs.Backpressure
import ParallelFilter.Proofs.Undisturbed

/-! What the loss of the drain does to a job that is not cancelled and does not stop at its first
fault. From then on nothing is sent. A worker that is stopped stays as it is, one with a value in
hand stops, and each of the others goes on to the first value that it does not reject, or to the end
of its range. So how each worker ends can be told from where it stood when the drain was dropped,
whatever the schedule. -/

namespace ParallelFilter

/-- Whether the predicate decides against the value. -/
def Predicate.rejects (predicate : Predicate) (value : Nat) : Bool :=
  match predicate value with
  | .decided accepted _ => !accepted
  | .failed _ | .panicked _ => false

namespace Worker

/-- The values that have not been evaluated yet. -/
def ahead (worker : Worker) : List Nat :=
  List.range' worker.next worker.remaining

/-- The worker when it was stopped by the given value, the first one that it does not reject, and
has nobody to send to; without such a value it comes to the end of its range. -/
def stoppedBy (predicate : Predicate) (worker : Worker) : Option Nat → Worker
  | none => { worker with evaluated := worker.range.length, phase := .stopped .completed .nothing }
  | some value =>
    match predicate value with
    | .decided _ _ =>
      { worker with
        evaluated := value + 1 - worker.range.start
        phase := .stopped .disconnected .nothing }
    | .failed reason =>
      { worker with
        evaluated := value - worker.range.start
        phase := .stopped (.failed reason) .nothing }
    | .panicked payload =>
      { worker with
        evaluated := value - worker.range.start
        phase := .stopped (.panicked payload) .nothing }

/-- The worker as it is in the end when the drain is gone and nobody cancels the job. -/
def departed (predicate : Predicate) (worker : Worker) : Worker :=
  match worker.phase with
  | .stopped ending _ => { worker with phase := .stopped ending .nothing }
  | .offering _ | .waiting _ => { worker with phase := .stopped .disconnected .nothing }
  | .ready | .evaluating | .yielding =>
    worker.stoppedBy predicate (worker.ahead.find? fun value => !predicate.rejects value)

variable {predicate : Predicate} {worker : Worker}

theorem stoppedBy_counts (predicate : Predicate) (worker : Worker) (value? : Option Nat) :
    (worker.stoppedBy predicate value?).id = worker.id ∧
      (worker.stoppedBy predicate value?).range = worker.range ∧
      (worker.stoppedBy predicate value?).accepted = worker.accepted := by
  unfold stoppedBy
  split
  · exact ⟨rfl, rfl, rfl⟩
  · split <;> exact ⟨rfl, rfl, rfl⟩

/-- Nothing is sent any more. -/
theorem departed_counts (predicate : Predicate) (worker : Worker) :
    (worker.departed predicate).id = worker.id ∧ (worker.departed predicate).range = worker.range ∧
      (worker.departed predicate).accepted = worker.accepted := by
  unfold departed
  split
  · exact ⟨rfl, rfl, rfl⟩
  · exact ⟨rfl, rfl, rfl⟩
  · exact ⟨rfl, rfl, rfl⟩
  all_goals exact stoppedBy_counts predicate worker _

theorem departed_of_ending? {ending : Ending} (h : worker.ending? = some ending) :
    worker.departed predicate = { worker with phase := .stopped ending .nothing } := by
  obtain ⟨remains, hphase⟩ := phase_of_ending? h
  simp only [departed, hphase]

theorem departed_of_inHand? {value : Nat} (h : worker.inHand? = some value) :
    worker.departed predicate = { worker with phase := .stopped .disconnected .nothing } := by
  rcases phase_of_inHand? h with hphase | hphase <;> simp only [departed, hphase]

/-- A worker that is stopped reports what it reports in the end. -/
theorem report?_departed (h : worker.ending?.isSome = true) :
    (worker.departed predicate).report? = worker.report? ∧
      (worker.departed predicate).fault? = worker.fault? := by
  obtain ⟨ending, hending⟩ := Option.isSome_iff_exists.1 h
  rw [departed_of_ending? hending, report?, report?, fault?, fault?, hending]
  exact ⟨rfl, rfl⟩

theorem ahead_of_end (hend : worker.range.length ≤ worker.evaluated) : worker.ahead = [] := by
  rw [ahead, remaining, Nat.sub_eq_zero_of_le hend]
  rfl

theorem ahead_of_lt (hlt : worker.evaluated < worker.range.length) : worker.ahead =
    worker.next :: List.range' (worker.next + 1) (worker.range.length - (worker.evaluated + 1)) := by
  rw [ahead, remaining, show worker.range.length - worker.evaluated =
    worker.range.length - (worker.evaluated + 1) + 1 by omega, List.range'_succ]

theorem departed_of_next (hphase : worker.phase = .evaluating)
    (hlt : worker.evaluated < worker.range.length) (hnot : predicate.rejects worker.next = false) :
    worker.departed predicate = worker.stoppedBy predicate (some worker.next) := by
  simp only [departed, hphase]
  rw [ahead_of_lt hlt, List.find?_cons_of_pos (by rw [hnot]; rfl)]

/-- A value that is rejected is passed over. -/
theorem departed_of_rejects {phase : Phase} (hphase : worker.phase = .evaluating)
    (hlt : worker.evaluated < worker.range.length) (hrejects : predicate.rejects worker.next = true)
    (hafter : phase = .yielding ∨ phase = .ready) :
    ({ worker with evaluated := worker.evaluated + 1, phase } : Worker).departed predicate =
      worker.departed predicate := by
  have hahead : worker.ahead =
      worker.next :: ({ worker with evaluated := worker.evaluated + 1, phase } : Worker).ahead :=
    ahead_of_lt hlt
  have hfind : worker.ahead.find? (fun value => !predicate.rejects value) =
      ({ worker with evaluated := worker.evaluated + 1, phase } : Worker).ahead.find?
        fun value => !predicate.rejects value := by
    rw [hahead, List.find?_cons_of_neg (by rw [hrejects]; decide)]
  have hstopped (value? : Option Nat) :
      ({ worker with evaluated := worker.evaluated + 1, phase } : Worker).stoppedBy predicate value? =
        worker.stoppedBy predicate value? := by
    unfold stoppedBy
    split
    · rfl
    · split <;> rfl
  rcases hafter with rfl | rfl
  · simp only [departed, hphase]
    rw [hfind, hstopped]
  · simp only [departed, hphase]
    rw [hfind, hstopped]

end Worker

namespace Station

variable {rules : Rules} {before after : Station} {sent : Option Nat} {kept : Nat}

/-- When there is nobody to send to and the job is not cancelled, no move sends, and none changes
how the worker ends. -/
theorem Moves.departed_eq (h : Moves rules kept before sent after)
    (hclosed : before.link.channel.receiving = false) (htoken : before.token.isCancelled = false)
    (hle : before.worker.evaluated ≤ before.worker.range.length)
    (hlt : before.worker.phase = .evaluating → before.worker.evaluated < before.worker.range.length) :
    sent = none ∧ after.worker.departed rules.predicate = before.worker.departed rules.predicate := by
  cases h with
  | enter hphase _ _ | goOn hphase =>
      refine ⟨rfl, ?_⟩
      simp only [Worker.departed, hphase]
      rfl
  | complete hphase hend =>
      refine ⟨rfl, ?_⟩
      simp only [Worker.departed, hphase, Worker.ahead_of_end hend, List.find?_nil, Worker.stoppedBy]
      rw [Nat.le_antisymm hle hend]
  | quit _ _ hcancelled | giveUp _ _ _ hcancelled =>
      exact absurd (htoken.symm.trans hcancelled) (by decide)
  | send _ _ _ hopen _ | suspend _ _ hopen _ _ => exact absurd (hclosed.symm.trans hopen) (by decide)
  | fail _ hphase hcall | panic _ hphase hcall =>
      refine ⟨rfl, ?_⟩
      rw [Worker.departed_of_ending? rfl,
        Worker.departed_of_next hphase (hlt hphase) (by rw [Predicate.rejects, hcall]),
          Worker.stoppedBy, hcall]
      simp only [Worker.next, Nat.add_sub_cancel_left]
  | accept _ hphase hcall =>
      refine ⟨rfl, ?_⟩
      rw [Worker.departed_of_inHand? rfl,
        Worker.departed_of_next hphase (hlt hphase) (by rw [Predicate.rejects, hcall]; rfl),
          Worker.stoppedBy, hcall]
      simp only [Worker.next, Nat.add_assoc, Nat.add_sub_cancel_left]
  | reject _ hphase hcall =>
      exact ⟨rfl, Worker.departed_of_rejects hphase (hlt hphase) (by rw [Predicate.rejects, hcall]; rfl)
        (afterValue_cases rules _)⟩
  | disconnect _ hhand _ _ =>
      refine ⟨rfl, ?_⟩
      rw [Worker.departed_of_inHand? hhand]
      exact Worker.departed_of_ending? rfl
  | dropSender ending hphase | dropTicket ending hphase | alarm ending hphase =>
      refine ⟨rfl, ?_⟩
      simp only [Worker.departed, hphase]

/-- A worker that waits for room does not stay when the receiver is gone. -/
theorem resume_of_closed {worker : Worker} {link : ResultChannel} {token : Token}
    (hwaits : worker.isWaiting = true) (hclosed : link.channel.receiving = false)
    (htoken : token.isCancelled = false) :
    resume rules ⟨worker, link, token⟩ =
      ⟨{ worker with phase := .stopped .disconnected .outcome }, link.dropSender.dropTicket,
        token⟩ := by
  unfold Worker.isWaiting at hwaits
  split at hwaits
  · rename_i value hphase
    have hstep : step rules ⟨worker, link, token⟩ =
        ⟨{ worker with phase := .stopped .disconnected .sender }, link, token⟩ := by
      simp only [step, hphase, htoken, Bool.false_eq_true, if_false, send_of_closed _ hclosed]
    rw [resume, hstep, run_of_stopped rfl]
  · cases hwaits

end Station

namespace Pool

/-- The drain is gone, nobody has cancelled the job, and no worker is about to. -/
structure Deserted (pool : Pool) : Prop where
  drain : pool.link.channel.receiving = false
  token : pool.token.isCancelled = false
  alarm : ∀ worker ∈ pool.workers, ∀ ending, worker.phase ≠ .stopped ending .alarm

variable {rules : Rules} {pool after : Pool} {event : Event} {published : Option (Nat × Nat)}
  {answer : Option Polled}

theorem Undisturbed.deserted (h : pool.Undisturbed) :
    Deserted { pool with link := pool.link.dropDrain } where
  drain := rfl
  token := h.token
  alarm worker hworker := (h.worker worker hworker).alarm

theorem Deserted.moves (h : pool.Deserted) (hfailFast : rules.failFast = false)
    (hcalm : rules.predicate.Calm) (hinner : event.isInner = true)
    (hmoves : Moves rules pool event published answer after) : after.Deserted := by
  cases hmoves with
  | work index kept hindex _ moved hmoves =>
      have hquiet := h.alarm _ (Array.getElem_mem hindex)
      refine ⟨hmoves.drain_eq.1.trans h.drain, ?_, forall_mem_set hindex h.alarm
        (hmoves.not_alarm hfailFast)⟩
      rw [hmoves.token_eq hfailFast hcalm hquiet]
      exact h.token
  | join index hindex worker hjoin =>
      obtain ⟨ending, -, rfl, -⟩ := Worker.join?_eq_some hjoin
      exact ⟨h.drain, h.token, forall_mem_set hindex h.alarm nofun⟩
  | dropDrain _ | cancel _ _ => cases hinner
  | register _ | sleep _ _ _ | wake _ _ _ | release _ _ _ | deliver _ _ _ _ _ | finish _ _ _ _ _
  | violate _ _ _ _ _ => exact ⟨h.drain, h.token, h.alarm⟩

namespace History

variable {ranges : List Span} {moment history last : History}

/-- What a history without its drain keeps of the moment at which it was dropped. -/
structure Departs (predicate : Predicate) (moment history : History) : Prop where
  published : history.published = moment.published
  workers : history.pool.workers.map (Worker.departed predicate) =
    moment.pool.workers.map (Worker.departed predicate)

theorem Departs.moves (h : moment.Departs rules.predicate history)
    (hsound : history.Sound rules.predicate ranges) (hdeserted : history.pool.Deserted)
    (hmoves : Moves rules history.pool event published answer after) :
    moment.Departs rules.predicate (history.extend published answer after) := by
  have hsame : history.published ++ (none : Option (Nat × Nat)).toList = moment.published := by
    rw [Option.toList_none, List.append_nil, h.published]
  cases hmoves with
  | work index kept hindex _ moved hmoves =>
      obtain ⟨-, -, haccounts⟩ := hsound.books.worker (Array.getElem?_eq_getElem hindex)
      obtain ⟨rfl, hdeparted⟩ :=
        hmoves.departed_eq hdeserted.drain hdeserted.token haccounts.evaluated_le
        haccounts.lt_of_evaluating
      exact ⟨hsame, (map_set_of_eq hindex hdeparted).trans h.workers⟩
  | join index hindex worker hjoin =>
      have hdeparted : worker.departed rules.predicate =
          history.pool.workers[index].departed rules.predicate := by
        obtain ⟨ending, hphase, rfl, -⟩ := Worker.join?_eq_some hjoin
        simp only [Worker.departed, hphase]
      exact ⟨hsame, (map_set_of_eq hindex hdeparted).trans h.workers⟩
  | _ => exact ⟨hsame, h.workers⟩

/-- What stopped workers leave could be told at the moment. -/
theorem Departs.filterMap_eq {predicate : Predicate} (h : moment.Departs predicate last) {α : Type}
    {f : Worker → Option α}
    (hf : ∀ worker ∈ last.pool.workers, f (worker.departed predicate) = f worker) :
    last.pool.workers.toList.filterMap f =
      moment.pool.workers.toList.filterMap fun worker => f (worker.departed predicate) := by
  have hmap (workers : Array Worker) : (workers.map (Worker.departed predicate)).toList.filterMap f =
      workers.toList.filterMap fun worker => f (worker.departed predicate) := by
    rw [Array.toList_map, List.filterMap_map]
    rfl
  calc
    last.pool.workers.toList.filterMap f
      = last.pool.workers.toList.filterMap fun worker => f (worker.departed predicate) :=
      List.filterMap_congr fun worker hworker => (hf worker (Array.mem_toList_iff.1 hworker)).symm
    _ = moment.pool.workers.toList.filterMap fun worker => f (worker.departed predicate) := by
      rw [← hmap, h.workers, hmap]

/-- How a worker fares when the drain is dropped: where it stood then, and where it stands last. -/
structure Released (rules : Rules) (pool : Pool) (before after : Worker) : Prop where
  accepted : after.accepted = before.accepted
  departs : after.departed rules.predicate = before.departed rules.predicate
  /-- Once it is stopped it reports what it was to report. -/
  reports : after.ending?.isSome = true →
    after.report? = (before.departed rules.predicate).report? ∧
      after.fault? = (before.departed rules.predicate).fault?
  /-- It can always move until it is gone. -/
  free : (pool.station after).isBlocked = true → after.isGone = true
  /-- If it still waits for room, its next resumption ends that. -/
  waits : after.isWaiting = true → Station.resume rules (pool.station after) =
    ⟨{ after with phase := .stopped .disconnected .outcome }, pool.link.dropSender.dropTicket,
      pool.token⟩
  faultless : after.ending? = some .disconnected → after.fault? = none

/-- The report of a job whose drain was dropped at the moment. -/
structure Dispersed (predicate : Predicate) (ranges : List Span) (capacity : Nat) (moment : History)
    (report : Report) : Prop where
  workers : report.workers =
    moment.pool.workers.toList.filterMap fun worker => (worker.departed predicate).report?
  count : report.workers.length = ranges.length
  faults : report.faults.Perm
    (moment.pool.workers.toList.filterMap fun worker => (worker.departed predicate).fault?)
  accepted : report.accepted ≤ moment.delivered.length + capacity

theorem Departs.released (h : moment.Departs rules.predicate last) (hdeserted : last.pool.Deserted)
    {index : Nat} {before : Worker} (hbefore : moment.pool.workers[index]? = some before) :
    ∃ worker, last.pool.workers[index]? = some worker ∧ Released rules last.pool before worker := by
  have hsame : last.pool.workers[index]?.map (Worker.departed rules.predicate) =
      some (before.departed rules.predicate) := by
    rw [← Array.getElem?_map, h.workers, Array.getElem?_map, hbefore, Option.map_some]
  obtain ⟨worker, hworker, hdeparts⟩ := Option.map_eq_some_iff.1 hsame
  obtain ⟨-, -, haccepted⟩ := Worker.departed_counts rules.predicate worker
  obtain ⟨-, -, hbefore⟩ := Worker.departed_counts rules.predicate before
  refine ⟨worker, hworker, ?_, hdeparts, fun hstopped => ?_, fun hblocked => ?_, fun hwaits =>
    ?_, fun hending => ?_⟩
  · rw [← haccepted, hdeparts, hbefore]
  · rw [← hdeparts]
    have hsame : (worker.departed rules.predicate).report? = worker.report? ∧ _ :=
      Worker.report?_departed hstopped
    exact ⟨hsame.1.symm, hsame.2.symm⟩
  · rcases Station.gone_or_full_of_isBlocked hblocked with hgone | ⟨-, -, hopen, -⟩
    · exact hgone
    · exact absurd (hdeserted.drain.symm.trans hopen) (by decide)
  · exact Station.resume_of_closed hwaits hdeserted.drain hdeserted.token
  · rw [Worker.fault?, hending]

section Result

variable {capacity : Nat} (h : moment.Departs rules.predicate last)
  (hsound : moment.Sound rules.predicate ranges) (hlast : last.Sound rules.predicate ranges)
  (hopen : moment.pool.link.channel.receiving = true)
  (hcapacity : moment.pool.link.channel.capacity = capacity)

include h hsound hlast hopen hcapacity

theorem Departs.dispersed (hjoined : last.pool.workers.all Worker.isJoined = true) :
    moment.Dispersed rules.predicate ranges capacity last.pool.report := by
  have hended : ∀ worker ∈ last.pool.workers, worker.ending?.isSome = true := by
    intro worker hworker
    obtain ⟨ending, hending⟩ :=
      Worker.ending?_of_isJoined (Array.all_eq_true_iff_forall_mem.1 hjoined worker hworker)
    rw [hending]
    rfl
  have hroom := hsound.delivery.room
  have hsent := hsound.delivery.length_published hopen
  refine ⟨?_, hlast.length_report_workers hjoined, ?_, ?_⟩
  · rw [hlast.report_workers hjoined]
    exact h.filterMap_eq fun worker hworker => (Worker.report?_departed (hended worker hworker)).1
  · rw [← h.filterMap_eq fun worker hworker => (Worker.report?_departed (hended worker hworker)).2]
    exact hlast.report_faults hjoined
  · rw [hlast.report_accepted hjoined, h.published, hsent]
    omega

end Result

section Dropped

variable {pool : Pool} {events more : List Event} (hfailFast : rules.failFast = false)
  (hcalm : rules.predicate.Calm)

include hfailFast hcalm

theorem undisturbed_of_follow (hpool : pool.Undisturbed)
    (hinner : ∀ event ∈ events, event.isInner = true)
    (hrun : (ofPool pool).follow rules events = some moment) : moment.pool.Undisturbed :=
  follow_induction (P := fun history => history.pool.Undisturbed)
    (fun _ event _ _ _ hmem h hmoves => h.moves hfailFast hcalm (hinner event hmem) hmoves) hpool hrun

/-- What comes of an undisturbed pool after its drain was dropped. -/
theorem departs_of_follow (hsound : moment.Sound rules.predicate ranges)
    (hundisturbed : moment.pool.Undisturbed) (hinner : ∀ event ∈ more, event.isInner = true)
    (hmore : moment.follow rules (.dropDrain :: more) = some last) :
    last.Sound rules.predicate ranges ∧ last.pool.Deserted ∧ moment.Departs rules.predicate last := by
  obtain ⟨dropped, hdrop, hrest⟩ := foldlM_cons_eq_some.1 hmore
  refine follow_induction (P := fun history => history.Sound rules.predicate ranges ∧
    history.pool.Deserted ∧
    moment.Departs rules.predicate history) (fun _ event _ _ _ hmem h hmoves => ?_) ?_ hrest
  · obtain ⟨hsound, hdeserted, hdeparts⟩ := h
    exact ⟨hsound.moves hmoves, hdeserted.moves hfailFast hcalm (hinner event hmem) hmoves,
      hdeparts.moves hsound hdeserted hmoves⟩
  · obtain ⟨published, answer, after, hmoves, rfl⟩ := step_moves hdrop
    refine ⟨hsound.moves hmoves, ?_⟩
    cases hmoves with
    | work index kept hindex hevent _ _ => rcases hevent with ⟨hevent, -⟩ | ⟨hevent, -⟩ <;> cases hevent
    | dropDrain hopen => exact ⟨hundisturbed.deserted, ⟨List.append_nil _, rfl⟩⟩

end Dropped

theorem capacity_of_follow {capacity : Nat} {link : ResultChannel} {token : Token} {pool : Pool}
    {events : List Event} (hlink : ResultChannel.make capacity ranges.length = .ok link)
    (hstart : Pool.start ranges link token = .ok pool)
    (hrun : (ofPool pool).follow rules events = some last) :
    last.pool.link.channel.capacity = capacity := by
  refine follow_induction (P := fun history => history.pool.link.channel.capacity = capacity)
    (fun _ _ _ _ _ _ h hmoves => hmoves.capacity_eq.trans h) ?_ hrun
  obtain ⟨-, -, rfl⟩ := ResultChannel.make_eq_ok.1 hlink
  obtain ⟨-, rfl⟩ := Pool.start_eq_ok.1 hstart
  rfl

/-- **Dropping the drain releases the workers.** A job over any ranges whose predicate does not
cancel runs without fail-fast, under any schedule, until its drain is dropped, and goes on under any
schedule. From that moment nothing is sent, nobody stays parked, and how each worker ends is
settled: with what it has in hand if there is anything, else at the next value that it does not
reject, or at the end of its range. The token is left alone, and the job comes to its report, in
which no more values are counted than were received before and had room in the channel. -/
theorem drop_releases_workers {capacity : Nat} {link : ResultChannel} {pool : Pool}
    {events more : List Event} (hlink : ResultChannel.make capacity ranges.length = .ok link)
    (hstart : Pool.start ranges link {} = .ok pool) (hfailFast : rules.failFast = false)
    (hcalm : rules.predicate.Calm) (hinner : ∀ event ∈ events ++ more, event.isInner = true)
    (hrun : (ofPool pool).follow rules events = some moment)
    (hmore : moment.follow rules (.dropDrain :: more) = some last) :
    (∀ index before, moment.pool.workers[index]? = some before →
        ∃ after, last.pool.workers[index]? = some after ∧ Released rules last.pool before after ∧
          last.publishedBy index = moment.publishedBy index) ∧
      last.pool.token.isCancelled = false ∧ more.length < moment.pool.effort ∧
      (∀ result, last.pool.result? = some result →
        ∃ report, result = .ok report ∧ moment.Dispersed rules.predicate ranges capacity report) ∧
      (last.pool.Still rules → last.pool.result? = some (.ok last.pool.report)) := by
  have hfresh : (History.ofPool pool).Sound rules.predicate ranges := .ofStart hlink hstart
  have hsound : moment.Sound rules.predicate ranges := hfresh.follow hrun
  have hundisturbed : moment.pool.Undisturbed :=
    undisturbed_of_follow hfailFast hcalm (.ofStart hlink hstart rfl)
    (fun event hevent => hinner event (List.mem_append_left _ hevent)) hrun
  obtain ⟨hlast, hdeserted, hdeparts⟩ := departs_of_follow hfailFast hcalm hsound hundisturbed
    (fun event hevent => hinner event (List.mem_append_right _ hevent)) hmore
  have hcapacity := capacity_of_follow hlink hstart hrun
  refine ⟨fun index before hbefore => ?_, hdeserted.token, ?_, fun result hresult =>
    ?_, fun hstill => ?_⟩
  · obtain ⟨worker, hworker, hreleased⟩ := hdeparts.released hdeserted hbefore
    refine ⟨worker, hworker, hreleased, ?_⟩
    rw [publishedBy, publishedBy, hdeparts.published]
  · have hbounded := length_follow_le hsound hmore
    rw [List.length_cons] at hbounded
    omega
  · obtain ⟨rfl, hjoined, -⟩ := hlast.result?_eq_some hresult
    exact ⟨_, rfl, hdeparts.dispersed hsound hlast hundisturbed.drain hcapacity hjoined⟩
  · exact (result?_of_still hlast hstill (hstill.isGone (.inl hdeserted.drain))).2.2

/-- 0 and 1 are accepted, the others are not, and the predicate panics on 3. -/
def panickingAtThree : Rules where
  predicate value := if value = 3 then .panicked .other else .decided (decide (value < 2)) none
  yieldInterval := 1
  yieldInterval_pos := Nat.one_pos
  failFast := false

/-- When the drain is dropped, one worker waits for room with 1, one has rejected 2 and would go on
with 3, and one has not begun. -/
theorem drop_releases_workers_each_way : ∃ pool moment last report,
    Pool.start [⟨0, 2, by decide⟩, ⟨2, 4, by decide⟩, ⟨4, 6, by decide⟩]
      ⟨.ofCapacity 1 1, .ofExpected 3, 0, false⟩ {} = .ok pool ∧
    (History.ofPool pool).follow panickingAtThree
      [.work 0, .work 1, .work 0, .work 0, .work 1, .work 0, .work 0, .work 0, .work 0] = some moment ∧
    moment.pool.workers.toList.map Worker.phase = [.waiting 1, .yielding, .ready] ∧
    moment.follow panickingAtThree
      [.dropDrain, .work 1, .work 0, .work 1, .work 2, .work 1, .work 0, .work 2, .work 1, .work 0,
        .work 1, .work 2, .work 2, .work 2, .work 2, .join 1, .work 2, .work 2, .work 2, .close,
        .close, .join 0, .join 2] = some last ∧
    last.pool.result? = some (.ok report) ∧
    last.pool.workers.toList.map Worker.ending? =
      [some .disconnected, some (.panicked .other), some .completed] ∧
    moment.Dispersed panickingAtThree.predicate
      [⟨0, 2, by decide⟩, ⟨2, 4, by decide⟩, ⟨4, 6, by decide⟩] 1 report := by
  have hlink : ResultChannel.make 1 [Span.mk 0 2, Span.mk 2 4, Span.mk 4 6].length =
      .ok ⟨.ofCapacity 1 1, .ofExpected 3, 0, false⟩ := rfl
  have hstart : Pool.start [Span.mk 0 2, Span.mk 2 4, Span.mk 4 6]
      ⟨.ofCapacity 1 1, .ofExpected 3, 0, false⟩ {} =
        .ok ⟨#[.ofRange 0 (Span.mk 0 2), .ofRange 1 (Span.mk 2 4), .ofRange 2 (Span.mk 4 6)],
          ⟨.ofCapacity 1 4, .ofExpected 3, 0, false⟩, {}, .fresh, #[]⟩ := rfl
  have hcalm : panickingAtThree.predicate.Calm := by
    intro value accepted scope
    dsimp only [panickingAtThree]
    split <;> simp
  have hends : ((History.follow panickingAtThree
        (.ofPool ⟨#[.ofRange 0 (Span.mk 0 2), .ofRange 1 (Span.mk 2 4), .ofRange 2 (Span.mk 4 6)],
          ⟨.ofCapacity 1 4, .ofExpected 3, 0, false⟩, {}, .fresh, #[]⟩)
        [.work 0, .work 1, .work 0, .work 0, .work 1, .work 0, .work 0, .work 0, .work 0]).any
          fun moment =>
      moment.pool.workers.toList.map Worker.phase == [.waiting 1, .yielding, .ready] &&
        (moment.follow panickingAtThree
          [.dropDrain, .work 1, .work 0, .work 1, .work 2, .work 1, .work 0, .work 2, .work 1,
            .work 0, .work 1, .work 2, .work 2, .work 2, .work 2, .join 1, .work 2, .work 2,
            .work 2, .close, .close, .join 0, .join 2]).any fun last =>
          last.pool.result?.isSome && last.pool.workers.toList.map Worker.ending? ==
            [some .disconnected, some (.panicked .other), some .completed]) = true := by
    decide +kernel
  obtain ⟨moment, hrun, hmoment⟩ := (Option.any_eq_true _ _).1 hends
  simp only [Bool.and_eq_true, beq_iff_eq] at hmoment
  obtain ⟨hphases, hrest⟩ := hmoment
  obtain ⟨last, hmore, hlast⟩ := (Option.any_eq_true _ _).1 hrest
  simp only [Bool.and_eq_true, beq_iff_eq] at hlast
  obtain ⟨hsome, hendings⟩ := hlast
  obtain ⟨result, hresult⟩ := Option.isSome_iff_exists.1 hsome
  obtain ⟨-, -, -, hreports, -⟩ := drop_releases_workers hlink hstart rfl hcalm (by decide) hrun hmore
  obtain ⟨report, rfl, hreport⟩ := hreports result hresult
  exact ⟨_, moment, last, report, hstart, hrun, hphases, hmore, hresult, hendings, hreport⟩

end History

end Pool

end ParallelFilter
