import ParallelFilter.Proofs.Prospect
import ParallelFilter.Proofs.Resumption

/-! What comes of jobs whose workers take turns. Every worker contributes what is told in advance,
under each of these schedules, and the job comes to its report. Where the ranges are too short for
anybody to give way nobody is suspended, and a single pass over the workers is one of the schedules.
-/

namespace ParallelFilter

namespace Pool

variable {rules : Rules} {pool : Pool}

namespace History

variable {ranges : List Span} {capacity : Nat} {history : History}

/-- The history after one more event, if it can happen and keeps to the order of turns. -/
def stepInTurn (rules : Rules) (history : History) (event : Event) : Option History :=
  if history.pool.inTurn event then history.step rules event else none

/-- The history after the events, if they can happen one after another and keep to the order of
turns. -/
def followInTurn (rules : Rules) (history : History) (events : List Event) : Option History :=
  events.foldlM (stepInTurn rules) history

variable {event : Event} {events : List Event} {next last : History}

theorem stepInTurn_eq_some : history.stepInTurn rules event = some next ↔
    history.pool.inTurn event = true ∧ history.step rules event = some next := by
  unfold stepInTurn
  split
  · rename_i hturn
    exact (and_iff_right hturn).symm
  · rename_i hturn
    simp only [reduceCtorEq, hturn, false_and]

theorem follow_of_followInTurn (h : history.followInTurn rules events = some last) :
    history.follow rules events = some last := by
  induction events generalizing history with
  | nil => exact h
  | cons event events ih =>
      obtain ⟨next, hnext, hrest⟩ := foldlM_cons_eq_some.1 h
      exact foldlM_cons_eq_some.2 ⟨next, (stepInTurn_eq_some.1 hnext).2, ih hrest⟩

theorem TakesTurns.follow (h : history.TakesTurns rules ranges capacity)
    (hcapacity : rules.predicate.acceptedInTurn rules.failFast ranges ≤ capacity)
    (hinner : ∀ event ∈ events, event.isInner = true)
    (hrun : history.followInTurn rules events = some last) :
    last.TakesTurns rules ranges capacity := by
  refine foldlM_induction (P := fun history => history.TakesTurns rules ranges capacity)
    (fun history event next hmem h hstep => ?_) h hrun
  obtain ⟨hturn, hstep⟩ := stepInTurn_eq_some.1 hstep
  obtain ⟨published, answer, after, hmoves, rfl⟩ := step_moves hstep
  exact h.moves hcapacity (hinner event hmem) hturn hmoves

/-- What is to be seen of a worker, against what it is to contribute. -/
structure Contributes (history : History) (index : Nat) (worker : Worker)
    (contribution : Contribution) : Prop where
  published : history.publishedBy index <+: contribution.values
  stopped : worker.ending?.isSome = true →
    worker.outcome? = some contribution.outcome ∧ history.publishedBy index = contribution.values

section Turns

variable (h : history.TakesTurns rules ranges capacity)

include h

/-- What the predicate was called on by a worker that has stopped is what was told in advance. -/
theorem TakesTurns.exists_outlook_eq {index : Nat} {worker : Worker}
    (hworker : history.pool.workers[index]? = some worker) :
    ∃ cancelled, worker.outlook rules.predicate rules.failFast cancelled =
      rules.predicate.callsInTurn rules.failFast ranges index worker.range := by
  obtain ⟨-, hrange, -⟩ := h.sound.books.worker hworker
  obtain ⟨cancelled, hplace⟩ := getElem?_relay (rules.predicate.halts rules.failFast)
    (Worker.outlook rules.predicate rules.failFast) history.pool.token.isCancelled
    ((Array.getElem?_toList ..).trans hworker)
  have hprospect := congrArg (fun told => told.1[index]?) h.prospect
  rw [List.getElem?_mapIdx, hrange, Option.map_some] at hprospect
  exact ⟨cancelled, Option.some.inj (hplace.symm.trans hprospect)⟩

theorem TakesTurns.contributes {index : Nat} {worker : Worker}
    (hworker : history.pool.workers[index]? = some worker) :
    history.Contributes index worker
      (rules.predicate.contribution rules.failFast ranges index worker.range) := by
  obtain ⟨hid, hrange, haccounts⟩ := h.sound.books.worker hworker
  obtain ⟨cancelled, hcalls⟩ := h.exists_outlook_eq hworker
  rw [Predicate.contribution_eq hrange, ← hcalls]
  refine ⟨?_, fun hstopped => ?_⟩
  · obtain ⟨rest, hrest, -⟩ := haccounts.exists_unsent
    exact List.IsPrefix.trans ⟨rest, hrest.symm⟩ ((Worker.called_prefix_outlook _ _ _ _).filter _)
  · have hcontributes :=
      haccounts.contributes (h.steady worker (Array.mem_of_getElem? hworker)) hstopped
    rw [hid] at hcontributes
    rw [Worker.outlook_of_ending? hstopped]
    exact hcontributes

/-- A worker gives way only after so many values, and it has fewer. -/
theorem TakesTurns.not_suspended (hinterval : ∀ range ∈ ranges, range.length < rules.yieldInterval)
    {worker : Worker} (hworker : worker ∈ history.pool.workers) : worker.isSuspended = false := by
  obtain ⟨index, hindex⟩ := Array.mem_iff_getElem?.1 hworker
  obtain ⟨-, hrange, haccounts⟩ := h.sound.books.worker hindex
  have hsteady := h.steady worker hworker
  unfold Worker.isSuspended
  split
  · rename_i value hphase
    have hwaiting := hsteady.waiting
    simp only [Worker.isWaiting, hphase] at hwaiting
    cases hwaiting
  · rename_i hphase
    obtain ⟨hpos, hmod⟩ := hsteady.yielding hphase
    have hlt :=
      Nat.lt_of_le_of_lt haccounts.evaluated_le (hinterval worker.range (List.mem_of_getElem? hrange))
    rw [Nat.mod_eq_of_lt hlt] at hmod
    exact absurd hmod (Nat.ne_of_gt hpos)
  · rfl

theorem TakesTurns.token_eq (hgone : ∀ worker ∈ history.pool.workers, worker.isGone = true) :
    history.pool.token.isCancelled = (rules.predicate.halt? rules.failFast ranges).isSome := by
  have htold : history.pool.prospect rules = (_, history.pool.token.isCancelled) :=
    relay_of_isGone (fun worker hworker => hgone worker (Array.mem_toList_iff.1 hworker))
      (fun worker hworker => h.steady worker (Array.mem_toList_iff.1 hworker)) id
  exact congrArg Prod.snd (htold.symm.trans h.prospect)

end Turns

/-- The report of a job whose workers have taken turns. -/
structure ReportsTurns (predicate : Predicate) (failFast : Bool) (ranges : List Span)
    (history : History) (report : Report) : Prop where
  workers : report.workers =
    ranges.mapIdx fun index range =>
      (predicate.contribution failFast ranges index range).outcome.summary
  faults : report.faults.Perm
    ((ranges.mapIdx fun index range =>
      (predicate.contribution failFast ranges index range).outcome.fault).filterMap id)
  cancelled : history.pool.token.isCancelled = (predicate.halt? failFast ranges).isSome

theorem TakesTurns.reports (h : history.TakesTurns rules ranges capacity)
    (hjoined : history.pool.workers.all Worker.isJoined = true) :
    history.ReportsTurns rules.predicate rules.failFast ranges history.pool.report := by
  have hall : ∀ worker ∈ history.pool.workers, worker.isJoined = true :=
    Array.all_eq_true_iff_forall_mem.1 hjoined
  have houtcome {index : Nat} {worker : Worker} (hworker : history.pool.workers[index]? = some worker) :
      worker.outcome? =
        some (rules.predicate.contribution rules.failFast ranges worker.id worker.range).outcome := by
    obtain ⟨hid, -, -⟩ := h.sound.books.worker hworker
    obtain ⟨ending, hending⟩ := Worker.ending?_of_isJoined (hall worker (Array.mem_of_getElem? hworker))
    rw [hid]
    exact ((h.contributes hworker).stopped (by rw [hending]; rfl)).1
  refine ⟨?_, ?_, h.token_eq fun worker hworker => Worker.isGone_of_isJoined (hall worker hworker)⟩
  · refine h.sound.report_workers_eq hjoined fun index worker hworker => ?_
    rw [← Worker.outcome?_map_summary, houtcome hworker, Option.map_some]
  · have hfaults := h.sound.books.map_workers (f := Worker.fault?)
      (g := fun index range =>
        (rules.predicate.contribution rules.failFast ranges index range).outcome.fault)
      fun index worker hworker => by
        rw [← Worker.outcome?_bind_fault, houtcome hworker, Option.bind_some]
    have hperm := h.sound.report_faults hjoined
    rw [← hfaults, List.filterMap_map]
    exact hperm

end History

/-- No worker whose turn it is can move, nor the closer, nor those who join. -/
def StillInTurn (rules : Rules) (pool : Pool) : Prop :=
  ∀ event : Event, event.isBackground = true → pool.inTurn event = true → pool.step rules event = none

namespace History

variable {ranges : List Span} {capacity : Nat} {history last : History}

theorem TakesTurns.isGone (h : history.TakesTurns rules ranges capacity)
    (hstill : history.pool.StillInTurn rules) :
    ∀ worker ∈ history.pool.workers, worker.isGone = true := by
  have hclear (index : Nat) : history.pool.clear index = true := by
    induction index with
    | zero => rfl
    | succ index ih =>
        rw [clear_iff] at ih ⊢
        intro other worker hlt hworker
        rcases Nat.lt_succ_iff_lt_or_eq.1 hlt with hlt | rfl
        · exact ih other worker hlt hworker
        · obtain ⟨hindex, rfl⟩ := Array.getElem?_eq_some_iff.1 hworker
          have hblocked : (history.pool.station history.pool.workers[other]).isBlocked = true := by
            by_contra hfree
            have hnone := hstill (.work other) rfl (clear_iff.2 ih)
            rw [step_work hindex rules (Bool.eq_false_iff.2 hfree)] at hnone
            cases hnone
          rcases Station.gone_or_full_of_isBlocked hblocked with hgone | ⟨hwaiting, -⟩
          · exact hgone
          · exact absurd ((h.steady _ (Array.getElem_mem hindex)).waiting.symm.trans hwaiting)
              (by decide)
  intro worker hworker
  obtain ⟨index, hindex⟩ := Array.mem_iff_getElem?.1 hworker
  exact clear_iff.1 (hclear (index + 1)) index worker (Nat.lt_succ_self index) hindex

/-- Where all workers are gone, every turn is over. -/
theorem still_of_stillInTurn (hstill : pool.StillInTurn rules)
    (hgone : ∀ worker ∈ pool.workers, worker.isGone = true) :
    pool.Still rules := by
  intro event hevent
  cases hturn : event.worker? with
  | none => exact hstill event hevent (by rw [inTurn, hturn, Option.all_none])
  | some index =>
      by_contra hsome
      obtain ⟨after, hafter⟩ := Option.ne_none_iff_exists'.1 hsome
      have hmoves := Pool.step_moves hafter
      generalize pool.publishes rules event = published, pool.answers event = answer at hmoves
      cases hmoves with
      | work other kept hother _ moved hmoves =>
          exact absurd (hmoves.not_gone.symm.trans (hgone _ (Array.getElem_mem hother))) (by decide)
      | _ => cases hturn

/-- The one history leads to the other by moves in the background that keep to the order of turns. -/
def LeadsInTurn (rules : Rules) (history next : History) : Prop :=
  ∃ events : List Event, (∀ event ∈ events, event.isBackground = true) ∧
    history.followInTurn rules events = some next

namespace LeadsInTurn

variable {next : History}

theorem refl (rules : Rules) (history : History) : LeadsInTurn rules history history :=
  ⟨[], List.forall_mem_nil _, rfl⟩

theorem ofStep (event : Event) (hbackground : event.isBackground = true)
    (hturn : history.pool.inTurn event = true) (hstep : history.step rules event = some next) :
    LeadsInTurn rules history next :=
  ⟨[event], List.forall_mem_singleton.2 hbackground,
    foldlM_cons_eq_some.2 ⟨next, stepInTurn_eq_some.2 ⟨hturn, hstep⟩, rfl⟩⟩

theorem trans (h : LeadsInTurn rules history next) (hmore : LeadsInTurn rules next last) :
    LeadsInTurn rules history last := by
  obtain ⟨events, hevents, hrun⟩ := h
  obtain ⟨others, hothers, hrest⟩ := hmore
  exact ⟨events ++ others, List.forall_mem_append.2 ⟨hevents, hothers⟩, foldlM_trans hrun hrest⟩

theorem clear {index : Nat} (h : LeadsInTurn rules history next)
    (hclear : history.pool.clear index = true) :
    next.pool.clear index = true := by
  obtain ⟨events, -, hrun⟩ := h
  exact follow_induction (P := fun history => history.pool.clear index = true)
    (fun _ _ _ _ _ _ hclear hmoves => clear_moves hclear hmoves) hclear (follow_of_followInTurn hrun)

theorem takesTurns (h : LeadsInTurn rules history next)
    (hturns : history.TakesTurns rules ranges capacity)
    (hcapacity : rules.predicate.acceptedInTurn rules.failFast ranges ≤ capacity) :
    next.TakesTurns rules ranges capacity := by
  obtain ⟨events, hevents, hrun⟩ := h
  exact hturns.follow hcapacity
    (fun event hevent => Event.isInner_of_isBackground (hevents event hevent)) hrun

end LeadsInTurn

theorem leadsInTurn_run {index : Nat} (hclear : history.pool.clear index = true) :
    LeadsInTurn rules history (history.run rules index false) := by
  induction history using History.run.induct rules index false with
  | case1 history hactive next hstep ih =>
      have hfirst : LeadsInTurn rules history next := .ofStep (.work index) rfl hclear hstep
      rw [run_of_step hactive hstep]
      exact hfirst.trans (ih (hfirst.clear hclear))
  | case2 history hactive hstep =>
      rw [run_of_step_eq_none hstep]
      exact .refl rules history
  | case3 history hinactive =>
      rw [run_of_not_isActive (Bool.eq_false_iff.2 hinactive)]
      exact .refl rules history

theorem leadsInTurn_resume {index : Nat} (hclear : history.pool.clear index = true) :
    LeadsInTurn rules history (history.resume rules index false) := by
  cases hstep : history.step rules (history.pool.turn index false) with
  | none =>
      rw [resume, hstep]
      exact .refl rules history
  | some next =>
      have hfirst : LeadsInTurn rules history next := .ofStep (.work index) rfl hclear hstep
      rw [resume, hstep]
      exact hfirst.trans (leadsInTurn_run (hfirst.clear hclear))

theorem exists_leadsInTurn_moveCloser (rules : Rules) (history : History) :
    ∃ next, LeadsInTurn rules history next ∧ next.pool = history.pool.moveCloser := by
  by_cases hstill : history.pool.closer = .released ∨
    history.pool.closer.isParked history.pool.link.barrier = true
  · exact ⟨history, .refl rules history, (moveCloser_of_still hstill).symm⟩
  · have hmove : history.pool.step rules .close = some history.pool.moveCloser := by
      rw [Pool.step, if_neg hstill]
    exact ⟨_, .ofStep .close rfl rfl (step_eq hmove), rfl⟩

theorem exists_leadsInTurn_resumeCloser (rules : Rules) (history : History) :
    ∃ next, LeadsInTurn rules history next ∧ next.pool = history.pool.resumeCloser := by
  obtain ⟨first, hfirst, hpool₁⟩ := exists_leadsInTurn_moveCloser rules history
  obtain ⟨second, hsecond, hpool₂⟩ := exists_leadsInTurn_moveCloser rules first
  obtain ⟨third, hthird, hpool₃⟩ := exists_leadsInTurn_moveCloser rules second
  refine ⟨third, (hfirst.trans hsecond).trans hthird, ?_⟩
  rw [hpool₃, hpool₂, hpool₁]
  rfl

section Pass

variable (hcapacity : rules.predicate.acceptedInTurn rules.failFast ranges ≤ capacity)
  (hinterval : ∀ range ∈ ranges, range.length < rules.yieldInterval)

include hcapacity hinterval

/-- Where nobody is suspended, a worker whose turn it is goes to its end when it is resumed. -/
theorem TakesTurns.clear_resume (h : history.TakesTurns rules ranges capacity) {index : Nat}
    (hclear : history.pool.clear index = true) :
    (history.resume rules index false).pool.clear (index + 1) = true := by
  have hleads : LeadsInTurn rules history (history.resume rules index false) :=
    leadsInTurn_resume hclear
  have hnext := hleads.takesTurns h hcapacity
  rw [clear_iff]
  intro other worker hlt hworker
  rcases Nat.lt_succ_iff_lt_or_eq.1 hlt with hlt | rfl
  · exact clear_iff.1 (hleads.clear hclear) other worker hlt hworker
  · have hawake := hnext.not_suspended hinterval (Array.mem_of_getElem? hworker)
    exact Worker.isGone_of_not_isActive (not_isActive_resume hworker) hawake

theorem TakesTurns.exists_leadsInTurn_resumeFrom (count : Nat) {index : Nat}
    (h : history.TakesTurns rules ranges capacity) (hclear : history.pool.clear index = true) :
    ∃ next, LeadsInTurn rules history next ∧ next.pool = history.pool.resumeFrom rules index count ∧
      next.pool.clear (index + count) = true := by
  induction count generalizing history index with
  | zero =>
      obtain ⟨next, hleads, hpool⟩ := exists_leadsInTurn_resumeCloser rules history
      exact ⟨next, hleads, hpool, hleads.clear hclear⟩
  | succ count ih =>
      have hleads : LeadsInTurn rules history (history.resume rules index false) :=
        leadsInTurn_resume hclear
      obtain ⟨next, hmore, hpool, hend⟩ :=
        ih (hleads.takesTurns h hcapacity) (h.clear_resume hcapacity hinterval hclear)
      refine ⟨next, hleads.trans hmore, ?_, ?_⟩
      · rw [hpool, resume_pool]
        rfl
      · rwa [Nat.add_right_comm] at hend

/-- **One pass is enough.** Where nobody is suspended, each worker goes to its end when it is
resumed, and so a single pass over the workers is a run in which they take turns, and leaves all of
them gone. -/
theorem TakesTurns.exists_leadsInTurn_pass (h : history.TakesTurns rules ranges capacity) :
    ∃ next, LeadsInTurn rules history next ∧ next.pool = history.pool.pass rules ∧
      ∀ worker ∈ next.pool.workers, worker.isGone = true := by
  obtain ⟨next, hleads, hpool, hclear⟩ := h.exists_leadsInTurn_resumeFrom hcapacity hinterval
    history.pool.workers.size (clear_iff.2 fun _ _ hlt _ => absurd hlt (Nat.not_lt_zero _))
  refine ⟨next, hleads, hpool, fun worker hworker => ?_⟩
  obtain ⟨index, hindex⟩ := Array.mem_iff_getElem?.1 hworker
  have hlt : index < history.pool.workers.size := by
    rw [h.sound.books.size, ← (hleads.takesTurns h hcapacity).sound.books.size]
    exact (Array.getElem?_eq_some_iff.1 hindex).1
  exact clear_iff.1 hclear index worker (Nat.lt_of_lt_of_le hlt (Nat.le_add_left _ _)) hindex

end Pass

/-- What is known of a job whose workers take turns, at every moment of it. -/
structure Foretold (rules : Rules) (ranges : List Span) (history : History) : Prop where
  workers : ∀ index range, ranges[index]? = some range →
    ∃ worker, history.pool.workers[index]? = some worker ∧
    history.Contributes index worker (rules.predicate.contribution rules.failFast ranges index range)
  /-- Where the ranges are too short for anybody to give way, nobody is suspended. -/
  awake : (∀ range ∈ ranges, range.length < rules.yieldInterval) →
    ∀ worker ∈ history.pool.workers, worker.isSuspended = false
  report : ∀ result, history.pool.result? = some result →
    ∃ report, result = .ok report ∧ history.ReportsTurns rules.predicate rules.failFast ranges report
  ended : history.pool.StillInTurn rules → history.pool.result? = some (.ok history.pool.report)

theorem TakesTurns.foretold (h : history.TakesTurns rules ranges capacity) :
    history.Foretold rules ranges where
  workers index range hrange := by
    have hindex : index < history.pool.workers.size := by
      rw [h.sound.books.size]
      exact (List.getElem?_eq_some_iff.1 hrange).1
    have hworker := Array.getElem?_eq_getElem hindex
    obtain ⟨-, hsame, -⟩ := h.sound.books.worker hworker
    rw [hrange, Option.some_inj] at hsame
    exact ⟨_, hworker, hsame ▸ h.contributes hworker⟩
  awake hinterval worker hworker := h.not_suspended hinterval hworker
  report result hresult := by
    obtain ⟨rfl, hjoined, -⟩ := h.sound.result?_eq_some hresult
    exact ⟨_, rfl, h.reports hjoined⟩
  ended hstill := by
    have hgone := h.isGone hstill
    exact (result?_of_still h.sound (still_of_stillInTurn hstill hgone) hgone).2.2

/-- **Workers that take turns contribute what is told in advance.** A job over any ranges, by any
predicate and with or without fail-fast, runs on a channel with room for what is accepted, and each
worker moves only when those before it are gone, while receives, the closer and joins come in
between as they like. Then every worker has published, counted and reported what the first value
that halts the job leaves to it: before the holder of this value what it does on its own, the holder
what it has done up to it, and those after it nothing. The job comes to its report after a bounded
number of moves. Where the ranges are too short for anybody to give way, a single pass over the
workers, in which each goes to its end, is such a run. -/
theorem contributes_in_turn {link : ResultChannel} {pool : Pool}
    (hlink : ResultChannel.make capacity ranges.length = .ok link)
    (hstart : Pool.start ranges link {} = .ok pool)
    (hcapacity : rules.predicate.acceptedInTurn rules.failFast ranges ≤ capacity) :
    (∀ events last, (∀ event ∈ events, event.isInner = true) →
      (ofPool pool).followInTurn rules events = some last →
        events.length ≤ pool.effort ∧ last.Foretold rules ranges) ∧
      ((∀ range ∈ ranges, range.length < rules.yieldInterval) →
        ∃ events last, (∀ event ∈ events, event.isInner = true) ∧
          (ofPool pool).followInTurn rules events = some last ∧ last.pool = pool.pass rules ∧
            ∀ worker ∈ last.pool.workers, worker.isGone = true) := by
  have hfresh : (ofPool pool).TakesTurns rules ranges capacity := .ofStart hlink hstart
  refine ⟨fun events last hinner hrun => ⟨?_, (hfresh.follow hcapacity hinner hrun).foretold⟩,
    fun hinterval => ?_⟩
  · have hbounded := length_follow_le hfresh.sound (follow_of_followInTurn hrun)
    exact Nat.le_trans (Nat.le_add_right _ _) hbounded
  · obtain ⟨last, ⟨events, hbackground, hrun⟩, hpool, hgone⟩ :=
      hfresh.exists_leadsInTurn_pass hcapacity hinterval
    exact ⟨events, last,
      fun event hevent => Event.isInner_of_isBackground (hbackground event hevent),
      hrun, hpool, hgone⟩

/-- All values are accepted, but the predicate fails on 1, and asks for a cancellation on 4. -/
def cancellingAtFour : Rules where
  predicate value := if value = 1 then .failed "one"
    else .decided true (if value = 4 then some .job else none)
  yieldInterval := 5
  yieldInterval_pos := Nat.succ_pos 4
  failFast := false

/-- The first worker fails, which halts nothing, the second has an empty range, the third cancels
the job in the middle of its range, and the fourth does not begin. -/
theorem contributes_in_turn_one_holder : ∃ pool last report,
    Pool.start [⟨0, 3, by decide⟩, ⟨3, 3, by decide⟩, ⟨3, 7, by decide⟩, ⟨7, 9, by decide⟩]
      ⟨.ofCapacity 3 1, .ofExpected 4, 0, false⟩ {} = .ok pool ∧
    (ofPool pool).followInTurn cancellingAtFour
      (.replicate 3 (.work 0) ++ .receive :: .replicate 4 (.work 0) ++ .replicate 3 (.work 1) ++
        .join 0 :: .replicate 9 (.work 2) ++ .replicate 3 (.work 3) ++
          [.close, .close, .join 3, .join 1, .receive, .join 2]) = some last ∧
    last.pool.result? = some (.ok report) ∧
    report.workers.map WorkerSummary.status = [.faulted, .completed, .cancelled, .cancelled] ∧
    last.published = [(0, 0), (2, 3), (2, 4)] ∧
    last.ReportsTurns cancellingAtFour.predicate false
      [⟨0, 3, by decide⟩, ⟨3, 3, by decide⟩, ⟨3, 7, by decide⟩, ⟨7, 9, by decide⟩] report ∧
    ∃ events passed, (ofPool pool).followInTurn cancellingAtFour events = some passed ∧
      passed.pool = pool.pass cancellingAtFour ∧
        ∀ worker ∈ passed.pool.workers, worker.isGone = true := by
  have hlink : ResultChannel.make 3 [Span.mk 0 3, Span.mk 3 3, Span.mk 3 7, Span.mk 7 9].length =
      .ok ⟨.ofCapacity 3 1, .ofExpected 4, 0, false⟩ := rfl
  have hstart : Pool.start [Span.mk 0 3, Span.mk 3 3, Span.mk 3 7, Span.mk 7 9]
      ⟨.ofCapacity 3 1, .ofExpected 4, 0, false⟩ {} =
        .ok ⟨#[.ofRange 0 (Span.mk 0 3), .ofRange 1 (Span.mk 3 3), .ofRange 2 (Span.mk 3 7),
            .ofRange 3 (Span.mk 7 9)],
          ⟨.ofCapacity 3 5, .ofExpected 4, 0, false⟩, {}, .fresh, #[]⟩ := rfl
  have hcapacity : cancellingAtFour.predicate.acceptedInTurn cancellingAtFour.failFast
      [Span.mk 0 3, Span.mk 3 3, Span.mk 3 7, Span.mk 7 9] ≤ 3 := by
    decide +kernel
  have hends : ((followInTurn cancellingAtFour
        (.ofPool ⟨#[.ofRange 0 (Span.mk 0 3), .ofRange 1 (Span.mk 3 3), .ofRange 2 (Span.mk 3 7),
          .ofRange 3 (Span.mk 7 9)], ⟨.ofCapacity 3 5, .ofExpected 4, 0, false⟩, {}, .fresh, #[]⟩)
        (.replicate 3 (.work 0) ++ .receive :: .replicate 4 (.work 0) ++ .replicate 3 (.work 1) ++
          .join 0 :: .replicate 9 (.work 2) ++ .replicate 3 (.work 3) ++
            [.close, .close, .join 3, .join 1, .receive, .join 2])).any fun last =>
      last.pool.result?.isSome && last.published == [(0, 0), (2, 3), (2, 4)]) = true := by
    decide +kernel
  obtain ⟨last, hrun, hlast⟩ := (Option.any_eq_true _ _).1 hends
  simp only [Bool.and_eq_true, beq_iff_eq] at hlast
  obtain ⟨hsome, hpublished⟩ := hlast
  obtain ⟨result, hresult⟩ := Option.isSome_iff_exists.1 hsome
  obtain ⟨hforetells, hpass⟩ := contributes_in_turn hlink hstart hcapacity
  obtain ⟨-, hforetold⟩ := hforetells _ _ (by decide) hrun
  obtain ⟨report, rfl, hreports⟩ := hforetold.report result hresult
  obtain ⟨events, passed, -, hpassed⟩ := hpass (by decide)
  refine ⟨_, last, report, hstart, hrun, hresult, ?_, hpublished, hreports, events, passed, hpassed⟩
  rw [hreports.workers]
  decide +kernel

end History

end Pool

end ParallelFilter
