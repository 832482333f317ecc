import ParallelFilter.Proofs.Progress

/-! Runs that nobody disturbs: no cancellation from anywhere, no fail-fast, and a drain that stays. Then
no worker stops before its end or its obstacle, so what it publishes and reports is what it does on its
own, and all schedules end alike. -/

namespace ParallelFilter

namespace Worker

/-- Nothing has stopped the worker but the end of its range or a fault of its own, and it does not call
for a cancellation either. -/
structure Undisturbed (worker : Worker) : Prop where
  cancelled : worker.ending? ≠ some .cancelled
  disconnected : worker.ending? ≠ some .disconnected
  alarm : ∀ ending, worker.phase ≠ .stopped ending .alarm

/-- The books of a worker that was neither cancelled nor cut off are closed at the point where it
stops on its own. -/
theorem Accounts.solo {predicate : Predicate} {worker : Worker} {sent : List Nat} {ending : Ending}
    (h : worker.Accounts predicate sent) (hcancelled : worker.ending? ≠ some .cancelled)
    (hdisconnected : worker.ending? ≠ some .disconnected) (hending : worker.ending? = some ending) :
    sent = predicate.soloValues worker.range ∧
      worker.report? = some (predicate.soloSummary worker.id worker.range) ∧
        worker.fault? = predicate.soloFault worker.id worker.range := by
  cases ending with
  | completed =>
      obtain ⟨hend, hsent⟩ := h.of_completed hending
      obtain ⟨hvalues, hobstacle, hsummary⟩ := h.solo_of_end hend hsent
      refine ⟨hvalues, ?_, ?_⟩
      · rw [report?, hending, hsummary]
        rfl
      · rw [fault?, hending, Predicate.soloFault, hobstacle]
        rfl
  | cancelled => exact absurd hending hcancelled
  | disconnected => exact absurd hending hdisconnected
  | failed reason =>
      obtain ⟨hlt, hsent, hcall⟩ := h.of_failed hending
      obtain ⟨hvalues, hobstacle, hsummary⟩ :=
        h.solo_of_obstacle hlt hsent (by rw [Predicate.decides, hcall])
      refine ⟨hvalues, ?_, ?_⟩
      · rw [report?, hending, hsummary]
        rfl
      · rw [fault?, hending, Predicate.soloFault, hobstacle, Option.bind_some, hcall]
  | panicked payload =>
      obtain ⟨hlt, hsent, hcall⟩ := h.of_panicked hending
      obtain ⟨hvalues, hobstacle, hsummary⟩ :=
        h.solo_of_obstacle hlt hsent (by rw [Predicate.decides, hcall])
      refine ⟨hvalues, ?_, ?_⟩
      · rw [report?, hending, hsummary]
        rfl
      · rw [fault?, hending, Predicate.soloFault, hobstacle, Option.bind_some, hcall]

end Worker

namespace Station.Moves

variable {rules : Rules} {kept : Nat} {before after : Station} {sent : Option Nat}

/-- Without fail-fast no worker calls for a cancellation. -/
theorem not_alarm (h : Moves rules kept before sent after) (hfailFast : rules.failFast = false)
    (ending : Ending) : after.worker.phase ≠ .stopped ending .alarm := by
  intro halarm
  cases h with
  | reject _ _ _ | send _ _ _ _ _ =>
      rcases afterValue_cases rules _ with hphase | hphase <;> rw [hphase] at halarm <;> cases halarm
  | dropTicket ending hphase =>
      cases ending <;> simp [Ending.afterTicket, hfailFast] at halarm
  | _ => cases halarm

/-- Without fail-fast and with a calm predicate a move leaves the token alone. -/
theorem token_eq (h : Moves rules kept before sent after) (hfailFast : rules.failFast = false)
    (hcalm : rules.predicate.Calm) (halarm : ∀ ending, before.worker.phase ≠ .stopped ending .alarm) :
    after.token = before.token := by
  cases h with
  | fail _ _ _ =>
      rw [hfailFast]
      rfl
  | reject cancels _ hcall | accept cancels _ hcall =>
      cases cancels with
      | none => rfl
      | some scope => exact absurd hcall (hcalm _ _ _)
  | alarm ending hphase => exact absurd hphase (halarm ending)
  | _ => rfl

theorem undisturbed (h : Moves rules kept before sent after) (hfailFast : rules.failFast = false)
    (htoken : before.token.isCancelled = false) (hopen : before.link.channel.receiving = true)
    (hbefore : before.worker.Undisturbed) : after.worker.Undisturbed where
  cancelled := by
    intro hending
    rcases h.ending_cases hending with hsame | ⟨hcancelled, -⟩
    · exact hbefore.cancelled hsame
    · exact absurd (hcancelled rfl) (by rw [htoken]; decide)
  disconnected := by
    intro hending
    rcases h.ending_cases hending with hsame | ⟨-, hclosed⟩
    · exact hbefore.disconnected hsame
    · exact absurd (hclosed rfl).1 (by rw [hopen]; decide)
  alarm := h.not_alarm hfailFast

end Station.Moves

namespace Pool

/-- Nobody has cancelled the job or dropped its drain, and no worker acts as if somebody had. -/
structure Undisturbed (pool : Pool) : Prop where
  token : pool.token.isCancelled = false
  drain : pool.link.channel.receiving = true
  worker : ∀ worker ∈ pool.workers, worker.Undisturbed

variable {rules : Rules} {pool after : Pool} {event : Event} {published : Option (Nat × Nat)}
  {answer : Option Polled}

theorem Undisturbed.moves (h : pool.Undisturbed) (hfailFast : rules.failFast = false)
    (hcalm : rules.predicate.Calm) (hinner : event.isInner = true)
    (hmoves : Moves rules pool event published answer after) : after.Undisturbed := by
  cases hmoves with
  | work index kept hindex _ moved hmoves =>
      have hworker := h.worker _ (Array.getElem_mem hindex)
      refine ⟨?_, ?_, ?_⟩
      · rw [hmoves.token_eq hfailFast hcalm hworker.alarm]
        exact h.token
      · exact hmoves.drain_eq.1.trans h.drain
      · exact forall_mem_set hindex h.worker (hmoves.undisturbed hfailFast h.token h.drain hworker)
  | join index hindex worker hjoin =>
      have hworker := h.worker _ (Array.getElem_mem hindex)
      have hending := Worker.ending?_of_join? hjoin
      refine ⟨h.token, h.drain, forall_mem_set hindex h.worker ⟨?_, ?_, ?_⟩⟩
      · rw [hending]
        exact hworker.cancelled
      · rw [hending]
        exact hworker.disconnected
      · obtain ⟨ending, -, rfl, -⟩ := Worker.join?_eq_some hjoin
        exact nofun
  | dropDrain _ | cancel _ _ => cases hinner
  | register _ | sleep _ _ _ | wake _ _ _ | release _ _ _ | deliver _ _ _ _ _ | finish _ _ _ _ _
  | violate _ _ _ _ _ => exact ⟨h.token, h.drain, h.worker⟩

theorem Undisturbed.ofStart {ranges : List Span} {capacity : Nat} {link : ResultChannel} {token : Token}
    (hlink : ResultChannel.make capacity ranges.length = .ok link)
    (hstart : Pool.start ranges link token = .ok pool) (htoken : token.isCancelled = false) :
    pool.Undisturbed := by
  have hfresh : ∀ worker ∈ pool.workers, worker.Undisturbed := by
    intro worker hworker
    obtain ⟨id, range, rfl⟩ := exists_ofRange_of_start hstart hworker
    exact ⟨nofun, nofun, nofun⟩
  obtain ⟨-, -, rfl⟩ := ResultChannel.make_eq_ok.1 hlink
  obtain ⟨-, rfl⟩ := Pool.start_eq_ok.1 hstart
  exact ⟨htoken, rfl, hfresh⟩

namespace History

variable {predicate : Predicate} {ranges : List Span} {history last : History}

/-- What the report of a pool says when every worker did what it does on its own. -/
structure Exact (predicate : Predicate) (ranges : List Span) (history : History) (report : Report) :
    Prop where
  workers : report.workers = ranges.mapIdx predicate.soloSummary
  faults : report.faults.Perm ((ranges.mapIdx predicate.soloFault).filterMap id)
  published : ∀ index range, ranges[index]? = some range →
    history.publishedBy index = predicate.soloValues range ∧
      (history.publishedBy index).Pairwise (· < ·)

theorem Sound.exact (h : history.Sound predicate ranges)
    (hjoined : history.pool.workers.all Worker.isJoined = true)
    (hcancelled : ∀ worker ∈ history.pool.workers, worker.ending? ≠ some .cancelled)
    (hdisconnected : ∀ worker ∈ history.pool.workers, worker.ending? ≠ some .disconnected) :
    history.Exact predicate ranges history.pool.report := by
  have hsolo {index : Nat} {worker : Worker} (hworker : history.pool.workers[index]? = some worker) :
      history.publishedBy index = predicate.soloValues worker.range ∧
        worker.report? = some (predicate.soloSummary worker.id worker.range) ∧
          worker.fault? = predicate.soloFault worker.id worker.range := by
    have hmem := Array.mem_of_getElem? hworker
    obtain ⟨ending, hending⟩ :=
      Worker.ending?_of_isJoined (Array.all_eq_true_iff_forall_mem.1 hjoined worker hmem)
    exact (h.books.worker hworker).2.2.solo (hcancelled worker hmem) (hdisconnected worker hmem) hending
  refine ⟨?_, ?_, ?_⟩
  · exact h.report_workers_eq hjoined fun _ _ hworker => (hsolo hworker).2.1
  · have hfaults := h.books.map_workers fun _ _ hworker => (hsolo hworker).2.2
    have hperm := h.report_faults hjoined
    rw [← hfaults, List.filterMap_map]
    exact hperm
  · intro index range hrange
    have hindex : index < history.pool.workers.size := by
      rw [h.books.size]
      exact (List.getElem?_eq_some_iff.1 hrange).1
    have hworker := Array.getElem?_eq_getElem hindex
    have hsame := (h.books.worker hworker).2.1
    rw [hrange, Option.some_inj] at hsame
    rw [(hsolo hworker).1, hsame]
    exact ⟨rfl, Predicate.sorted_soloValues _⟩

/-- **Undisturbed runs.** Over every list of ranges with a channel made for them, every schedule of
the workers, the closer, the joining and the drain comes to its end after a bounded number of moves,
and all ends are alike: each worker has published, counted and reported what it does on its own, and
the drain has delivered all of it. -/
theorem undisturbed_exact {rules : Rules} {capacity : Nat} {link : ResultChannel} {pool : Pool}
    {events : List Event} (hlink : ResultChannel.make capacity ranges.length = .ok link)
    (hstart : Pool.start ranges link {} = .ok pool) (hfailFast : rules.failFast = false)
    (hcalm : rules.predicate.Calm) (hinner : ∀ event ∈ events, event.isInner = true)
    (hrun : (History.ofPool pool).follow rules events = some last) :
    events.length ≤ pool.effort ∧
      (∀ result, last.pool.result? = some result →
        ∃ report, result = .ok report ∧ last.Exact rules.predicate ranges report) ∧
      (last.pool.AtRest rules → (∃ report, last.pool.result? = some (.ok report)) ∧
        last.pool.link.finished = true ∧ last.delivered = last.published.map Prod.snd) := by
  have hfresh : (History.ofPool pool).Sound rules.predicate ranges := .ofStart hlink hstart
  have hsound := hfresh.follow hrun
  have hundisturbed : last.pool.Undisturbed := by
    have hfirst : (History.ofPool pool).pool.Undisturbed := .ofStart hlink hstart rfl
    refine follow_induction (P := fun history => history.pool.Undisturbed)
      (fun _ event _ _ _ hmem h hmoves => ?_) hfirst hrun
    exact Pool.Undisturbed.moves h hfailFast hcalm (hinner event hmem) hmoves
  have hbounded := length_follow_le hfresh hrun
  refine ⟨Nat.le_trans (Nat.le_add_right _ _) hbounded, ?_, ?_⟩
  · intro result hresult
    obtain ⟨rfl, hjoined, -⟩ := hsound.result?_eq_some hresult
    exact ⟨_, rfl, hsound.exact hjoined
      (fun worker hworker => (hundisturbed.worker worker hworker).cancelled)
      fun worker hworker => (hundisturbed.worker worker hworker).disconnected⟩
  · intro hrest
    obtain ⟨hresult, hfinished⟩ := result?_of_atRest hsound hrest
    have hended := hfinished hundisturbed.drain
    exact ⟨⟨_, hresult⟩, hended, hsound.delivery.whole hended⟩

/-- Every value is accepted but 1, on which the predicate fails. -/
def failingAtOne : Rules where
  predicate value := if value = 1 then .failed "one" else .decided true none
  yieldInterval := 1
  yieldInterval_pos := Nat.one_pos
  failFast := false

/-- One worker publishes 0 and then fails on 1 while the other, whose range overlaps, fails on 1 at
once. -/
theorem undisturbed_exact_overlapping :
    ∃ pool last report,
      Pool.start [⟨0, 2, by decide⟩, ⟨1, 2, by decide⟩] ⟨.ofCapacity 1 1, .ofExpected 2, 0, false⟩ {} =
        .ok pool ∧
      (History.ofPool pool).follow failingAtOne
        [.work 0, .work 1, .work 0, .work 0, .work 0, .receive, .work 1, .work 0, .close, .work 1,
          .work 0, .close, .work 1, .work 0, .work 0, .close, .close, .join 1, .close, .join 0,
          .receive] =
        some last ∧
      last.pool.result? = some (.ok report) ∧
      last.Exact failingAtOne.predicate [⟨0, 2, by decide⟩, ⟨1, 2, by decide⟩] report := by
  have hlink : ResultChannel.make 1 [Span.mk 0 2, Span.mk 1 2].length =
      .ok ⟨.ofCapacity 1 1, .ofExpected 2, 0, false⟩ := rfl
  have hstart : Pool.start [Span.mk 0 2, Span.mk 1 2] ⟨.ofCapacity 1 1, .ofExpected 2, 0, false⟩ {} =
      .ok ⟨#[.ofRange 0 (Span.mk 0 2), .ofRange 1 (Span.mk 1 2)],
        ⟨.ofCapacity 1 3, .ofExpected 2, 0, false⟩, {}, .fresh, #[]⟩ := rfl
  have hcalm : failingAtOne.predicate.Calm := by
    intro value accepted scope
    dsimp only [failingAtOne]
    split <;> simp
  have hends : ((History.follow failingAtOne
        (.ofPool ⟨#[.ofRange 0 (Span.mk 0 2), .ofRange 1 (Span.mk 1 2)],
          ⟨.ofCapacity 1 3, .ofExpected 2, 0, false⟩, {}, .fresh, #[]⟩)
        [.work 0, .work 1, .work 0, .work 0, .work 0, .receive, .work 1, .work 0, .close, .work 1,
          .work 0, .close, .work 1, .work 0, .work 0, .close, .close, .join 1, .close, .join 0,
          .receive]).any
      fun last => last.pool.result?.isSome) = true := by
    decide +kernel
  obtain ⟨last, hrun, hlast⟩ := (Option.any_eq_true _ _).1 hends
  obtain ⟨result, hresult⟩ := Option.isSome_iff_exists.1 hlast
  have hexact := undisturbed_exact hlink hstart rfl hcalm (by decide) hrun
  obtain ⟨report, rfl, hreport⟩ := hexact.2.1 result hresult
  exact ⟨_, last, report, hstart, hrun, hresult, hreport⟩

end History

end Pool

end ParallelFilter
