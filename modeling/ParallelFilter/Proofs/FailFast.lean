import ParallelFilter.Proofs.Attended
import ParallelFilter.Proofs.Blame
import ParallelFilter.Proofs.Undisturbed

/-! What fail-fast changes. Both with it and without it each worker does what it does on its own, up
to the point where it is stopped. Without it nobody is stopped, with it somebody must have run into
a fault first. So the two kinds of run agree on whether the job fails, and all that a fail-fast run
publishes and reports as a fault, the other publishes and reports too. -/

namespace ParallelFilter.Pool.History

variable {predicate : Predicate} {ranges : List Span} {failFast : Bool} {last fast slow : History}
  {report cut full : Report}

/-- A run over the ranges that has come to its report, on a channel and a schedule of its own. Its
consumer stays, and nobody cancels it from outside. -/
def Reports (predicate : Predicate) (failFast : Bool) (ranges : List Span) (last : History)
    (report : Report) :
    Prop :=
  ∃ capacity link pool rules events, ResultChannel.make capacity ranges.length = .ok link ∧
    Pool.start ranges link {} = .ok pool ∧ rules.predicate = predicate ∧ rules.failFast = failFast ∧
    (∀ event ∈ events, event.isInner = true) ∧ (ofPool pool).follow rules events = some last ∧
    last.pool.result? = some (.ok report)

/-- What a fail-fast run, with its report, is to a run that goes on. -/
structure CutShort (predicate : Predicate) (ranges : List Span) (fast slow : History)
    (cut full : Report) :
    Prop where
  fails : cut.faults ≠ [] ↔ full.faults ≠ []
  faults : ∀ fault ∈ cut.faults, fault ∈ full.faults
  published : ∀ index range, ranges[index]? = some range →
    fast.publishedBy index <+: slow.publishedBy index
  clean : (∀ range ∈ ranges, ∀ value ∈ range.values, predicate.decides value = true) →
    cut.workers = full.workers ∧
      ∀ index range, ranges[index]? = some range → fast.publishedBy index = slow.publishedBy index

/-- What holds of a pool that nobody disturbs from outside. -/
structure Inner (pool : Pool) : Prop where
  attended : pool.Attended
  heeding : pool.Heeding
  blameable : pool.Blameable

/-- What is known of a run that has come to its report. -/
theorem Reports.sound (h : Reports predicate failFast ranges last report) (hcalm : predicate.Calm) :
    last.Sound predicate ranges ∧ Inner last.pool ∧ last.pool.workers.all Worker.isJoined = true ∧
      report = last.pool.report := by
  obtain ⟨capacity, link, pool, rules, events, hlink, hstart, rfl, -, hinner, hrun, hresult⟩ := h
  have hfirst : (ofPool pool).Sound rules.predicate ranges ∧ Inner (ofPool pool).pool :=
    ⟨.ofStart hlink hstart, .ofStart hlink hstart, .ofStart hstart, .ofStart hstart rfl⟩
  obtain ⟨hsound, hpool⟩ : last.Sound rules.predicate ranges ∧ Inner last.pool := by
    refine follow_induction (P := fun history => history.Sound rules.predicate ranges ∧
      Inner history.pool)
      (fun history event _ _ _ hmem h hmoves => ?_) hfirst hrun
    obtain ⟨hsound, hattended, hheeding, hblameable⟩ := h
    have hevent := hinner event hmem
    refine ⟨hsound.moves hmoves, hattended.moves hsound.closing ?_ hmoves, hheeding.moves hmoves,
      hblameable.moves hcalm ?_ hmoves⟩
    · rintro rfl
      cases hevent
    · rintro scope rfl
      cases hevent
  obtain ⟨hreport, hjoined, -⟩ := hsound.result?_eq_some hresult
  exact ⟨hsound, hpool, hjoined, Except.ok.inj hreport⟩

/-- Without fail-fast every worker does what it does on its own. -/
theorem Reports.exact (h : Reports predicate false ranges last report) (hcalm : predicate.Calm) :
    last.Exact predicate ranges report := by
  obtain ⟨hsound, -, hjoined, rfl⟩ := h.sound hcalm
  obtain ⟨capacity, link, pool, rules, events, hlink, hstart, rfl, hfailFast, hinner, hrun, -⟩ := h
  have hfirst : (ofPool pool).pool.Undisturbed := .ofStart hlink hstart rfl
  have hundisturbed : last.pool.Undisturbed :=
    follow_induction (P := fun history => history.pool.Undisturbed)
      (fun _ event _ _ _ hmem h hmoves => Pool.Undisturbed.moves h hfailFast hcalm
        (hinner event hmem) hmoves)
      hfirst hrun
  exact hsound.exact hjoined (fun worker hworker => (hundisturbed.worker worker hworker).cancelled)
    fun worker hworker => (hundisturbed.worker worker hworker).disconnected

/-- So it does in any run without faults: nobody is to blame for a cancellation, so there was none. -/
theorem Reports.exact_of_faults_eq_nil (h : Reports predicate failFast ranges last report)
    (hcalm : predicate.Calm) (hfaults : report.faults = []) : last.Exact predicate ranges report := by
  obtain ⟨hsound, hinner, hjoined, rfl⟩ := h.sound hcalm
  refine hsound.exact hjoined (fun worker hworker hending => ?_) hinner.attended.connected
  obtain ⟨other, hother, hfaulted⟩ := hinner.blameable.cancelled (hinner.heeding worker hworker hending)
  rw [← Worker.isSome_fault?] at hfaulted
  obtain ⟨fault, hfault⟩ := Option.isSome_iff_exists.1 hfaulted
  obtain ⟨index, hindex⟩ := Array.mem_iff_getElem?.1 hother
  have hreported : fault ∈ last.pool.report.faults :=
    (hsound.mem_report_faults hjoined).2 ⟨index, other, hindex, hfault⟩
  rw [hfaults] at hreported
  cases hreported

/-- A fault that is reported is the one that its worker has on its own. -/
theorem Reports.mem_soloFaults (h : Reports predicate failFast ranges last report)
    (hcalm : predicate.Calm) {fault : Fault} (hfault : fault ∈ report.faults) :
    fault ∈ (ranges.mapIdx predicate.soloFault).filterMap id := by
  obtain ⟨hsound, -, hjoined, rfl⟩ := h.sound hcalm
  obtain ⟨index, worker, hindex, hsome⟩ := (hsound.mem_report_faults hjoined).1 hfault
  obtain ⟨hid, hrange, haccounts⟩ := hsound.books.worker hindex
  have hfaulted : worker.hasFaulted = true := by
    rw [← Worker.isSome_fault?, hsome]
    rfl
  obtain ⟨ending, hending, hkind⟩ := Worker.hasFaulted_iff.1 hfaulted
  obtain ⟨-, -, hsolo⟩ := haccounts.solo (by rw [hending]; rintro ⟨⟩; cases hkind)
    (by rw [hending]; rintro ⟨⟩; cases hkind) hending
  rw [hsome, hid] at hsolo
  refine List.mem_filterMap.2 ⟨some fault, ?_, rfl⟩
  rw [List.mem_iff_getElem?]
  exact ⟨index, by rw [List.getElem?_mapIdx, hrange, Option.map_some, ← hsolo]⟩

theorem Reports.published_prefix (h : Reports predicate failFast ranges last report)
    (hcalm : predicate.Calm) {index : Nat} {range : Span} (hrange : ranges[index]? = some range) :
    last.publishedBy index <+: predicate.soloValues range := by
  obtain ⟨hsound, -, -, -⟩ := h.sound hcalm
  have hindex : index < last.pool.workers.size := by
    rw [hsound.books.size]
    exact (List.getElem?_eq_some_iff.1 hrange).1
  obtain ⟨-, hsame, haccounts⟩ := hsound.books.worker (Array.getElem?_eq_getElem hindex)
  rw [hrange, Option.some_inj] at hsame
  rw [hsame]
  exact haccounts.sent_prefix

/-- **Fail-fast only cuts work short.** A run with fail-fast and a run without it, each over the
same ranges with the same predicate but on a channel and a schedule of its own, agree on whether the
job fails. Faults and published values of the first are among those of the second, and without a
fault they are the same. -/
theorem failFast_cuts_short (hcalm : predicate.Calm)
    (hfast : Reports predicate true ranges fast cut)
    (hslow : Reports predicate false ranges slow full) :
    CutShort predicate ranges fast slow cut full := by
  have hexact := hslow.exact hcalm
  have hfaults : ∀ fault ∈ cut.faults, fault ∈ full.faults := by
    intro fault hfault
    exact hexact.faults.mem_iff.2 (hfast.mem_soloFaults hcalm hfault)
  have hsame (hnone : cut.faults = []) : full.faults = [] := by
    have hsolo := (hfast.exact_of_faults_eq_nil hcalm hnone).faults
    rw [hnone, List.nil_perm] at hsolo
    have hfull := hexact.faults
    rwa [hsolo, List.perm_nil] at hfull
  refine ⟨not_congr ⟨hsame, fun hnone => ?_⟩, hfaults, fun index range hrange => ?_, fun hdecides => ?_⟩
  · rw [List.eq_nil_iff_forall_not_mem]
    intro fault hfault
    have hmem := hfaults fault hfault
    rw [hnone] at hmem
    cases hmem
  · rw [(hexact.published index range hrange).1]
    exact hfast.published_prefix hcalm hrange
  · have hclean : cut.faults = [] := by
      rw [List.eq_nil_iff_forall_not_mem]
      intro fault hfault
      obtain ⟨solo, hsolo, rfl⟩ := List.mem_filterMap.1 (hfast.mem_soloFaults hcalm hfault)
      obtain ⟨index, hindex, hsolo⟩ := List.mem_mapIdx.1 hsolo
      have hnone : predicate.obstacle? ranges[index] = none := by
        rw [Predicate.obstacle?, List.find?_eq_none]
        intro value hvalue
        rw [hdecides _ (List.getElem_mem hindex) value hvalue]
        decide
      rw [Predicate.soloFault, hnone] at hsolo
      cases hsolo
    have hcut := hfast.exact_of_faults_eq_nil hcalm hclean
    refine ⟨hcut.workers.trans hexact.workers.symm, fun index range hrange => ?_⟩
    rw [(hcut.published index range hrange).1, (hexact.published index range hrange).1]

theorem eq_ok_of_toOption {α : Type} {result : Except Error α} {value : α}
    (h : result.toOption = some value) :
    result = .ok value := by
  cases result with
  | error _ => cases h
  | ok _ => exact congrArg _ (Option.some_inj.1 h)

/-- A run whose end can be computed. -/
theorem exists_reports (capacity count : Nat) (ranges : List Span) (rules : Rules)
    (events : List Event) (hinner : ∀ event ∈ events, event.isInner = true)
    (hends : (((ResultChannel.make capacity ranges.length).toOption.bind fun link =>
      (Pool.start ranges link {}).toOption.bind fun pool => (ofPool pool).follow rules events).any
      fun last => last.pool.result?.isSome && last.pool.report.faults.length == count) = true) :
    ∃ last report, Reports rules.predicate rules.failFast ranges last report ∧
      report.faults.length = count := by
  obtain ⟨last, hlast, hgood⟩ := (Option.any_eq_true _ _).1 hends
  obtain ⟨link, hlink, hlast⟩ := Option.bind_eq_some_iff.1 hlast
  obtain ⟨pool, hpool, hrun⟩ := Option.bind_eq_some_iff.1 hlast
  have hmade := eq_ok_of_toOption hlink
  have hstart := eq_ok_of_toOption hpool
  obtain ⟨hsome, hcount⟩ := (Bool.and_eq_true _ _).mp hgood
  obtain ⟨result, hresult⟩ := Option.isSome_iff_exists.1 hsome
  have hsound : last.Sound rules.predicate ranges := .follow (.ofStart hmade hstart) hrun
  obtain ⟨rfl, -⟩ := hsound.result?_eq_some hresult
  exact ⟨last, _, ⟨capacity, link, pool, rules, events, hmade, hstart, rfl, rfl, hinner, hrun, hresult⟩,
    beq_iff_eq.1 hcount⟩

/-- Accepts 0 and 2, fails on 1 and panics on 3. -/
def faulty (failFast : Bool) : Rules where
  predicate value :=
    if value = 1 then .failed "one"
    else if value = 3 then .panicked .other
    else .decided true none
  yieldInterval := 8
  yieldInterval_pos := by decide
  failFast

/-- Two values for each of two workers. -/
def pairs : List Span :=
  [⟨0, 2, by decide⟩, ⟨2, 4, by decide⟩]

/-- Two workers both publish a value. With fail-fast the failure of the one stops the other before its
panic. -/
theorem failFast_cuts_short_one_of_two : ∃ fast slow cut full,
    Reports (faulty true).predicate true pairs fast cut ∧
    Reports (faulty true).predicate false pairs slow full ∧
    cut.faults.length = 1 ∧ full.faults.length = 2 ∧
    CutShort (faulty true).predicate pairs fast slow cut full := by
  have hcalm : (faulty true).predicate.Calm := by
    intro value accepted scope
    dsimp only [faulty]
    split
    · simp
    · split <;> simp
  obtain ⟨fast, cut, hfast, hone⟩ := exists_reports 2 1 pairs (faulty true)
    [.work 1, .work 1, .work 1, .work 0, .work 0, .work 0, .work 0, .work 0, .work 1, .work 0, .work 0,
      .work 1, .work 1, .close, .close, .receive, .join 1, .join 0] (by decide) (by decide +kernel)
  obtain ⟨slow, full, hslow, htwo⟩ := exists_reports 1 2 pairs (faulty false)
    [.work 0, .work 0, .work 0, .work 0, .work 0, .receive, .work 1, .work 1, .work 1, .work 1, .work 1,
      .work 0, .work 0, .work 1, .work 1, .close, .close, .join 1, .join 0] (by decide)
        (by decide +kernel)
  exact ⟨fast, slow, cut, full, hfast, hslow, hone, htwo, failFast_cuts_short hcalm hfast hslow⟩

end ParallelFilter.Pool.History
