import ParallelFilter.Proofs.Blame
import ParallelFilter.Proofs.ExactlyOnce
import ParallelFilter.Proofs.Running
import Mathlib.Algebra.Order.Group.Nat

/-! How the report of a finished job, its faults and its verdict agree. The outcomes of the workers
are collected in any order, and a fault is recorded in one of two ways, but each worker has its
entry in the report and a fault if and only if the entry says so. The verdict, which looks at the
faults and the cancelled workers only, is the one that all entries together call for. -/

namespace ParallelFilter

/-- The fault that a call on the value leads to. A failure names the value, a panic does not. -/
def Predicate.faultOn (predicate : Predicate) (id : Nat) (range : Span) (value : Nat) : Option Fault :=
  match predicate value with
  | .decided _ _ => none
  | .failed reason => some ⟨id, range, some value, reason⟩
  | .panicked payload => some ⟨id, range, none, "panicked: " ++ payload.message⟩

/-- What the output of a job has to say, given whether the job was cancelled. -/
structure Agreement (job : Job) (cancelled : Bool) (output : Output) : Prop where
  ids : output.report.workers.map (·.worker) = List.range job.workers
  ranges : output.report.workers.map (·.range) = output.ranges
  counts : ∀ summary ∈ output.report.workers,
    summary.accepted ≤ summary.evaluated ∧ summary.evaluated ≤ summary.range.length
  connected : ∀ summary ∈ output.report.workers, summary.status ≠ .disconnected
  heeding : ∀ summary ∈ output.report.workers, summary.status = .cancelled → cancelled = true
  /-- A worker that faulted has one fault, the others have none. -/
  faulted : ∀ summary ∈ output.report.workers,
    (output.report.faults.filter (·.worker == summary.worker)).length =
      if summary.status = .faulted then 1 else 0
  /-- A fault is that of a worker, on the value after those that it has decided. -/
  named : ∀ fault ∈ output.report.faults, ∃ summary ∈ output.report.workers,
    summary.worker = fault.worker ∧
    job.predicate.faultOn summary.worker summary.range (summary.range.start + summary.evaluated) =
      some fault
  accepted_le : output.report.accepted ≤ output.report.evaluated
  evaluated_le : output.report.evaluated ≤ output.covered
  covered_le : output.covered ≤ job.total
  ok : (∃ values, output.result = .ok values) ↔ output.report.isComplete = true
  workerFaults : (∃ faults values, output.result = .error (.workerFaults faults values)) ↔
    ∃ summary ∈ output.report.workers, summary.status = .faulted
  stopped : output.result = .error .cancelled ↔
    (∀ summary ∈ output.report.workers, summary.status ≠ .faulted) ∧
      ∃ summary ∈ output.report.workers, summary.status = .cancelled

theorem Ending.status_eq_faulted {ending : Ending} :
    ending.status = .faulted ↔ ending.isFault = true := by
  cases ending <;> simp [status, isFault]

theorem Ending.status_eq_cancelled {ending : Ending} :
    ending.status = .cancelled ↔ ending = .cancelled := by
  cases ending <;> simp [status]

theorem Ending.status_eq_disconnected {ending : Ending} :
    ending.status = .disconnected ↔ ending = .disconnected := by
  cases ending <;> simp [status]

namespace Worker

variable {predicate : Predicate} {worker : Worker} {sent : List Nat}

theorem Accounts.accepted_le (h : worker.Accounts predicate sent) :
    worker.accepted ≤ worker.evaluated := by
  obtain ⟨rest, hrest, -⟩ := h.balance
  calc
    worker.accepted = sent.length := h.accepted
    _ ≤ (sent ++ rest).length := by
      rw [List.length_append]
      exact Nat.le_add_right _ _
    _ = (predicate.hits worker.range worker.evaluated).length := by rw [hrest]
    _ ≤ (worker.range.firstValues worker.evaluated).length := List.length_filter_le _ _
    _ = worker.evaluated := Span.length_firstValues h.evaluated_le

theorem Accounts.faultOn_of_fault? (h : worker.Accounts predicate sent) {fault : Fault}
    (hfault : worker.fault? = some fault) :
    predicate.faultOn worker.id worker.range worker.next = some fault := by
  cases hending : worker.ending? with
  | none =>
      rw [fault?, hending] at hfault
      cases hfault
  | some ending =>
      cases ending with
      | failed reason =>
          obtain ⟨-, -, hcall⟩ := h.of_failed hending
          rw [fault?, hending] at hfault
          rw [Predicate.faultOn, hcall]
          exact hfault
      | panicked payload =>
          obtain ⟨-, -, hcall⟩ := h.of_panicked hending
          rw [fault?, hending] at hfault
          rw [Predicate.faultOn, hcall]
          exact hfault
      | completed | cancelled | disconnected =>
          rw [fault?, hending] at hfault
          cases hfault

theorem worker_of_fault? {fault : Fault} (h : worker.fault? = some fault) :
    fault.worker = worker.id := by
  unfold fault? at h
  split at h
  · cases h
    rfl
  · cases h
    rfl
  · cases h

/-- Where the workers have different ids, the faults with the id of a worker are its own. -/
theorem filter_faults {workers : List Worker}
    (hids : workers.Pairwise fun left right => left.id ≠ right.id) (hworker : worker ∈ workers) :
    (workers.filterMap fault?).filter (·.worker == worker.id) = worker.fault?.toList := by
  have hother {others : List Worker} (hne : ∀ other ∈ others, other.id ≠ worker.id) :
      (others.filterMap fault?).filter (·.worker == worker.id) = [] := by
    rw [List.filter_eq_nil_iff]
    intro fault hfault
    obtain ⟨other, hmem, hsome⟩ := List.mem_filterMap.1 hfault
    rw [worker_of_fault? hsome, beq_iff_eq]
    exact hne other hmem
  have hself : (worker.fault?.toList).filter (·.worker == worker.id) = worker.fault?.toList := by
    rw [List.filter_eq_self]
    intro fault hfault
    rw [worker_of_fault? (Option.mem_toList.1 hfault), beq_iff_eq]
  obtain ⟨before, after, rfl⟩ := List.append_of_mem hworker
  obtain ⟨-, hafter, hbefore⟩ := List.pairwise_append.1 hids
  have hcons : (worker :: after).filterMap fault? = worker.fault?.toList ++ after.filterMap fault? := by
    cases hfault : worker.fault? with
    | none => rw [List.filterMap_cons_none hfault, Option.toList_none, List.nil_append]
    | some fault => rw [List.filterMap_cons_some hfault, Option.toList_some, List.singleton_append]
  rw [List.filterMap_append, hcons, List.filter_append, List.filter_append, hself,
    hother fun other hmem => hbefore other hmem worker List.mem_cons_self,
    hother fun other hmem => ((List.pairwise_cons.1 hafter).1 other hmem).symm, List.nil_append,
      List.append_nil]

end Worker

theorem Report.wasCancelled_iff {report : Report} :
    report.wasCancelled = true ↔ ∃ summary ∈ report.workers, summary.status = .cancelled := by
  simp only [wasCancelled, List.any_eq_true, beq_iff_eq]

namespace Output

variable {output : Output}
  (hfaults : output.report.faults = [] ↔ ∀ summary ∈ output.report.workers, summary.status ≠ .faulted)

include hfaults

/-- The verdict looks at the faults and the cancelled workers only, and so it sees every worker that
did not complete. -/
theorem exists_result_eq_ok
    (hconnected : ∀ summary ∈ output.report.workers, summary.status ≠ .disconnected) :
    (∃ values, output.result = .ok values) ↔ output.report.isComplete = true := by
  simp only [result_eq_ok, hfaults, Report.isComplete, List.all_eq_true, beq_iff_eq, exists_and_left,
    exists_eq', and_true, ← Bool.not_eq_true, Report.wasCancelled_iff]
  constructor
  · rintro ⟨hclean, hcancelled⟩ summary hsummary
    cases hstatus : summary.status with
    | completed => rfl
    | cancelled => exact absurd ⟨summary, hsummary, hstatus⟩ hcancelled
    | disconnected => exact absurd hstatus (hconnected summary hsummary)
    | faulted => exact absurd hstatus (hclean summary hsummary)
  · intro hcompleted
    refine ⟨fun summary hsummary => ?_, ?_⟩
    · rw [hcompleted summary hsummary]
      decide
    · rintro ⟨summary, hsummary, hstatus⟩
      rw [hcompleted summary hsummary] at hstatus
      cases hstatus

theorem exists_result_eq_workerFaults :
    (∃ faults values, output.result = .error (.workerFaults faults values)) ↔
    ∃ summary ∈ output.report.workers, summary.status = .faulted := by
  simp only [result_eq_workerFaults, Ne, hfaults, not_forall, not_not, exists_and_left,
    exists_eq', and_true, exists_prop]

theorem result_eq_cancelled_iff : output.result = .error .cancelled ↔
    (∀ summary ∈ output.report.workers, summary.status ≠ .faulted) ∧
      ∃ summary ∈ output.report.workers, summary.status = .cancelled := by
  rw [result_eq_cancelled, hfaults, Report.wasCancelled_iff]

end Output

namespace Pool.History.Sound

variable {predicate : Predicate} {ranges : List Span} {history : History}
  (h : history.Sound predicate ranges) (hjoined : history.pool.workers.all Worker.isJoined = true)

include h hjoined

/-- Every entry of the report is that of a worker. -/
theorem exists_worker_of_mem {summary : WorkerSummary}
    (hsummary : summary ∈ history.pool.report.workers) :
    ∃ worker ending, history.pool.workers[summary.worker]? = some worker ∧
      worker.ending? = some ending ∧
      summary = ⟨worker.id, worker.range, worker.evaluated, worker.accepted, ending.status⟩ := by
  rw [h.report_workers hjoined] at hsummary
  obtain ⟨worker, hworker, hreport⟩ := List.mem_filterMap.1 hsummary
  obtain ⟨ending, hending, rfl⟩ := Option.map_eq_some_iff.1 hreport
  obtain ⟨index, hindex⟩ := List.mem_iff_getElem?.1 hworker
  rw [Array.getElem?_toList] at hindex
  obtain ⟨hid, -, -⟩ := h.books.worker hindex
  exact ⟨worker, ending, by rw [hid]; exact hindex, hending, rfl⟩

/-- Every worker has its entry. -/
theorem exists_entry {index : Nat} {worker : Worker}
    (hworker : history.pool.workers[index]? = some worker) :
    ∃ ending, worker.ending? = some ending ∧
      ⟨worker.id, worker.range, worker.evaluated, worker.accepted, ending.status⟩ ∈
        history.pool.report.workers := by
  obtain ⟨ending, hending⟩ := Worker.ending?_of_isJoined
    (Array.all_eq_true_iff_forall_mem.1 hjoined worker (Array.mem_of_getElem? hworker))
  have hentry := h.report_getElem? hjoined index
  rw [hworker, Option.bind_some, Worker.report?, hending] at hentry
  exact ⟨ending, hending, List.mem_of_getElem? hentry⟩

theorem report_ids : history.pool.report.workers.map (·.worker) = List.range ranges.length := by
  apply List.ext_getElem
  · rw [List.length_map, h.length_report_workers hjoined, List.length_range]
  · intro index hleft hright
    obtain ⟨worker, ending, -, -, -, hentry⟩ :=
      h.report_summary hjoined (List.getElem?_eq_getElem (List.length_range ▸ hright))
    rw [List.getElem_map, List.getElem_range, (List.getElem?_eq_some_iff.1 hentry).2]

theorem report_ranges : history.pool.report.workers.map (·.range) = ranges := by
  apply List.ext_getElem
  · rw [List.length_map, h.length_report_workers hjoined]
  · intro index hleft hright
    obtain ⟨worker, ending, -, -, -, hentry⟩ :=
      h.report_summary hjoined (List.getElem?_eq_getElem hright)
    rw [List.getElem_map, (List.getElem?_eq_some_iff.1 hentry).2]

/-- The faults with the id of a worker are its own, and it has one at most. -/
theorem length_filter_faults {index : Nat} {worker : Worker}
    (hworker : history.pool.workers[index]? = some worker) :
    (history.pool.report.faults.filter (·.worker == worker.id)).length =
      if worker.hasFaulted = true then 1 else 0 := by
  have hids : history.pool.workers.toList.Pairwise fun left right => left.id ≠ right.id :=
    h.books.ids_ascending.imp Nat.ne_of_lt
  have hmem : worker ∈ history.pool.workers.toList :=
    Array.mem_toList_iff.2 (Array.mem_of_getElem? hworker)
  rw [((h.report_faults hjoined).filter _).length_eq, Worker.filter_faults hids hmem,
    ← Worker.isSome_fault?]
  cases worker.fault? <;> rfl

/-- A fault is reported just when an entry of the report shows one. -/
theorem report_faults_eq_nil : history.pool.report.faults = [] ↔
    ∀ summary ∈ history.pool.report.workers, summary.status ≠ .faulted := by
  constructor
  · intro hnone summary hsummary hstatus
    obtain ⟨worker, ending, hworker, hending, rfl⟩ := h.exists_worker_of_mem hjoined hsummary
    have hone := h.length_filter_faults hjoined hworker
    rw [hnone, if_pos (Worker.hasFaulted_iff.2
      ⟨ending, hending, Ending.status_eq_faulted.1 hstatus⟩)] at hone
    cases hone
  · intro hclean
    rw [List.eq_nil_iff_forall_not_mem]
    intro fault hfault
    obtain ⟨index, worker, hindex, hsome⟩ := (h.mem_report_faults hjoined).1 hfault
    obtain ⟨ending, hending, hentry⟩ := h.exists_entry hjoined hindex
    refine hclean _ hentry (Ending.status_eq_faulted.2 ?_)
    have hfaulted : worker.hasFaulted = true := by
      rw [← Worker.isSome_fault?, hsome]
      rfl
    rwa [Worker.hasFaulted, hending, Option.any_some] at hfaulted

theorem report_counts : ∀ summary ∈ history.pool.report.workers,
    summary.accepted ≤ summary.evaluated ∧ summary.evaluated ≤ summary.range.length := by
  intro summary hsummary
  obtain ⟨worker, ending, hworker, -, rfl⟩ := h.exists_worker_of_mem hjoined hsummary
  obtain ⟨-, -, haccounts⟩ := h.books.worker hworker
  exact ⟨haccounts.accepted_le, haccounts.evaluated_le⟩

/-- What the entries of the report say agrees with the faults, the ranges and the verdict. -/
theorem agreement (hattended : history.pool.Attended) (hheeding : history.pool.Heeding) {job : Job}
    {covered : Nat} (hpredicate : job.predicate = predicate) (hworkers : ranges.length = job.workers)
    (htiling : Tiling ranges covered) (hcovered : covered ≤ job.total) (values : List Nat) :
    Agreement job history.pool.token.isCancelled ⟨values, history.pool.report, ranges⟩ := by
  have hcounts := h.report_counts hjoined
  have hnil := h.report_faults_eq_nil hjoined
  have hmem {index : Nat} {worker : Worker} (hworker : history.pool.workers[index]? = some worker) :
      worker ∈ history.pool.workers := Array.mem_of_getElem? hworker
  have hconnected : ∀ summary ∈ history.pool.report.workers, summary.status ≠ .disconnected := by
    intro summary hsummary hstatus
    obtain ⟨worker, ending, hworker, hending, rfl⟩ := h.exists_worker_of_mem hjoined hsummary
    rw [Ending.status_eq_disconnected.1 hstatus] at hending
    exact hattended.connected worker (hmem hworker) hending
  refine ⟨hworkers ▸ h.report_ids hjoined, h.report_ranges hjoined, hcounts, hconnected,
    ?_, ?_, ?_, ?_, ?_, ?_, Output.exists_result_eq_ok hnil hconnected,
    Output.exists_result_eq_workerFaults hnil, Output.result_eq_cancelled_iff hnil⟩
  · intro summary hsummary hstatus
    obtain ⟨worker, ending, hworker, hending, rfl⟩ := h.exists_worker_of_mem hjoined hsummary
    rw [Ending.status_eq_cancelled.1 hstatus] at hending
    exact hheeding worker (hmem hworker) hending
  · intro summary hsummary
    obtain ⟨worker, ending, hworker, hending, rfl⟩ := h.exists_worker_of_mem hjoined hsummary
    rw [h.length_filter_faults hjoined hworker, Worker.hasFaulted, hending, Option.any_some]
    exact if_congr Ending.status_eq_faulted.symm rfl rfl
  · intro fault hfault
    obtain ⟨index, worker, hindex, hsome⟩ := (h.mem_report_faults hjoined).1 hfault
    obtain ⟨-, -, haccounts⟩ := h.books.worker hindex
    obtain ⟨ending, -, hentry⟩ := h.exists_entry hjoined hindex
    refine ⟨_, hentry, (Worker.worker_of_fault? hsome).symm, ?_⟩
    rw [hpredicate]
    exact haccounts.faultOn_of_fault? hsome
  · exact List.sum_le_sum fun summary hsummary => (hcounts summary hsummary).1
  · calc
      history.pool.report.evaluated
          ≤ (history.pool.report.workers.map fun summary => summary.range.length).sum :=
        List.sum_le_sum fun summary hsummary => (hcounts summary hsummary).2
      _ = Span.covered (history.pool.report.workers.map (·.range)) := by
        rw [Span.covered, List.map_map]
        rfl
      _ = Span.covered ranges := by rw [h.report_ranges hjoined]
  · rw [Output.covered, htiling.covered_eq]
    exact hcovered

end Pool.History.Sound

theorem Execution.heeding {pipeline : Pipeline} {job : Job} {execution : Execution}
    (hstart : pipeline.start job true = .ok execution) : execution.pool.Heeding := by
  obtain ⟨ranges, link, pool, -, -, hpool, rfl⟩ := Pipeline.start_eq_ok hstart
  exact .ofStart hpool

namespace Session

open Pool (History)

variable {pipeline : Pipeline} {job : Job} {execution : Execution}

/-- Every output of the session agrees with itself, and at its end the session has one. -/
structure Agrees (job : Job) (ranges : List Span) (last : Session) : Prop where
  outputs : ∀ result, last.output? = some result → ∃ output, result = .ok output ∧
    output.ranges = ranges ∧ Agreement job last.job.pool.token.isCancelled output
  ended : last.AtRest → ∃ output, last.output? = some (.ok output)

theorem Agrees.output {ranges : List Span} {last : Session} (h : last.Agrees job ranges)
    {result : Except Error Output} (hresult : last.output? = some result) :
    ∃ output, result = .ok output := by
  obtain ⟨output, rfl, -⟩ := h.outputs result hresult
  exact ⟨output, rfl⟩

theorem agrees_of_follow (hstart : pipeline.start job true = .ok execution) {events : List Event}
    {last : Session} (hrun : (ofExecution execution).follow events = some last) :
    last.Agrees job execution.ranges := by
  obtain ⟨hworkers, htiling⟩ := Execution.ranges_tiling hstart
  obtain ⟨history, hfollow, htracks, hsound, hattended, hsame⟩ := reached hstart hrun
  have hheeding : history.pool.Heeding :=
    History.follow_induction (P := fun history => history.pool.Heeding)
      (fun _ _ _ _ _ _ h hmoves => h.moves hmoves) (Execution.heeding hstart) hfollow
  refine ⟨fun result hresult => ?_, htracks.output?_of_atRest hsound⟩
  obtain ⟨rfl, hjoined, -⟩ := htracks.output?_eq_some hsound hresult
  refine ⟨_, rfl, hsame, ?_⟩
  rw [← htracks.pool, hsame]
  exact hsound.agreement hjoined hattended hheeding rfl hworkers htiling
    (Strategy.covered_le _ _ _) last.values

/-- **The report, the faults and the verdict agree.** However a job is scheduled and disturbed, it
ends with an output, whose parts agree with each other and with the token. What the caller gets who
first receives some values and then finishes the job, or who runs it at once, is such an output. -/
theorem report_agrees (hstart : pipeline.start job true = .ok execution) :
    (∀ (events : List Event) (last : Session), (ofExecution execution).follow events = some last →
      last.Agrees job execution.ranges) ∧
    (∀ count, ∃ events last output, (ofExecution execution).follow events = some last ∧
      last.taken = (execution.receive count).1 ∧ last.output? = some (.ok output) ∧
        (execution.receive count).2.2.finish = some (.ok output)) ∧
    ∃ events last output, (ofExecution execution).follow events = some last ∧ last.taken = [] ∧
      last.output? = some (.ok output) ∧ pipeline.run job = some (.ok output) := by
  refine ⟨fun events last hrun => agrees_of_follow hstart hrun, fun count => ?_, ?_⟩
  · obtain ⟨events, last, result, hrun, htaken, hresult, hgiven⟩ :=
      Pipeline.finish_after_receive hstart count
    obtain ⟨output, rfl⟩ := (agrees_of_follow hstart hrun).output hresult
    exact ⟨events, last, output, hrun, htaken, hresult, hgiven⟩
  · obtain ⟨events, last, result, hrun, htaken, hresult, hgiven⟩ := Pipeline.run_eq_output? hstart
    obtain ⟨output, rfl⟩ := (agrees_of_follow hstart hrun).output hresult
    exact ⟨events, last, output, hrun, htaken, hresult, hgiven⟩

/-- A pipeline that goes on after a fault. -/
def roomy : Pipeline where
  settings := { capacity := 2, strategy := .balanced }
  settings_valid := rfl
  isShutdown := false

/-- Fails on 2, cancels the job on 4, and accepts everything else. -/
def mixed : Job where
  total := 6
  workers := 3
  predicate value :=
    if value = 2 then .failed "two"
    else if value = 4 then .decided true (some .job)
    else .decided true none
  workers_pos := by decide
  workers_le := by decide

/-- One worker completes, one runs into its fault, and one is cancelled after a value. The fault
comes first in the verdict. -/
theorem report_agrees_mixed : ∃ (execution : Execution) (last : Session) (output : Output),
    roomy.start mixed true = .ok execution ∧ last.taken = [0, 1, 4] ∧ last.output? = some (.ok output) ∧
      (∃ faults values, output.result = .error (.workerFaults faults values)) ∧
        Agreement mixed true output := by
  obtain ⟨execution, hstart⟩ : ∃ execution, roomy.start mixed true = .ok execution := ⟨_, rfl⟩
  have hends : ((roomy.start mixed true).toOption.bind fun execution =>
      (ofExecution execution).follow
        [.behind (.work 1), .behind (.work 1), .behind (.work 1), .behind (.work 1),
          .behind (.work 0), .behind (.work 0), .behind (.work 0), .behind (.work 0),
          .behind (.work 0), .behind (.work 0), .behind (.work 0), .behind (.work 0),
          .behind (.work 0), .receive, .receive, .behind (.work 2), .behind (.work 2),
          .behind (.work 2), .receive, .behind (.work 2), .behind (.work 2), .behind (.work 2),
          .behind .close, .behind .close, .receive, .behind (.join 2), .behind (.join 0),
          .behind (.join 1), .finish, .leave]).any
      (fun last => last.taken == [0, 1, 4] && last.job.pool.token.isCancelled &&
        last.output?.any fun result => result.toOption.any fun output =>
          output.report.faults ≠ []) = true := by
    decide +kernel
  obtain ⟨last, hlast, hgood⟩ := (Option.any_eq_true _ _).1 hends
  simp only [Bool.and_eq_true, beq_iff_eq, Option.any_eq_true, decide_eq_true_eq] at hgood
  obtain ⟨⟨htaken, hcancelled⟩, result, hresult, output, hoption, hfaults⟩ := hgood
  rw [hstart, Except.toOption, Option.bind_some] at hlast
  obtain ⟨hagrees, -⟩ := report_agrees hstart
  obtain ⟨reached, rfl, -, hagreement⟩ := (hagrees _ last hlast).outputs result hresult
  cases hoption
  rw [hcancelled] at hagreement
  exact ⟨execution, last, output, hstart, htaken, hresult,
    ⟨_, _, Output.result_eq_workerFaults.2 ⟨hfaults, rfl, rfl⟩⟩, hagreement⟩

end Session

end ParallelFilter
