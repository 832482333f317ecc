import Mathlib.Data.List.Permutation
import ParallelFilter.Proofs.ExactlyOnce

/-! The verdict on a finished job. It looks at the faults and at the cancelled workers only, and
that is enough: while the drain is there no worker is cut off from it, so the workers of a job
without faults and cancellations have all gone to the end of their ranges. -/

namespace ParallelFilter

/-- A job over the values below `covered` that was done to its end. -/
structure Complete (predicate : Predicate) (ranges : List Span) (covered : Nat) (report : Report)
    (values : List Nat) : Prop where
  values : values.Perm ((List.range covered).filter predicate.accepts)
  workers : report.workers = ranges.mapIdx fun index range =>
    ⟨index, range, range.length, (range.values.filter predicate.accepts).length, .completed⟩
  decided : ∀ value < covered, predicate.decides value = true

namespace Pool

namespace History.Sound

variable {predicate : Predicate} {ranges : List Span} {covered : Nat} {history : History}

section Verdict

variable (h : history.Sound predicate ranges) (hattended : history.pool.Attended)
  (hjoined : history.pool.workers.all Worker.isJoined = true)
  (hfaults : history.pool.report.faults = []) (hcancelled : history.pool.report.wasCancelled = false)

include h hattended hjoined hfaults hcancelled

/-- No way of stopping early escapes the verdict. -/
theorem ending?_eq_completed {index : Nat} {worker : Worker}
    (hworker : history.pool.workers[index]? = some worker) : worker.ending? = some .completed := by
  have hmem := Array.mem_of_getElem? hworker
  obtain ⟨ending, hending⟩ :=
    Worker.ending?_of_isJoined (Array.all_eq_true_iff_forall_mem.1 hjoined worker hmem)
  have hfault : worker.fault? = none := by
    by_contra hsome
    obtain ⟨fault, hfault⟩ := Option.ne_none_iff_exists'.1 hsome
    have hreported : fault ∈ history.pool.report.faults :=
      (h.report_faults hjoined).mem_iff.2
        (List.mem_filterMap.2 ⟨worker, Array.mem_toList_iff.2 hmem, hfault⟩)
    rw [hfaults] at hreported
    cases hreported
  cases ending with
  | completed => exact hending
  | cancelled =>
      -- its own entry in the report would show it
      have hreported := h.report_getElem? hjoined index
      rw [hworker, Option.bind_some, Worker.report?, hending] at hreported
      have hany := List.any_eq_false.1 hcancelled _ (List.mem_of_getElem? hreported)
      exact absurd rfl hany
  | disconnected => exact absurd hending (hattended.connected worker hmem)
  | failed reason | panicked payload =>
      rw [Worker.fault?, hending] at hfault
      cases hfault

theorem complete (htiling : Tiling ranges covered) :
    Complete predicate ranges covered history.pool.report (history.published.map Prod.snd) := by
  have hended {index : Nat} {worker : Worker} (hworker : history.pool.workers[index]? = some worker) :
      worker.evaluated = worker.range.length ∧
        history.publishedBy index = worker.range.values.filter predicate.accepts := by
    have hcompleted := h.ending?_eq_completed hattended hjoined hfaults hcancelled hworker
    obtain ⟨hend, hsent⟩ := (h.books.worker hworker).2.2.of_completed hcompleted
    rw [hend, Predicate.hits_length] at hsent
    exact ⟨hend, hsent⟩
  refine ⟨?_, ?_, ?_⟩
  · have hshares : (List.range ranges.length).map history.publishedBy =
        ranges.map fun range => range.values.filter predicate.accepts := by
      apply List.ext_getElem?
      intro index
      rw [List.getElem?_map, List.getElem?_map]
      cases hrange : ranges[index]? with
      | none =>
          rw [List.getElem?_eq_none (by simpa using hrange)]
          rfl
      | some range =>
          obtain ⟨worker, -, hworker, rfl, -⟩ := h.report_summary hjoined hrange
          rw [List.getElem?_range (List.getElem?_eq_some_iff.1 hrange).1, Option.map_some,
            (hended hworker).2]
          rfl
    calc
      (history.published.map Prod.snd).Perm ((List.range ranges.length).flatMap history.publishedBy) :=
        h.books.perm_publishedBy
      _ = ranges.flatMap fun range => range.values.filter predicate.accepts := by
        rw [List.flatMap_def, hshares, ← List.flatMap_def]
      _ = (List.range covered).filter predicate.accepts := by
        rw [← htiling.values, List.filter_flatMap]
  · refine h.report_workers_eq hjoined fun index worker hworker => ?_
    obtain ⟨hend, hsent⟩ := hended hworker
    rw [Worker.report?, h.ending?_eq_completed hattended hjoined hfaults hcancelled hworker,
      (h.books.worker hworker).2.2.accepted, hsent, hend]
    rfl
  · intro value hvalue
    rw [← List.mem_range, ← htiling.values] at hvalue
    obtain ⟨range, hrange, hin⟩ := List.mem_flatMap.1 hvalue
    obtain ⟨index, hindex⟩ := List.mem_iff_getElem?.1 hrange
    obtain ⟨worker, -, hworker, rfl, -⟩ := h.report_summary hjoined hindex
    apply (h.books.worker hworker).2.2.decided
    rw [(hended hworker).1, Span.firstValues_length]
    exact hin

end Verdict

end History.Sound

end Pool

namespace Session

variable {pipeline : Pipeline} {job : Job} {execution : Execution} {events : List Event}
  {last : Session} {output : Output} {values : List Nat}

/-- A session that ends with a success, and from which nothing was taken beforehand, has done its
whole job. -/
theorem complete_of_follow (hstart : pipeline.start job true = .ok execution)
    (hrun : (ofExecution execution).follow events = some last) (htaken : last.taken = [])
    (houtput : last.output? = some (.ok output)) (hok : output.result = .ok values) :
    Complete job.predicate execution.ranges (pipeline.settings.strategy.covered job.total job.workers)
      output.report values := by
  obtain ⟨-, htiling⟩ := Execution.ranges_tiling hstart
  obtain ⟨history, -, htracks, hsound, hattended, -⟩ := reached hstart hrun
  obtain ⟨hsame, hjoined, hwhole⟩ := htracks.output?_eq_some hsound houtput
  cases hsame
  obtain ⟨hfaults, hcancelled, rfl⟩ := Output.result_eq_ok.1 hok
  have hall : last.values = history.published.map Prod.snd := by
    rw [← hwhole, htracks.delivered, htaken, List.nil_append]
  rw [hall]
  exact hsound.complete hattended hjoined hfaults hcancelled htiling

/-- **No silent partial result.** However a job is scheduled and disturbed, when nothing was taken
from its drain beforehand and its result is given as a success, the result is what a sequential
filter of the covered values gives, up to the order, and every value was decided. So it is when the
job is run at once. -/
theorem ok_complete (hstart : pipeline.start job true = .ok execution)
    (hrun : (ofExecution execution).follow events = some last) (htaken : last.taken = [])
    (houtput : last.output? = some (.ok output)) (hok : output.result = .ok values) :
    execution.ranges.length = job.workers ∧
      Complete job.predicate execution.ranges (pipeline.settings.strategy.covered job.total job.workers)
        output.report values ∧
      ∀ given found, pipeline.run job = some (.ok given) → given.result = .ok found →
        Complete job.predicate execution.ranges
          (pipeline.settings.strategy.covered job.total job.workers) given.report found := by
  obtain ⟨hworkers, -⟩ := Execution.ranges_tiling hstart
  refine ⟨hworkers, complete_of_follow hstart hrun htaken houtput hok,
    fun given found hgiven hfound => ?_⟩
  obtain ⟨_, _, result, hevents, hnothing, hresult, hsame⟩ := Pipeline.run_eq_output? hstart
  obtain rfl : result = .ok given := Option.some_inj.1 (hsame.symm.trans hgiven)
  exact complete_of_follow hstart hevents hnothing hresult hfound

theorem two_le_maxWorkers : 2 ≤ maxWorkers := by decide

/-- The even values below 3, on two workers. -/
def evens : Job where
  total := 3
  workers := 2
  predicate := .ofBool fun value => value % 2 == 0
  workers_pos := Nat.two_pos
  workers_le := two_le_maxWorkers

/-- The second worker is the first to send, so the values come as 2 and 0. On a single thread they
come in order. -/
theorem ok_complete_evens : ∃ (execution : Execution) (last : Session) (output given : Output),
    narrow.start evens true = .ok execution ∧ last.output? = some (.ok output) ∧
      output.result = .ok [2, 0] ∧ Complete evens.predicate execution.ranges 3 output.report [2, 0] ∧
      narrow.run evens = some (.ok given) ∧ given.result = .ok [0, 2] ∧
      Complete evens.predicate execution.ranges 3 given.report [0, 2] := by
  obtain ⟨execution, hstart⟩ : ∃ execution, narrow.start evens true = .ok execution := ⟨_, rfl⟩
  have hends : ((narrow.start evens true).toOption.bind fun execution =>
      (ofExecution execution).follow
        [.finish, .behind (.work 1), .behind (.work 0), .behind .close, .behind .close,
          .behind (.work 1), .behind (.work 1), .behind (.work 1), .behind (.work 1),
          .behind (.work 1), .behind (.work 0), .behind (.join 1), .receive, .behind (.work 0),
          .behind (.work 0), .behind (.work 0), .behind (.work 0), .behind (.work 0),
          .behind (.work 0), .behind (.join 0), .receive, .behind .close, .behind .close,
          .behind .close, .receive, .leave]).any
      (fun last => last.output?.isSome && last.taken == [] && last.values == [2, 0] &&
        last.job.pool.outcomes.toList.filterMap (·.fault) == [] &&
          !last.job.pool.outcomes.toList.any (·.summary.status == .cancelled)) = true := by
    decide +kernel
  obtain ⟨last, hlast, hgood⟩ := (Option.any_eq_true _ _).1 hends
  simp only [Bool.and_eq_true, beq_iff_eq, Bool.not_eq_true'] at hgood
  obtain ⟨⟨⟨⟨houtput, htaken⟩, hvalues⟩, hfaults⟩, hcancelled⟩ := hgood
  rw [hstart, Except.toOption, Option.bind_some] at hlast
  obtain ⟨result, hresult⟩ := Option.isSome_iff_exists.1 houtput
  obtain ⟨history, -, htracks, hsound, -⟩ := reached hstart hlast
  obtain ⟨rfl, -⟩ := htracks.output?_eq_some hsound hresult
  have hok : Output.result ⟨last.values, history.pool.report, last.job.ranges⟩ = .ok [2, 0] := by
    rw [Output.result_eq_ok, htracks.pool, Pool.report, Report.wasCancelled_ofOutcomes]
    exact ⟨hfaults, hcancelled, hvalues⟩
  obtain ⟨-, hcomplete, hruns⟩ := ok_complete hstart hlast htaken hresult hok
  have hinOrder : (narrow.run evens).map (Except.map Output.result) = some (.ok (.ok [0, 2])) := by
    cbv
  obtain ⟨given, hgiven, hfound⟩ : ∃ given, narrow.run evens = some (.ok given) ∧
      given.result = .ok [0, 2] := by
    obtain ⟨result, hgiven, hfound⟩ := Option.map_eq_some_iff.1 hinOrder
    cases result with
    | error error => cases hfound
    | ok given => exact ⟨given, hgiven, Except.ok.inj hfound⟩
  exact ⟨execution, last, _, given, hstart, hresult, hok, hcomplete, hgiven, hfound,
    hruns given [0, 2] hgiven hfound⟩

end Session

end ParallelFilter
