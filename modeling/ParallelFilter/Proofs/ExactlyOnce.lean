import ParallelFilter.Proofs.Running
import ParallelFilter.Proofs.Shares

/-! Exactly-once delivery. Whoever cancels the job and whenever, however often the caller has asked
the drain before finishing the job, and whatever the predicate does: all that was published is
delivered, once, in the order in which it was published, and the report counts it for each worker. -/

namespace ParallelFilter

/-- What a report says of the values that were delivered. -/
structure ExactlyOnce (predicate : Predicate) (ranges : List Span) (report : Report)
    (values : List Nat) :
    Prop where
  workers : report.workers.length = ranges.length
  share : ∀ (index : Nat) (range : Span), ranges[index]? = some range →
    ∃ summary : WorkerSummary, report.workers[index]? = some summary ∧
      summary.worker = index ∧ summary.range = range ∧
        values.filter range.contains = (range.values.filter predicate.accepts).take summary.accepted ∧
          (values.filter range.contains).length = summary.accepted
  inside : ∀ value ∈ values, ∃ range : Span, range ∈ ranges ∧ range.contains value = true
  once : values.Nodup
  total : values.length = report.accepted

namespace Pool.History.Sound

variable {predicate : Predicate} {ranges : List Span} {covered : Nat} {history : History}

/-- The report has one entry for each range, in the order of the ranges. -/
theorem report_summary (h : history.Sound predicate ranges)
    (hjoined : history.pool.workers.all Worker.isJoined = true) {index : Nat} {range : Span}
    (hrange : ranges[index]? = some range) :
    ∃ worker ending, history.pool.workers[index]? = some worker ∧
      worker.range = range ∧ worker.ending? = some ending ∧ history.pool.report.workers[index]? =
        some ⟨index, range, worker.evaluated, worker.accepted, ending.status⟩ := by
  have hindex : index < history.pool.workers.size := by
    rw [h.books.size]
    exact (List.getElem?_eq_some_iff.1 hrange).1
  have hworker := Array.getElem?_eq_getElem hindex
  obtain ⟨hid, hsame, -⟩ := h.books.worker hworker
  rw [hrange, Option.some_inj] at hsame
  obtain ⟨ending, hending⟩ := Worker.ending?_of_isJoined
    (Array.all_eq_true_iff_forall_mem.1 hjoined _ (Array.getElem_mem hindex))
  refine ⟨_, ending, hworker, hsame.symm, hending, ?_⟩
  rw [h.report_getElem? hjoined, hworker, Option.bind_some, Worker.report?, hending, hid, ← hsame]
  rfl

theorem length_report_workers (h : history.Sound predicate ranges)
    (hjoined : history.pool.workers.all Worker.isJoined = true) :
    history.pool.report.workers.length = ranges.length := by
  -- an index that is in one of the two lists is in the other
  have hreported (index : Nat) : index < history.pool.report.workers.length ↔
      index < ranges.length := by
    constructor
    · intro hindex
      have hsome := List.getElem?_eq_getElem hindex
      rw [h.report_getElem? hjoined] at hsome
      obtain ⟨worker, hworker, -⟩ := Option.bind_eq_some_iff.1 hsome
      exact h.books.size ▸ (Array.getElem?_eq_some_iff.1 hworker).1
    · intro hindex
      obtain ⟨worker, ending, -, -, -, hsummary⟩ :=
        h.report_summary hjoined (List.getElem?_eq_getElem hindex)
      exact (List.getElem?_eq_some_iff.1 hsummary).1
  apply Nat.le_antisymm
  · by_contra hlt
    exact Nat.lt_irrefl _ ((hreported _).1 (Nat.lt_of_not_le hlt))
  · by_contra hlt
    exact Nat.lt_irrefl _ ((hreported _).2 (Nat.lt_of_not_le hlt))

/-- What was published is what the report counts, worker by worker. -/
theorem exactlyOnce (h : history.Sound predicate ranges) (htiling : Tiling ranges covered)
    (hjoined : history.pool.workers.all Worker.isJoined = true) :
    ExactlyOnce predicate ranges history.pool.report (history.published.map Prod.snd) where
  workers := h.length_report_workers hjoined
  share := by
    intro index range hrange
    obtain ⟨worker, ending, hworker, rfl, -, hsummary⟩ := h.report_summary hjoined hrange
    refine ⟨_, hsummary, rfl, rfl, ?_, ?_⟩
    · rw [h.books.filter_published htiling hrange]
      exact h.books.publishedBy_eq_take hworker
    · rw [h.books.filter_published htiling hrange]
      exact (h.books.worker hworker).2.2.accepted.symm
  inside := by
    intro value hvalue
    obtain ⟨⟨worker, _⟩, hentry, rfl⟩ := List.mem_map.1 hvalue
    obtain ⟨range, hrange, hcontains⟩ := h.books.mem_range hentry
    exact ⟨range, List.mem_of_getElem? hrange, hcontains⟩
  once := h.books.nodup_published htiling
  total := by rw [List.length_map, h.report_accepted hjoined]

end Pool.History.Sound

namespace Session

open Pool (History)

variable {pipeline : Pipeline} {job : Job} {execution : Execution} {events : List Event}
  {last : Session}

/-- What a session ends with is an output, and with what the caller took it is all that was
published. -/
theorem Tracks.exactlyOnce {history : History} {covered : Nat} (h : last.Tracks history)
    (hsound : history.Sound job.predicate execution.ranges) (htiling : Tiling execution.ranges covered)
    (hsame : last.job.ranges = execution.ranges) {result : Except Error Output}
    (hresult : last.output? = some result) : ∃ output, result = .ok output ∧
      output.ranges = execution.ranges ∧ last.taken ++ output.values = history.published.map Prod.snd ∧
        ExactlyOnce job.predicate execution.ranges output.report (last.taken ++ output.values) := by
  obtain ⟨rfl, hjoined, hwhole⟩ := h.output?_eq_some hsound hresult
  have hall : last.taken ++ last.values = history.published.map Prod.snd :=
    h.delivered.symm.trans hwhole
  refine ⟨_, rfl, hsame, hall, ?_⟩
  rw [hall]
  exact hsound.exactlyOnce htiling hjoined

/-- **Exactly-once delivery.** However a job is scheduled and disturbed, its session comes to an end
after a bounded number of events, and every end has an output. What the caller took before finishing
the job, followed by the values of the output, is all that the workers have published, and just what
the report counts. What the caller gets who first receives some values and then finishes the job, or
who runs it at once, is such an output. -/
theorem delivered_exactly_once (hstart : pipeline.start job true = .ok execution)
    (hrun : (ofExecution execution).follow events = some last) :
    (∃ history, (History.ofPool execution.pool).follow execution.rules (events.filterMap Event.move?) =
        some history ∧
      (∀ result, last.output? = some result → ∃ output, result = .ok output ∧
        output.ranges = execution.ranges ∧
          last.taken ++ output.values = history.published.map Prod.snd ∧
            ExactlyOnce job.predicate execution.ranges output.report (last.taken ++ output.values)) ∧
      (last.AtRest → ∃ output, last.output? = some (.ok output)) ∧
      events.length ≤ execution.pool.effort + 1) ∧
    (∀ count, ∃ output, (execution.receive count).2.2.finish = some (.ok output) ∧
      output.ranges = execution.ranges ∧
        ExactlyOnce job.predicate execution.ranges output.report
          ((execution.receive count).1 ++ output.values)) ∧
    ∃ output, pipeline.run job = some (.ok output) ∧ output.ranges = execution.ranges ∧
      ExactlyOnce job.predicate execution.ranges output.report output.values := by
  obtain ⟨-, htiling⟩ := Execution.ranges_tiling hstart
  refine ⟨?_, fun count => ?_, ?_⟩
  · obtain ⟨history, hfollow, htracks, hsound, -, hsame⟩ := reached hstart hrun
    refine ⟨history, hfollow, fun result => htracks.exactlyOnce hsound htiling hsame,
      htracks.output?_of_atRest hsound, ?_⟩
    obtain ⟨hfresh, -⟩ := Execution.sound_ofPool hstart
    rw [← Execution.rules_predicate hstart] at hfresh
    have hbounded := History.length_follow_le hfresh hfollow
    have hlength : events.length ≤ (events.filterMap Event.move?).length + 1 := length_follow_le hrun
    exact Nat.le_trans hlength (Nat.add_le_add_right (Nat.le_trans (Nat.le_add_right _ _) hbounded) 1)
  · obtain ⟨events, last, result, hrun, htaken, hresult, hgiven⟩ :=
      Pipeline.finish_after_receive hstart count
    obtain ⟨history, -, htracks, hsound, -, hsame⟩ := reached hstart hrun
    obtain ⟨output, rfl, hranges, -, honce⟩ := htracks.exactlyOnce hsound htiling hsame hresult
    exact ⟨output, hgiven, hranges, htaken ▸ honce⟩
  · obtain ⟨events, last, result, hrun, htaken, hresult, hgiven⟩ := Pipeline.run_eq_output? hstart
    obtain ⟨history, -, htracks, hsound, -, hsame⟩ := reached hstart hrun
    obtain ⟨output, rfl, hranges, -, honce⟩ := htracks.exactlyOnce hsound htiling hsame hresult
    rw [htaken, List.nil_append] at honce
    exact ⟨output, hgiven, hranges, honce⟩

/-- A pipeline with room for one value at a time. -/
def narrow : Pipeline where
  settings := { capacity := 1, failFast := true, strategy := .balanced }
  settings_valid := rfl
  isShutdown := false

/-- Accepts 0, accepts 1 and cancels the job with it, and panics on 2. -/
def cancelling : Job where
  total := 3
  workers := 2
  predicate value :=
    if value = 0 then .decided true none
    else if value = 1 then .decided true (some .job)
    else .panicked .other
  workers_pos := by decide
  workers_le := by decide

/-- One worker publishes 0, which the caller takes, and 1, with which the job is cancelled, while
the other is in the middle of its evaluation and panics. Nothing of it is lost. -/
theorem delivered_exactly_once_cancelling :
    ∃ (execution : Execution) (last : Session) (output given : Output),
      narrow.start cancelling true = .ok execution ∧
      last.taken = [0] ∧ last.output? = some (.ok output) ∧
      ExactlyOnce cancelling.predicate execution.ranges output.report (last.taken ++ output.values) ∧
      narrow.run cancelling = some (.ok given) ∧
      ExactlyOnce cancelling.predicate execution.ranges given.report given.values := by
  obtain ⟨execution, hstart⟩ : ∃ execution, narrow.start cancelling true = .ok execution := ⟨_, rfl⟩
  have hends : ((narrow.start cancelling true).toOption.bind fun execution =>
      (ofExecution execution).follow
        [.behind (.work 0), .behind (.work 0), .behind (.work 0), .receive, .behind (.work 1),
          .behind (.work 0), .behind (.work 0), .behind (.work 0), .finish, .behind (.work 0),
          .behind (.work 1), .receive, .behind .close, .behind .close, .behind (.work 0),
          .behind (.work 0), .behind (.work 1), .behind (.work 1), .behind (.work 1),
          .behind (.join 0), .behind (.join 1), .behind .close, .behind .close, .behind .close,
          .receive, .leave]).any
      (fun last => last.output?.isSome && last.taken == [0]) = true := by
    decide +kernel
  obtain ⟨last, hlast, hgood⟩ := (Option.any_eq_true _ _).1 hends
  obtain ⟨houtput, htaken⟩ := (Bool.and_eq_true _ _).mp hgood
  rw [hstart, Except.toOption, Option.bind_some] at hlast
  obtain ⟨result, hresult⟩ := Option.isSome_iff_exists.1 houtput
  obtain ⟨⟨history, -, hexact, -⟩, -, given, hgiven, -, hgivenOnce⟩ :=
    delivered_exactly_once hstart hlast
  obtain ⟨output, rfl, -, -, honce⟩ := hexact result hresult
  exact ⟨execution, last, output, given, hstart, beq_iff_eq.1 htaken, hresult, honce,
    hgiven, hgivenOnce⟩

end Session

end ParallelFilter
