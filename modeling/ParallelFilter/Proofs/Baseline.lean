import ParallelFilter.Command.Filter
import ParallelFilter.Proofs.Agreement
import ParallelFilter.Proofs.Verdict

/-! The filter command and its baseline. The named predicates only decide, so a job of the command
has no faults, and it is cut short by a cancellation or not at all. If it is not, it has found what
a loop over the covered values finds, so the two counts cannot differ, and what is printed is
settled by the request alone. -/

namespace ParallelFilter

/-- How many values of the total no worker gets. -/
def Strategy.leftOver (total workers : Nat) : Strategy → Nat
  | .truncate => total % workers
  | .balanced => 0

theorem Strategy.covered_add_leftOver (strategy : Strategy) (total workers : Nat) :
    strategy.covered total workers + strategy.leftOver total workers = total := by
  cases strategy with
  | truncate => exact Nat.div_add_mod total workers
  | balanced => rfl

namespace Pipeline

variable {pipeline : Pipeline} {job : Job}

/-- A job is started if the channel can have its capacity. -/
theorem exists_start (pipeline : Pipeline) (job : Job)
    (hcapacity : pipeline.settings.capacity ≤ maxCapacity) :
    ∃ execution, pipeline.start job true = .ok execution := by
  have hworkers : checkWorkers job.workers = .ok () :=
    checkWorkers_eq_ok.2 ⟨job.workers_pos, job.workers_le⟩
  obtain ⟨ranges, hranges⟩ : ∃ ranges, partition pipeline.settings.strategy job.total job.workers =
    .ok ranges :=
    ⟨_, partition_eq_ok.2 ⟨hworkers, rfl⟩⟩
  have hlength := (partition_tiling hranges).1
  obtain ⟨link, hlink⟩ : ∃ link, ResultChannel.make pipeline.settings.capacity ranges.length =
    .ok link := by
    refine ⟨_, ResultChannel.make_eq_ok.2 ⟨⟨?_, hcapacity⟩, hlength ▸ hworkers, rfl⟩⟩
    exact (Settings.validate_eq_ok.1 pipeline.settings_valid).1
  obtain ⟨pool, hpool⟩ : ∃ pool, Pool.start ranges link { pool := pipeline.isShutdown } = .ok pool := by
    refine ⟨_, Pool.start_eq_ok.2 ⟨?_, rfl⟩⟩
    obtain ⟨-, -, rfl⟩ := ResultChannel.make_eq_ok.1 hlink
    rfl
  refine ⟨⟨ranges, .ofSettings pipeline.settings job.predicate, pool⟩, ?_⟩
  simp only [start, bind, Except.bind, pure, Except.pure, Bool.not_true, Bool.false_eq_true,
    if_false, hranges, hlink, hpool]

end Pipeline

namespace Command

theorem countBelow_eq_length (accepts : Nat → Bool) (bound : Nat) :
    countBelow accepts bound = ((List.range bound).filter accepts).length := by
  rw [countBelow]
  induction bound with
  | zero => rfl
  | succ bound ih =>
      rw [Nat.fold_succ, ih, List.range_succ, List.filter_append, List.length_append]
      cases haccepts : accepts bound <;> simp [haccepts]

/-- The values that match a request on so many workers, in ascending order. -/
def FilterRequest.matching (request : FilterRequest) (strategy : Strategy) (workers : Nat) : List Nat :=
  (List.range (request.total - strategy.leftOver request.total workers)).filter
    request.predicate.accepts

theorem FilterRequest.matching_ascending (request : FilterRequest) (strategy : Strategy)
    (workers : Nat) :
    (request.matching strategy workers).Pairwise (· < ·) :=
  List.pairwise_lt_range.filter _

/-- What is printed for a request on so many workers when no worker is cancelled. -/
def FilterRequest.lines (request : FilterRequest) (strategy : Strategy) (workers : Nat)
    (jobTime countTime : String) : List String :=
  let leftOver := strategy.leftOver request.total workers
  let found := toString (request.matching strategy workers).length
  [found ++ " of " ++ toString (request.total - leftOver) ++ " values matched " ++
    request.predicate.title ++
    " on " ++ toString workers ++ " workers in " ++ jobTime] ++
  (if 0 < leftOver then [toString leftOver ++ " trailing values were not assigned to any worker"]
    else []) ++
  (if request.compareSequential then ["sequential: " ++ found ++ " values in " ++ countTime] else []) ++
  (if request.print then (request.matching strategy workers).map toString else [])

/-- How a job of the command ends: it fails if a worker was cancelled, never because of the
baseline, and if it succeeds its lines are those of the request. -/
structure FilterOutcome.Faithful (request : FilterRequest) (strategy : Strategy) (workers : Nat)
    (run : FilterOutcome) : Prop where
  agrees : ∀ parallel sequential, run.failure? ≠ some (.countsDiffer parallel sequential)
  succeeds : run.failure? = none ↔ ∀ summary ∈ run.output.report.workers, summary.status ≠ .cancelled
  lines : run.failure? = none → ∀ jobTime countTime,
    run.report request workers jobTime countTime = request.lines strategy workers jobTime countTime

/-- Where the counts do not differ, the verdict on the job decides. -/
theorem FilterOutcome.failure?_eq {run : FilterOutcome} (hsame : ∀ count, run.sequential = some count →
      run.output.report.wasCancelled = false → count = run.output.values.length) :
    run.failure? = match run.output.result with
      | .ok _ => none
      | .error error => some (.incomplete error) := by
  have hnone : run.sequential.filter (fun count => run.output.report.faults.isEmpty &&
      !run.output.report.wasCancelled && count != run.output.values.length) = none := by
    refine Option.filter_eq_none_iff.2 fun count hcount hdiffers => ?_
    simp only [Bool.and_eq_true, Bool.not_eq_true', bne_iff_ne] at hdiffers
    exact hdiffers.2 (hsame count hcount hdiffers.1.2)
  cases hresult : run.output.result <;> simp only [failure?, hnone, hresult]

section Outcome

variable {request : FilterRequest} {strategy : Strategy} {workers : Nat} {output : Output}
  (hcovered : output.covered = request.total - strategy.leftOver request.total workers)
  (hvalues : output.report.wasCancelled = false →
    output.values.Perm (request.matching strategy workers))

include hcovered

theorem countBelow_covered :
    countBelow request.predicate.accepts output.covered =
      (request.matching strategy workers).length := by
  rw [countBelow_eq_length, hcovered, FilterRequest.matching]

include hvalues

/-- The baseline counts what the job has found, unless the job was cancelled. -/
theorem failure?_ofOutput : (FilterOutcome.ofOutput request output).failure? = match output.result with
    | .ok _ => none
    | .error error => some (.incomplete error) := by
  refine FilterOutcome.failure?_eq fun count hcount hcancelled => ?_
  rw [FilterOutcome.ofOutput] at hcount
  dsimp only at hcount
  split at hcount
  · rw [← Option.some_inj.1 hcount, countBelow_covered hcovered]
    exact (hvalues hcancelled).length_eq.symm
  · cases hcount

theorem report_ofOutput (hfaults : output.report.faults = [])
    (hcancelled : output.report.wasCancelled = false) (jobTime countTime : String) :
    (FilterOutcome.ofOutput request output).report request workers jobTime countTime =
      request.lines strategy workers jobTime countTime := by
  have hmatching := hvalues hcancelled
  have hsorted : output.values.mergeSort (· ≤ ·) = request.matching strategy workers :=
    mergeSort_eq_of_perm id hmatching (request.matching_ascending strategy workers)
  have hle := strategy.covered_add_leftOver request.total workers
  have hleft : (output.covered < request.total) = (0 < strategy.leftOver request.total workers) := by
    rw [hcovered]
    exact propext (by omega)
  have htrailing : request.total - output.covered = strategy.leftOver request.total workers := by
    rw [hcovered]
    omega
  simp only [FilterOutcome.report, FilterOutcome.ofOutput, FilterRequest.lines, hfaults,
    hmatching.length_eq, hsorted, hleft, htrailing, List.map_nil, List.append_nil]
  rw [countBelow_covered hcovered, hcovered]
  cases request.compareSequential with
  | true => rfl
  | false => rfl

/-- A job without faults fails only on account of a cancellation. -/
theorem faithful_ofOutput (hfaults : output.report.faults = []) :
    (FilterOutcome.ofOutput request output).Faithful request strategy workers := by
  have hfailure := failure?_ofOutput hcovered hvalues
  cases hcancelled : output.report.wasCancelled with
  | true =>
      rw [Output.result_eq_cancelled.2 ⟨hfaults, hcancelled⟩] at hfailure
      refine ⟨fun parallel sequential hdiffer => ?_, ?_, fun hsuccess => ?_⟩
      · rw [hfailure] at hdiffer
        cases hdiffer
      · obtain ⟨summary, hsummary, hstatus⟩ := Report.wasCancelled_iff.1 hcancelled
        rw [hfailure]
        exact iff_of_false nofun fun hnone => hnone summary hsummary hstatus
      · rw [hfailure] at hsuccess
        cases hsuccess
  | false =>
      rw [Output.result_eq_ok.2 ⟨hfaults, hcancelled, rfl⟩] at hfailure
      refine ⟨fun parallel sequential hdiffer => ?_, ?_, fun _ => ?_⟩
      · rw [hfailure] at hdiffer
        cases hdiffer
      · refine iff_of_true hfailure fun summary hsummary hstatus => ?_
        exact absurd (Report.wasCancelled_iff.2 ⟨summary, hsummary, hstatus⟩)
          (Bool.eq_false_iff.1 hcancelled)
      · exact report_ofOutput hcovered hvalues hfaults hcancelled

end Outcome

/-- The command starts the job of its request on a pipeline with its settings. -/
theorem startFilter_eq {settings : Settings} {workers : Nat} (request : FilterRequest)
    (hvalid : settings.validate = .ok ()) (hpos : 0 < workers) (hle : workers ≤ maxWorkers)
    (isShutdown : Bool) :
    startFilter settings request workers isShutdown =
      Pipeline.start ⟨settings, hvalid, isShutdown⟩
        ⟨request.total, workers, .ofBool request.predicate.accepts, hpos, hle⟩ true := by
  have hmake : Pipeline.make settings = .ok ⟨settings, hvalid, false⟩ := by
    unfold Pipeline.make
    split
    · rfl
    · rename_i error herror
      rw [hvalid] at herror
      cases herror
  have hjob : Job.make request.total workers (.ofBool request.predicate.accepts) =
      .ok ⟨request.total, workers, .ofBool request.predicate.accepts, hpos, hle⟩ := by
    unfold Job.make
    split
    · rfl
    · rename_i error herror
      rw [checkWorkers_eq_ok.2 ⟨hpos, hle⟩] at herror
      cases herror
  rw [startFilter, hmake, hjob]
  rfl

end Command

namespace Session

variable {pipeline : Pipeline} {job : Job} {execution : Execution} {events : List Event}
  {last : Session} {result : Except Error Output}

/-- A predicate that only decides leads to no faults, and a job that was not cancelled has found
everything. -/
theorem output_of_decided {accepts : Nat → Bool} (hpredicate : job.predicate = .ofBool accepts)
    (hstart : pipeline.start job true = .ok execution)
    (hrun : (ofExecution execution).follow events = some last) (htaken : last.taken = [])
    (hresult : last.output? = some result) : ∃ output, result = .ok output ∧ output.report.faults = [] ∧
      output.covered = pipeline.settings.strategy.covered job.total job.workers ∧
        (output.report.wasCancelled = false → output.values.Perm
          ((List.range (pipeline.settings.strategy.covered job.total job.workers)).filter
            accepts)) := by
  obtain ⟨-, htiling⟩ := Execution.ranges_tiling hstart
  obtain ⟨output, rfl, hranges, hagreement⟩ := (agrees_of_follow hstart hrun).outputs result hresult
  have hfaults : output.report.faults = [] := by
    refine List.eq_nil_iff_forall_not_mem.2 fun fault hfault => ?_
    obtain ⟨summary, -, -, hfaultOn⟩ := hagreement.named fault hfault
    rw [hpredicate] at hfaultOn
    cases hfaultOn
  refine ⟨output, rfl, hfaults, ?_, fun hcancelled => ?_⟩
  · rw [Output.covered, hranges, htiling.covered_eq]
  · obtain ⟨history, -, htracks, hsound, hattended, -⟩ := reached hstart hrun
    obtain ⟨hsame, hjoined, hwhole⟩ := htracks.output?_eq_some hsound hresult
    cases hsame
    have hcomplete := hsound.complete hattended hjoined hfaults hcancelled htiling
    have hvalues := hcomplete.values
    rw [← hwhole, htracks.delivered, htaken, List.nil_append, hpredicate] at hvalues
    exact hvalues

end Session

namespace Command

/-- **The baseline.** Whatever the schedule and whenever the command is shut down, its job comes to
an end, and at its end the two counts agree, the command succeeds if and only if no worker was
cancelled, and what it prints then is settled by the request, the strategy and the number of
workers. The job that `runFilter` runs is one of these, and its report is what the command prints. -/
theorem filter_agrees_with_baseline {settings : Settings} {workers : Nat} (request : FilterRequest)
    (isShutdown : Bool) (hvalid : settings.validate = .ok ())
    (hcapacity : settings.capacity ≤ maxCapacity) (hpos : 0 < workers) (hle : workers ≤ maxWorkers) :
    ∃ execution, startFilter settings request workers isShutdown = .ok execution ∧
      (∀ events last, (Session.ofExecution execution).follow events = some last → last.taken = [] →
        (∀ result, last.output? = some result → ∃ output, result = .ok output ∧
          (FilterOutcome.ofOutput request output).Faithful request settings.strategy workers) ∧
        (last.AtRest → ∃ output, last.output? = some (.ok output))) ∧
      ∃ events last output, (Session.ofExecution execution).follow events = some last ∧
        last.taken = [] ∧ last.output? = some (.ok output) ∧
          runFilter settings request workers isShutdown = some (.ok (.ofOutput request output)) ∧
          ∀ jobTime countTime, filterTranscript settings request workers isShutdown jobTime countTime =
            some ⟨(FilterOutcome.ofOutput request output).report request workers jobTime countTime,
              (FilterOutcome.ofOutput request output).failure?⟩ := by
  have hbegin := startFilter_eq request hvalid hpos hle isShutdown
  obtain ⟨execution, hstart⟩ := Pipeline.exists_start ⟨settings, hvalid, isShutdown⟩
    ⟨request.total, workers, .ofBool request.predicate.accepts, hpos, hle⟩ hcapacity
  have hfilter := hbegin.trans hstart
  have hcovered : settings.strategy.covered request.total workers =
      request.total - settings.strategy.leftOver request.total workers := by
    have hsum := settings.strategy.covered_add_leftOver request.total workers
    omega
  refine ⟨execution, hfilter, fun events last hrun htaken => ⟨fun result hresult => ?_, ?_⟩, ?_⟩
  · obtain ⟨output, rfl, hfaults, hcovers, hvalues⟩ :=
      Session.output_of_decided rfl hstart hrun htaken hresult
    rw [hcovered] at hcovers hvalues
    exact ⟨output, rfl, faithful_ofOutput hcovers hvalues hfaults⟩
  · exact (Session.agrees_of_follow hstart hrun).ended
  · obtain ⟨events, last, result, hrun, htaken, hresult, hgiven⟩ := Pipeline.run_eq_output? hstart
    obtain ⟨output, rfl⟩ := (Session.agrees_of_follow hstart hrun).output hresult
    have hruns : runFilter settings request workers isShutdown =
        some (.ok (.ofOutput request output)) := by
      rw [Pipeline.run, hstart] at hgiven
      dsimp only at hgiven
      rw [runFilter, hfilter]
      dsimp only
      rw [hgiven]
      rfl
    refine ⟨events, last, output, hrun, htaken, hresult, hruns, fun jobTime countTime => ?_⟩
    rw [filterTranscript, hruns]
    rfl

/-- A channel with two places, and otherwise the usual settings. -/
def twoPlaces : Settings where
  capacity := 2

/-- The even ones of three values, with the baseline, and printed. -/
def evensOfThree : FilterRequest where
  total := 3
  predicate := .even
  compareSequential := true
  print := true

/-- What the command prints for `evensOfThree`. -/
def evensOfThreeLines : List String :=
  ["1 of 2 values matched Even on 2 workers in 2ms",
    "1 trailing values were not assigned to any worker", "sequential: 1 values in 1ms", "0"]

/-- Two workers share three values, so one value is left over. The second worker has a turn after
the first is done; on a single thread the same is printed. -/
theorem filter_agrees_with_baseline_three_values : ∃ execution last output,
    startFilter twoPlaces evensOfThree 2 false = .ok execution ∧
    (∃ events, (Session.ofExecution execution).follow events = some last) ∧
    last.output? = some (.ok output) ∧
    (FilterOutcome.ofOutput evensOfThree output).failure? = none ∧
    (FilterOutcome.ofOutput evensOfThree output).report evensOfThree 2 "2ms" "1ms" =
      evensOfThreeLines ∧
    filterTranscript twoPlaces evensOfThree 2 false "2ms" "1ms" = some ⟨evensOfThreeLines, none⟩ := by
  have hvalid : twoPlaces.validate = .ok () := rfl
  obtain ⟨execution, hstart, hruns, events, final, given, hgiven, hnothing, hfinal, hran, hprints⟩ :=
    filter_agrees_with_baseline evensOfThree false hvalid (by decide) (by decide)
      Session.two_le_maxWorkers
  have hends : ((startFilter twoPlaces evensOfThree 2 false).toOption.bind fun execution =>
      (Session.ofExecution execution).follow (.finish :: .replicate 6 (.behind (.work 0)) ++
        .receive :: .replicate 5 (.behind (.work 1)) ++
        [.behind .close, .behind .close, .receive, .leave, .behind (.join 1), .behind (.join 0)])).any
      (fun last => last.output?.isSome && last.taken == [] &&
        !last.job.pool.outcomes.toList.any (·.summary.status == .cancelled)) = true := by
    decide +kernel
  obtain ⟨last, hlast, hgood⟩ := (Option.any_eq_true _ _).1 hends
  simp only [Bool.and_eq_true, beq_iff_eq, Bool.not_eq_true'] at hgood
  obtain ⟨⟨houtput, htaken⟩, hcancelled⟩ := hgood
  rw [hstart, Except.toOption, Option.bind_some] at hlast
  obtain ⟨result, hresult⟩ := Option.isSome_iff_exists.1 houtput
  obtain ⟨output, rfl, hfaithful⟩ := (hruns _ last hlast htaken).1 result hresult
  have hbegan := (startFilter_eq evensOfThree hvalid (by decide) Session.two_le_maxWorkers
    false).symm.trans hstart
  obtain ⟨history, -, htracks, hsound, -⟩ := Session.reached hbegan hlast
  obtain ⟨hsame, -⟩ := htracks.output?_eq_some hsound hresult
  have hnone : output.report.wasCancelled = false := by
    rw [Except.ok.inj hsame, htracks.pool, Pool.report, Report.wasCancelled_ofOutcomes]
    exact hcancelled
  have hsucceeds : (FilterOutcome.ofOutput evensOfThree output).failure? = none := by
    refine hfaithful.succeeds.2 fun summary hsummary hstatus => ?_
    exact absurd (Report.wasCancelled_iff.2 ⟨summary, hsummary, hstatus⟩) (Bool.eq_false_iff.1 hnone)
  have hlines : evensOfThree.lines twoPlaces.strategy 2 "2ms" "1ms" = evensOfThreeLines := by
    decide +kernel
  have halone : (runFilter twoPlaces evensOfThree 2 false).map (Except.map FilterOutcome.failure?) =
      some (.ok none) := by
    cbv
  rw [hran, Option.map_some, Except.map, Option.some_inj, Except.ok.injEq] at halone
  obtain ⟨_, hsameOutput, hgivenFaithful⟩ := (hruns events final hgiven hnothing).1 _ hfinal
  cases hsameOutput
  refine ⟨execution, last, output, hstart, ⟨_, hlast⟩, hresult, hsucceeds,
    (hfaithful.lines hsucceeds "2ms" "1ms").trans hlines, ?_⟩
  rw [hprints, halone, hgivenFaithful.lines halone, hlines]

end Command

end ParallelFilter
