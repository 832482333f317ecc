import ParallelFilter.Pipeline
import ParallelFilter.Proofs.Allotment

/-! What becomes of a job that is started inside a runtime. The settings and the job were checked
when they were made, so the total can be split and the pool agrees with the channel; whatever those
checks refuse is an argument fault. What they leave open is the size of the channel: the settings
ask for at least one place, and a channel has a largest number of places that it can count. -/

namespace ParallelFilter

theorem Settings.validate_eq_error {settings : Settings} {error : Error}
    (h : settings.validate = .error error) :
    ∃ fault, error = .invalidArgument fault := by
  unfold validate at h
  split at h
  · cases h
    exact ⟨_, rfl⟩
  · split at h
    · cases h
      exact ⟨_, rfl⟩
    · cases h

theorem Pipeline.make_eq_error {settings : Settings} {error : Error}
    (h : make settings = .error error) :
    ∃ fault, error = .invalidArgument fault := by
  unfold make at h
  split at h
  · cases h
  · rename_i refused hrefused
    cases h
    exact Settings.validate_eq_error hrefused

theorem Job.make_eq_error {total workers : Nat} {predicate : Predicate} {error : Error}
    (h : make total workers predicate = .error error) : ∃ fault, error = .invalidArgument fault := by
  unfold make at h
  split at h
  · cases h
  · rename_i refused hrefused
    cases h
    exact (checkWorkers_eq_error hrefused).2

theorem Job.total_of_make {total workers : Nat} {predicate : Predicate} {job : Job}
    (h : make total workers predicate = .ok job) : job.total = total := by
  unfold make at h
  split at h
  · cases h
    rfl
  · cases h

theorem ResultChannel.make_of_overflow {capacity workers : Nat}
    (hworkers : checkWorkers workers = .ok ()) (hoverflow : maxCapacity < capacity) :
    make capacity workers = .error .capacityOverflow := by
  have hpos : capacity ≠ 0 := by omega
  rw [make, if_neg hpos, if_pos hoverflow]
  simp only [hworkers]
  rfl

/-- A job that was started, before any of its workers has moved. -/
structure Launched (pipeline : Pipeline) (job : Job) (execution : Execution) : Prop where
  allotment : Allotment pipeline.settings.strategy job.total job.workers execution.ranges
  rules : execution.rules = .ofSettings pipeline.settings job.predicate
  workers : execution.pool.workers.toList = execution.ranges.mapIdx Worker.ofRange
  /-- The closer has a sender too. -/
  channel : execution.pool.link.channel = .ofCapacity pipeline.settings.capacity (1 + job.workers)
  barrier : execution.pool.link.barrier = .ofExpected job.workers
  token : execution.pool.token = { pool := pipeline.isShutdown }

namespace Pipeline

/-- The total of a job can be split. -/
theorem exists_ranges (strategy : Strategy) (job : Job) : ∃ ranges,
    partition strategy job.total job.workers = .ok ranges ∧ ranges.length = job.workers ∧
      checkWorkers ranges.length = .ok () := by
  have hworkers := checkWorkers_eq_ok.2 ⟨job.workers_pos, job.workers_le⟩
  obtain ⟨ranges, hranges⟩ : ∃ ranges, partition strategy job.total job.workers = .ok ranges :=
    ⟨_, partition_eq_ok.2 ⟨hworkers, rfl⟩⟩
  have hlength := (partition_tiling hranges).1
  exact ⟨ranges, hranges, hlength, hlength ▸ hworkers⟩

variable {pipeline : Pipeline} {job : Job}

/-- The channel is made for as many workers as there are ranges, so the pool takes it. -/
theorem start_of_countable (htotal : job.total < 2 ^ 64)
    (hcountable : pipeline.settings.capacity ≤ maxCapacity) :
    ∃ execution, pipeline.start job true = .ok execution ∧ Launched pipeline job execution := by
  obtain ⟨ranges, hranges, hlength, hworkers⟩ := exists_ranges pipeline.settings.strategy job
  have hcapacity := (Settings.validate_eq_ok.1 pipeline.settings_valid).1
  obtain ⟨link, hlink⟩ : ∃ link, ResultChannel.make pipeline.settings.capacity ranges.length =
    .ok link :=
    ⟨_, ResultChannel.make_eq_ok.2 ⟨⟨hcapacity, hcountable⟩, hworkers, rfl⟩⟩
  obtain ⟨-, -, hmade⟩ := ResultChannel.make_eq_ok.1 hlink
  obtain ⟨pool, hpool⟩ : ∃ pool, Pool.start ranges link { pool := pipeline.isShutdown } = .ok pool :=
    ⟨_, Pool.start_eq_ok.2 ⟨hmade ▸ rfl, rfl⟩⟩
  obtain ⟨-, hbegun⟩ := Pool.start_eq_ok.1 hpool
  refine ⟨⟨ranges, .ofSettings pipeline.settings job.predicate, pool⟩, ?_, ?_⟩
  · simp only [start, Bool.not_true, Bool.false_eq_true, if_false, hranges, hlink, hpool, bind,
      Except.bind, pure, Except.pure]
  · subst hbegun hmade
    exact ⟨allotment_of_partition htotal hranges, rfl, rfl,
      congrArg (fun count => Channel.ofCapacity pipeline.settings.capacity (1 + count)) hlength,
      congrArg Barrier.ofExpected hlength, rfl⟩

theorem start_of_overflow (hoverflow : maxCapacity < pipeline.settings.capacity) :
    pipeline.start job true = .error .capacityOverflow := by
  obtain ⟨ranges, hranges, -, hworkers⟩ := exists_ranges pipeline.settings.strategy job
  have hlink := ResultChannel.make_of_overflow hworkers hoverflow
  simp only [start, Bool.not_true, Bool.false_eq_true, if_false, hranges, hlink, bind, Except.bind]

/-- **What was validated is started, unless its channel overflows.** Bad settings and bad jobs are
refused as arguments. Inside a runtime a job of any pipeline is started, with all its workers and
the channel that was asked for, as long as the places of the channel can be counted; otherwise the
call breaks off, after the total was split and before any worker is there. -/
theorem started_unless_overflowing (settings : Settings) (total workers : Nat) (predicate : Predicate)
    (htotal : total < 2 ^ 64) :
    (∀ error, make settings = .error error → ∃ fault, error = .invalidArgument fault) ∧
    (∀ error, Job.make total workers predicate = .error error →
      ∃ fault, error = .invalidArgument fault) ∧
    ∀ (hvalid : settings.validate = .ok ()) (isShutdown : Bool) (job : Job),
      Job.make total workers predicate = .ok job →
      (settings.capacity ≤ maxCapacity →
        ∃ execution, start ⟨settings, hvalid, isShutdown⟩ job true = .ok execution ∧
        Launched ⟨settings, hvalid, isShutdown⟩ job execution) ∧
      (maxCapacity < settings.capacity → start ⟨settings, hvalid, isShutdown⟩ job true =
        .error .capacityOverflow) := by
  refine ⟨fun _ => make_eq_error, fun _ => Job.make_eq_error, fun hvalid isShutdown job hjob => ?_⟩
  have hsame : job.total = total := Job.total_of_make hjob
  exact ⟨fun hcountable => start_of_countable (hsame ▸ htotal) hcountable,
    fun hoverflow => start_of_overflow hoverflow⟩

/-- The largest channel that can be counted, and the one that is larger by one place. -/
theorem started_unless_overflowing_by_one_place :
    2 < 2 ^ 64 ∧ ∃ job, Job.make 2 1 (.ofBool fun _ => true) = .ok job ∧
      (∃ hvalid execution, start ⟨{ capacity := 2305843009213693951 }, hvalid, false⟩ job true =
        .ok execution ∧ execution.ranges = [⟨0, 2, by decide⟩]) ∧
      ∃ hvalid, start ⟨{ capacity := 2305843009213693952 }, hvalid, false⟩ job true =
        .error .capacityOverflow := by
  have htotal : 2 < 2 ^ 64 := by decide
  obtain ⟨job, hjob⟩ : ∃ job, Job.make 2 1 (.ofBool fun _ => true) = .ok job := ⟨_, rfl⟩
  obtain ⟨-, -, hlargest⟩ := started_unless_overflowing { capacity := 2305843009213693951 } 2 1 _ htotal
  obtain ⟨-, -, hlarger⟩ := started_unless_overflowing { capacity := 2305843009213693952 } 2 1 _ htotal
  obtain ⟨execution, hstart, hlaunched⟩ := (hlargest rfl false job hjob).1 (by decide)
  refine ⟨htotal, job, hjob, ⟨rfl, execution, hstart, ?_⟩, rfl, (hlarger rfl false job hjob).2
    (by decide)⟩
  cases hjob
  exact Option.some_inj.1 hlaunched.allotment.fits.symm

/-- So not every job of a validated pipeline is started: one place more than can be counted is asked
for. -/
theorem validated_not_started :
    ¬∀ (settings : Settings) (hvalid : settings.validate = .ok ()) (job : Job),
    settings.capacity < 2 ^ 64 → settings.yieldInterval < 2 ^ 64 → job.total < 2 ^ 64 →
      ∃ execution, start ⟨settings, hvalid, false⟩ job true = .ok execution := by
  intro hstarts
  obtain ⟨execution, hstart⟩ := hstarts { capacity := 2305843009213693952 } rfl
    ⟨2, 1, .ofBool fun _ => true, by decide, by decide⟩ (by decide) (by decide) (by decide)
  rw [start_of_overflow (by decide)] at hstart
  cases hstart

end Pipeline

end ParallelFilter
