import ParallelFilter.Fleet
import ParallelFilter.Proofs.Summons
import ParallelFilter.Proofs.Tracking

/-! The jobs of one pipeline do not disturb one another. A chronicle is a fleet with a record of
whose token somebody has asked to cancel and of what each job got to see: how it was started, what
was done to it, and when the pipeline was shut down. A job's token is cancelled on account of that
job or of the pipeline only, and what a job got to see determines all that became of it. -/

namespace ParallelFilter

namespace Session

/-- What is cancelled on request when the touch happens. -/
def asks (session : Session) : Touch → Option Scope
  | .go event => event.move?.bind (session.job.pool.asks session.job.rules)
  | .cancel => some .job
  | .dropDrain => none

/-- The job's own token is cancelled if somebody asked for it, or if the fault of a worker has
become known under fail-fast. -/
structure Accounted (session : Session) (asked : Prop) : Prop where
  alarmed : session.job.pool.Alarmed session.job.rules
  token : session.job.pool.token.job = true ↔
    asked ∨ session.job.rules.failFast = true ∧ session.job.pool.FaultIsKnown

variable {session next : Session} {action : Touch} {asked : Prop}

/-- What a touch does to a job. Its rules stay as they are. -/
theorem touch_summons (h : session.touch action = some next)
    (halarmed : session.job.pool.Alarmed session.job.rules) :
    next.job.rules = session.job.rules ∧ next.job.pool.Alarmed session.job.rules ∧
      Pool.Summons session.job.rules session.job.pool (session.asks action) next.job.pool := by
  cases action with
  | go event =>
      rcases step_job h with ⟨hmove, hjob⟩ | ⟨move, after, hmove, hafter, hjob⟩
      · rw [hjob, asks, hmove]
        exact ⟨rfl, halarmed, .asked rfl fun _ => .rfl⟩
      · rw [hjob, asks, hmove]
        have hmoves := Pool.step_moves hafter
        exact ⟨rfl, hmoves.alarmed halarmed, hmoves.summons halarmed⟩
  | cancel =>
      cases h
      exact ⟨rfl, halarmed, .asked rfl fun _ => .rfl⟩
  | dropDrain =>
      cases h
      exact ⟨rfl, halarmed, .asked rfl fun _ => .rfl⟩

theorem Accounted.touch (h : session.Accounted asked) (htouch : session.touch action = some next) :
    next.Accounted (asked ∨ session.asks action = some .job) := by
  obtain ⟨hrules, halarmed, hsummons⟩ := touch_summons htouch h.alarmed
  refine ⟨hrules ▸ halarmed, ?_⟩
  rw [hrules]
  exact hsummons.token_job h.token

theorem Accounted.share (h : session.Accounted asked) (isShutdown : Bool) :
    (session.share isShutdown).Accounted asked :=
  ⟨h.alarmed, h.token⟩

theorem Accounted.congr {other : Prop} (h : session.Accounted asked) (hasked : asked ↔ other) :
    session.Accounted other :=
  ⟨h.alarmed, by rw [h.token, hasked]⟩

theorem share_eq_self {isShutdown : Bool} (h : session.job.pool.token.pool = isShutdown) :
    session.share isShutdown = session := by
  subst h
  rfl

end Session

namespace Pipeline

variable {pipeline : Pipeline} {job : Job} {inRuntime : Bool} {execution : Execution}

/-- A job starts with the pipeline's settings and under the pipeline's token. -/
theorem start_accounted (hstart : pipeline.start job inRuntime = .ok execution) :
    inRuntime = true ∧ execution.rules.failFast = pipeline.settings.failFast ∧
      execution.pool.token.pool = pipeline.isShutdown ∧
        (Session.ofExecution execution).Accounted False := by
  cases inRuntime with
  | false => cases hstart
  | true =>
      obtain ⟨ranges, link, pool, -, -, hpool, rfl⟩ := start_eq_ok hstart
      have hknown := Pool.ofStart_faultIsKnown hpool
      have halarmed : pool.Alarmed (.ofSettings pipeline.settings job.predicate) :=
        Pool.ofStart_alarmed hpool
      obtain ⟨-, rfl⟩ := Pool.start_eq_ok.1 hpool
      refine ⟨rfl, rfl, rfl, halarmed, iff_of_false nofun ?_⟩
      rintro (hasked | ⟨-, hfault⟩)
      · exact hasked
      · exact hknown hfault

theorem with_isShutdown_congr {other : Pipeline} (h : pipeline.settings = other.settings)
    (isShutdown : Bool) :
    { pipeline with isShutdown } = { other with isShutdown } := by
  obtain ⟨settings, hvalid, flag⟩ := pipeline
  obtain rfl : settings = other.settings := h
  rfl

end Pipeline

namespace Fleet

/-- Whose token somebody asks to cancel. -/
inductive Target where
  | job (index : Nat)
  | pipeline
  deriving DecidableEq

/-- A worker of a job can reach the job's token and the one above. -/
def Target.ofScope (index : Nat) : Scope → Target
  | .job => .job index
  | .pool => .pipeline

theorem pipeline_mem_ofScope {index : Nat} {asks : Option Scope} :
    .pipeline ∈ (asks.map (Target.ofScope index)).toList ↔ asks = some .pool := by
  cases asks with
  | none => simp
  | some scope => cases scope <;> simp [Target.ofScope]

theorem job_mem_ofScope {index other : Nat} {asks : Option Scope} :
    .job other ∈ (asks.map (Target.ofScope index)).toList ↔ index = other ∧ asks = some .job := by
  cases asks with
  | none => simp
  | some scope => cases scope <;> simp [Target.ofScope, eq_comm]

/-- What one job gets to see. -/
inductive Sight where
  /-- It is started, under a pipeline that was shut down already or not. -/
  | begun (job : Job) (isShutdown : Bool)
  | touched (touch : Session.Touch)
  /-- The pipeline is shut down meanwhile, and not by this job. -/
  | shutdown

/-- Whose token is cancelled on request when the event happens. -/
def asks (fleet : Fleet) : Event → Option Target
  | .start _ _ => none
  | .shutdown => some .pipeline
  | .touch index touch =>
    (fleet.session? index).bind fun session => (session.asks touch).map (Target.ofScope index)

/-- Whether a job that is there is told that the pipeline was shut down. -/
def told (before after : Fleet) (index : Nat) : Option Sight :=
  if index < before.sessions.size ∧ before.pipeline.isShutdown ≠
    after.pipeline.isShutdown then some .shutdown
  else none

/-- What a job gets to see of an event that leads from `before` to `after`. -/
def sight? (before after : Fleet) (index : Nat) : Event → Option Sight
  | .start job _ =>
    if before.sessions.size = index ∧ index < after.sessions.size then
      some (.begun job before.pipeline.isShutdown)
    else none
  | .shutdown => told before after index
  | .touch other touch => if other = index then some (.touched touch) else told before after index

/-- A job from its start on, by what it has seen. -/
def Sight.apply (pipeline : Pipeline) : Option Session → Sight → Option Session
  | none, .begun job isShutdown =>
    match { pipeline with isShutdown }.start job true with
    | .ok execution => some (.ofExecution execution)
    | .error _ => none
  | some session, .touched touch => session.touch touch
  | some session, .shutdown => some (session.share true)
  | session?, _ => session?

def replay (pipeline : Pipeline) (sights : List Sight) : Option Session :=
  sights.foldl (Sight.apply pipeline) none

/-- A fleet with what has happened in it so far. -/
structure Chronicle where
  fleet : Fleet
  /-- Whose tokens somebody has asked to cancel, in this order. -/
  asked : List Target
  /-- What each job has seen, oldest first. -/
  seen : Nat → List Sight

namespace Chronicle

def ofPipeline (pipeline : Pipeline) : Chronicle :=
  ⟨.ofPipeline pipeline, [], fun _ => []⟩

/-- The chronicle after one more event, if the event can happen. -/
def step (chronicle : Chronicle) (event : Event) : Option Chronicle :=
  (chronicle.fleet.step event).map fun fleet =>
    ⟨fleet, chronicle.asked ++ (chronicle.fleet.asks event).toList,
      fun index => chronicle.seen index ++ (chronicle.fleet.sight? fleet index event).toList⟩

/-- The chronicle after the events, if they can happen one after another. -/
def follow (chronicle : Chronicle) (events : List Event) : Option Chronicle :=
  events.foldlM step chronicle

end Chronicle

section Lookup

variable {fleet : Fleet} {index other : Nat} {session : Session}

theorem session?_pool (h : fleet.session? index = some session) :
    session.job.pool.token.pool = fleet.pipeline.isShutdown := by
  obtain ⟨stored, -, rfl⟩ := Option.map_eq_some_iff.1 h
  rfl

theorem lt_size_of_session? (h : fleet.session? index = some session) :
    index < fleet.sessions.size := by
  obtain ⟨stored, hstored, -⟩ := Option.map_eq_some_iff.1 h
  exact (Array.getElem?_eq_some_iff.1 hstored).1

theorem session?_eq_none (h : fleet.sessions.size ≤ index) : fleet.session? index = none := by
  rw [session?, Array.getElem?_eq_none h]
  rfl

/-- A job that was looked up is the same when it is looked up again. -/
theorem map_share_session? : (fleet.session? index).map (·.share fleet.pipeline.isShutdown) =
    fleet.session? index := by
  rw [session?, Option.map_map]
  rfl

theorem session?_put_self (hindex : index < fleet.sessions.size) :
    (fleet.put index session).session? index = some session := by
  rw [session?, put, Array.getElem?_setIfInBounds_self_of_lt hindex]
  rfl

/-- Of what happens to another job, a job notices no more than what becomes of the pipeline's token. -/
theorem session?_put_of_ne (hne : index ≠ other) :
    (fleet.put index session).session? other =
      (fleet.session? other).map (·.share session.job.pool.token.pool) := by
  rw [session?, put, Array.getElem?_setIfInBounds_ne hne, session?, Option.map_map]
  rfl

theorem size_put : (fleet.put index session).sessions.size = fleet.sessions.size :=
  Array.size_setIfInBounds

theorem size_enroll {execution : Execution} :
    (fleet.enroll execution).sessions.size = fleet.sessions.size + 1 :=
  Array.size_push _

theorem session?_enroll {execution : Execution}
    (hpool : execution.pool.token.pool = fleet.pipeline.isShutdown) :
    (fleet.enroll execution).session? index =
      if index = fleet.sessions.size then some (.ofExecution execution) else fleet.session? index := by
  rw [session?, enroll, Array.getElem?_push, session?]
  split
  · exact congrArg some (Session.share_eq_self hpool)
  · rfl

theorem session?_shutdown :
    fleet.shutdown.session? index = (fleet.session? index).map (·.share true) := by
  rw [session?, session?, Option.map_map]
  rfl

end Lookup

section Replay

variable {pipeline : Pipeline} {fleet after : Fleet} {index : Nat} {event : Event} {sights : List Sight}

theorem replay_append {sight : Option Sight} : replay pipeline (sights ++ sight.toList) =
    sight.toList.foldl (Sight.apply pipeline) (replay pipeline sights) :=
  List.foldl_append

theorem told_of_le (hindex : fleet.sessions.size ≤ index) : told fleet after index = none :=
  if_neg fun hturned => Nat.not_lt.2 hindex hturned.1

theorem replay_congr {other : Pipeline} (h : other.settings = pipeline.settings) :
    replay other sights = replay pipeline sights := by
  have happly : Sight.apply other = Sight.apply pipeline := by
    funext session? sight
    cases session? with
    | some session => cases sight <;> rfl
    | none =>
        cases sight with
        | begun job isShutdown => simp only [Sight.apply, Pipeline.with_isShutdown_congr h]
        | touched _ | shutdown => rfl
  rw [replay, happly, replay]

/-- A pipeline is shut down once. -/
theorem foldl_told (hkept : fleet.pipeline.isShutdown = true → after.pipeline.isShutdown = true) :
    (told fleet after index).toList.foldl (Sight.apply pipeline) (fleet.session? index) =
      (fleet.session? index).map (·.share after.pipeline.isShutdown) := by
  by_cases hindex : index < fleet.sessions.size
  · by_cases hsame : fleet.pipeline.isShutdown = after.pipeline.isShutdown
    · rw [told, if_neg fun hturned => hturned.2 hsame, ← hsame, map_share_session?]
      rfl
    · have hturned : after.pipeline.isShutdown = true := by
        cases hbefore : fleet.pipeline.isShutdown with
        | true => exact hkept hbefore
        | false => exact eq_true_of_ne_false fun hafter => hsame (hbefore.trans hafter.symm)
      rw [told, if_pos ⟨hindex, hsame⟩, hturned]
      cases fleet.session? index <;> rfl
  · rw [told_of_le (Nat.not_lt.1 hindex), session?_eq_none (Nat.not_lt.1 hindex)]
    rfl

end Replay

namespace Chronicle

/-- Each job has to answer for itself only. -/
structure Separate (pipeline : Pipeline) (chronicle : Chronicle) : Prop where
  settings : chronicle.fleet.pipeline.settings = pipeline.settings
  shutdown : chronicle.fleet.pipeline.isShutdown = true ↔
    pipeline.isShutdown = true ∨ .pipeline ∈ chronicle.asked
  fresh : ∀ index, chronicle.fleet.sessions.size ≤ index →
    .job index ∉ chronicle.asked ∧ chronicle.seen index = []
  failFast : ∀ index session, chronicle.fleet.session? index = some session →
    session.job.rules.failFast = pipeline.settings.failFast
  accounted : ∀ index session, chronicle.fleet.session? index = some session →
    session.Accounted (.job index ∈ chronicle.asked)
  replayed : ∀ index, chronicle.fleet.session? index = replay pipeline (chronicle.seen index)

variable {pipeline : Pipeline} {chronicle next last : Chronicle} {event : Event} {events : List Event}

theorem separate_ofPipeline : (ofPipeline pipeline).Separate pipeline := by
  have hnone {index : Nat} {session : Session}
      (hsession : (ofPipeline pipeline).fleet.session? index = some session) : False := by
    rw [session?_eq_none (Nat.zero_le index)] at hsession
    cases hsession
  refine ⟨rfl, (or_iff_left nofun).symm, fun _ _ => ⟨nofun, rfl⟩, ?_, ?_, fun _ => rfl⟩
  · exact fun _ _ hsession => (hnone hsession).elim
  · exact fun _ _ hsession => (hnone hsession).elim

theorem Separate.refuse {job : Job} {inRuntime : Bool} {error : Error} (h : chronicle.Separate pipeline)
    (hstart : chronicle.fleet.pipeline.start job inRuntime = .error error)
    (hstep : chronicle.step (.start job inRuntime) = some next) : next.Separate pipeline := by
  have hsame : chronicle.fleet.start job inRuntime = chronicle.fleet := by rw [start, hstart]
  have hblind (index : Nat) : sight? chronicle.fleet chronicle.fleet index (.start job inRuntime) =
      none :=
    if_neg fun hborn => Nat.lt_irrefl _ (hborn.1 ▸ hborn.2)
  simp only [step, Fleet.step, Option.map_some, Option.some_inj, hsame, hblind, asks,
    Option.toList_none, List.append_nil] at hstep
  exact hstep ▸ h

theorem Separate.accept {job : Job} {inRuntime : Bool} {execution : Execution}
    (h : chronicle.Separate pipeline)
    (hstart : chronicle.fleet.pipeline.start job inRuntime = .ok execution)
    (hstep : chronicle.step (.start job inRuntime) = some next) : next.Separate pipeline := by
  obtain ⟨rfl, hfast, hpool, haccounted⟩ := Pipeline.start_accounted hstart
  have henroll : chronicle.fleet.start job true = chronicle.fleet.enroll execution := by
    rw [start, hstart]
  have hborn (index : Nat) :
      sight? chronicle.fleet (chronicle.fleet.enroll execution) index (.start job true) =
        if index = chronicle.fleet.sessions.size then
          some (.begun job chronicle.fleet.pipeline.isShutdown)
        else none := by
    rw [sight?, size_enroll]
    exact if_congr (by omega) rfl rfl
  simp only [step, Fleet.step, Option.map_some, Option.some_inj, henroll, hborn, asks,
    Option.toList_none, List.append_nil] at hstep
  subst hstep
  refine ⟨h.settings, h.shutdown, ?_, ?_, ?_, ?_⟩
  · intro index hindex
    rw [size_enroll] at hindex
    obtain ⟨hasked, hseen⟩ := h.fresh index (Nat.le_of_succ_le hindex)
    refine ⟨hasked, List.append_eq_nil_iff.2 ⟨hseen, ?_⟩⟩
    rw [if_neg (by omega)]
    rfl
  · intro index session hsession
    rw [session?_enroll hpool] at hsession
    split at hsession
    · cases hsession
      exact hfast.trans (congrArg _ h.settings)
    · exact h.failFast index session hsession
  · intro index session hsession
    rw [session?_enroll hpool] at hsession
    split at hsession
    · rename_i heq
      cases hsession
      exact haccounted.congr (iff_of_false id (h.fresh index (Nat.le_of_eq heq.symm)).1)
    · exact h.accounted index session hsession
  · intro index
    rw [session?_enroll hpool, replay_append, ← h.replayed]
    split
    · rename_i heq
      rw [session?_eq_none (Nat.le_of_eq heq.symm)]
      simp only [Option.toList_some, List.foldl_cons, List.foldl_nil, Sight.apply,
        ← Pipeline.with_isShutdown_congr h.settings, hstart]
    · rfl

theorem Separate.shutDown (h : chronicle.Separate pipeline)
    (hstep : chronicle.step .shutdown = some next) :
    next.Separate pipeline := by
  simp only [step, Fleet.step, Option.map_some, Option.some_inj, asks, sight?] at hstep
  subst hstep
  refine ⟨h.settings, ?_, ?_, ?_, ?_, ?_⟩
  · exact iff_of_true rfl (.inr (List.mem_append_right _ (List.mem_singleton_self _)))
  · intro index (hindex : chronicle.fleet.sessions.size ≤ index)
    obtain ⟨hasked, hseen⟩ := h.fresh index hindex
    refine ⟨?_, List.append_eq_nil_iff.2 ⟨hseen, ?_⟩⟩
    · rw [List.mem_append]
      exact not_or.2 ⟨hasked, by simp⟩
    · rw [told_of_le hindex]
      rfl
  · intro index session hsession
    rw [session?_shutdown] at hsession
    obtain ⟨stored, hstored, rfl⟩ := Option.map_eq_some_iff.1 hsession
    exact h.failFast index stored hstored
  · intro index session hsession
    rw [session?_shutdown] at hsession
    obtain ⟨stored, hstored, rfl⟩ := Option.map_eq_some_iff.1 hsession
    exact ((h.accounted index stored hstored).share true).congr (by simp)
  · intro index
    rw [session?_shutdown, replay_append, ← h.replayed, foldl_told fun _ => rfl]
    rfl

theorem Separate.touch {index : Nat} {action : Session.Touch} (h : chronicle.Separate pipeline)
    (hstep : chronicle.step (.touch index action) = some next) : next.Separate pipeline := by
  obtain ⟨fleet, hfleet, rfl⟩ := Option.map_eq_some_iff.1 hstep
  obtain ⟨session, hsession, hput⟩ := Option.bind_eq_some_iff.1 hfleet
  obtain ⟨after, hafter, rfl⟩ := Option.map_eq_some_iff.1 hput
  have hindex := lt_size_of_session? hsession
  have haccounted := h.accounted index session hsession
  obtain ⟨hrules, -, hsummons⟩ := Session.touch_summons hafter haccounted.alarmed
  have hpool := hsummons.token_pool
  rw [session?_pool hsession] at hpool
  have hasks : chronicle.fleet.asks (.touch index action) =
      (session.asks action).map (Target.ofScope index) := by
    rw [asks, hsession, Option.bind_some]
  rw [hasks]
  refine ⟨h.settings, ?_, ?_, ?_, ?_, ?_⟩
  · rw [List.mem_append, ← or_assoc, ← h.shutdown, pipeline_mem_ofScope]
    exact hpool
  · intro other hother
    rw [size_put] at hother
    obtain ⟨hasked, hseen⟩ := h.fresh other hother
    have hne : index ≠ other := Nat.ne_of_lt (Nat.lt_of_lt_of_le hindex hother)
    refine ⟨?_, List.append_eq_nil_iff.2 ⟨hseen, ?_⟩⟩
    · rw [List.mem_append, job_mem_ofScope]
      exact not_or.2 ⟨hasked, fun hself => hne hself.1⟩
    · rw [sight?, if_neg hne, told_of_le hother]
      rfl
  · intro other current hcurrent
    by_cases heq : index = other
    · subst heq
      rw [session?_put_self hindex] at hcurrent
      cases hcurrent
      rw [hrules]
      exact h.failFast index session hsession
    · rw [session?_put_of_ne heq] at hcurrent
      obtain ⟨stored, hstored, rfl⟩ := Option.map_eq_some_iff.1 hcurrent
      exact h.failFast other stored hstored
  · intro other current hcurrent
    dsimp only at hcurrent ⊢
    simp only [List.mem_append, job_mem_ofScope]
    by_cases heq : index = other
    · subst heq
      rw [session?_put_self hindex] at hcurrent
      cases hcurrent
      refine (haccounted.touch hafter).congr ?_
      rw [and_iff_right rfl]
    · rw [session?_put_of_ne heq] at hcurrent
      obtain ⟨stored, hstored, rfl⟩ := Option.map_eq_some_iff.1 hcurrent
      refine ((h.accounted other stored hstored).share _).congr ?_
      rw [or_iff_left fun hself => heq hself.1]
  · intro other
    rw [replay_append, ← h.replayed]
    by_cases heq : index = other
    · subst heq
      rw [session?_put_self hindex, hsession, sight?, if_pos rfl]
      exact hafter.symm
    · rw [session?_put_of_ne heq, sight?, if_neg heq, foldl_told]
      · rfl
      · exact fun hbefore => hpool.2 (.inl hbefore)

theorem Separate.step (h : chronicle.Separate pipeline) (hstep : chronicle.step event = some next) :
    next.Separate pipeline := by
  cases event with
  | start job inRuntime =>
      cases hstart : chronicle.fleet.pipeline.start job inRuntime with
      | ok execution => exact h.accept hstart hstep
      | error error => exact h.refuse hstart hstep
  | shutdown => exact h.shutDown hstep
  | touch index action => exact h.touch hstep

theorem Separate.follow (hrun : (ofPipeline pipeline).follow events = some last) :
    last.Separate pipeline :=
  foldlM_induction (fun _ _ _ _ h hstep => h.step hstep) separate_ofPipeline hrun

/-- **Isolation of jobs.** In every history of a pipeline its token is cancelled only as the
pipeline's, and a job's token only on account of the job itself, of a worker of its own under
fail-fast, or of the pipeline. A job that sees the same in two histories, whatever becomes of the
jobs beside it, is the same job in both: it has the same report, faults and values. -/
theorem jobs_isolated (hrun : (ofPipeline pipeline).follow events = some last) :
    (last.fleet.pipeline.isShutdown = true ↔ pipeline.isShutdown = true ∨ .pipeline ∈ last.asked) ∧
      (∀ index session, last.fleet.session? index = some session →
        (session.job.pool.token.isCancelled = true ↔
          .job index ∈ last.asked ∨
            (pipeline.settings.failFast = true ∧
              ∃ worker ∈ session.job.pool.workers, worker.faultIsKnown = true) ∨
            last.fleet.pipeline.isShutdown = true) ∧
          ∀ worker ∈ session.job.pool.workers,
            (worker.faultIsKnown = true → worker.hasFaulted = true) ∧
              (worker.isGone = true → worker.hasFaulted = true → worker.faultIsKnown = true)) ∧
      ∀ (other : Pipeline) (otherEvents : List Event) (otherLast : Chronicle) (index otherIndex : Nat),
        other.settings = pipeline.settings →
        (ofPipeline other).follow otherEvents = some otherLast →
        otherLast.seen otherIndex = last.seen index →
        otherLast.fleet.session? otherIndex = last.fleet.session? index := by
  have h := Separate.follow hrun
  refine ⟨h.shutdown, fun index session hsession => ⟨?_, fun worker _ => ⟨?_, ?_⟩⟩, ?_⟩
  · rw [Token.isCancelled_iff, session?_pool hsession, (h.accounted index session hsession).token,
      h.failFast index session hsession, or_assoc]
    rfl
  · exact Worker.hasFaulted_of_faultIsKnown
  · exact Worker.faultIsKnown_of_isGone
  · intro other otherEvents otherLast index otherIndex hsettings hother hseen
    rw [h.replayed, (Separate.follow hother).replayed, hseen, replay_congr hsettings]

/-- A pipeline under fail-fast. -/
def hasty : Pipeline where
  settings := { failFast := true }
  settings_valid := rfl
  isShutdown := false

/-- Fails on its only value. -/
def broken : Job where
  total := 1
  workers := 1
  predicate _ := .failed "broken"
  workers_pos := Nat.one_pos
  workers_le := by decide

/-- Accepts its only value. -/
def whole : Job where
  total := 1
  workers := 1
  predicate := .ofBool fun _ => true
  workers_pos := Nat.one_pos
  workers_le := by decide

/-- The only worker of a job makes a move. -/
def work (index : Nat) : Event :=
  .touch index (.go (.behind (.work 0)))

/-- Under fail-fast one job fails while another runs, which is none the worse for it. -/
theorem jobs_isolated_two_jobs : ∃ last alone,
    (ofPipeline hasty).follow
        [.start broken true, .start whole true, work 1, work 0, work 1, work 0, work 1] =
      some last ∧
    (ofPipeline hasty).follow [.start whole true, work 0, work 0, work 0] = some alone ∧
    (last.fleet.session? 0).map (·.job.pool.token.isCancelled) = some true ∧
    (last.fleet.session? 1).map (·.job.pool.token.isCancelled) = some false ∧
    alone.fleet.session? 0 = last.fleet.session? 1 := by
  have hboth : ((ofPipeline hasty).follow
      [.start broken true, .start whole true, work 1, work 0, work 1, work 0, work 1]).any
        (fun last => (last.fleet.session? 0).map (·.job.pool.token.isCancelled) = some true ∧
          (last.fleet.session? 1).map (·.job.pool.token.isCancelled) = some false) = true := by
    decide +kernel
  have hsingle : ((ofPipeline hasty).follow [.start whole true, work 0, work 0, work 0]).isSome =
      true := by
    decide +kernel
  have hseen :
      ((ofPipeline hasty).follow [.start whole true, work 0, work 0, work 0]).map (·.seen 0) =
      ((ofPipeline hasty).follow
        [.start broken true, .start whole true, work 1, work 0, work 1, work 0, work 1]).map
          (·.seen 1) := by
    cbv
  obtain ⟨last, hlast, htokens⟩ := (Option.any_eq_true _ _).1 hboth
  obtain ⟨alone, halone⟩ := Option.isSome_iff_exists.1 hsingle
  rw [hlast, halone] at hseen
  obtain ⟨hbroken, hwhole⟩ := of_decide_eq_true htokens
  exact ⟨last, alone, hlast, halone, hbroken, hwhole,
    (jobs_isolated hlast).2.2 hasty _ alone 1 0 rfl halone (Option.some_inj.1 hseen)⟩

end Chronicle

end Fleet

end ParallelFilter
