import ParallelFilter.Session
import ParallelFilter.Proofs.Progress

/-! Sessions and the histories of their pools. Whatever happens to a session happens to the history
of its pool, whose delivered values are those that the caller took followed by those that finishing
the job has drained. So what every history has, every session has. -/

namespace ParallelFilter

open Pool (History)

namespace Session

/-- The history of the session's pool. -/
structure Tracks (session : Session) (history : History) : Prop where
  pool : history.pool = session.job.pool
  delivered : history.delivered = session.taken ++ session.values
  held : session.stage = .held → session.values = []
  violation : ∀ fault, session.violation = some fault → .violation fault ∈ history.answers
  drain : session.stage ≠ .settling → session.job.pool.link.channel.receiving = true
  settling : session.stage = .settling → session.job.pool.link.finished = true

variable {session next last : Session} {history : History} {event : Event} {events : List Event}

theorem Tracks.ofExecution {job : Execution} (hopen : job.pool.link.channel.receiving = true) :
    (ofExecution job).Tracks (.ofPool job.pool) :=
  ⟨rfl, rfl, fun _ => rfl, nofun, fun _ => hopen, nofun⟩

section Note

variable (session) (pool : Pool) (answer : Polled)

theorem note_job : (session.note pool answer).job = { session.job with pool } := by
  unfold note
  split
  · split <;> rfl
  · split <;> rfl
  · rfl
  · rfl

theorem note_stage : (session.note pool answer).stage = session.stage := by
  unfold note
  split
  · split <;> rfl
  · split <;> rfl
  · rfl
  · rfl

theorem note_values (hheld : session.stage = .held) :
    (session.note pool answer).values = session.values := by
  unfold note
  cases answer <;> simp only [hheld]

theorem note_delivered (hheld : session.stage = .held → session.values = []) :
    (session.note pool answer).taken ++ (session.note pool answer).values =
      session.taken ++ session.values ++ (match some answer with
        | some (.value value) => [value]
        | _ => []) := by
  cases answer with
  | value value =>
      cases hstage : session.stage with
      | held => simp only [note, hstage, hheld hstage, List.append_nil]
      | draining | settling => simp only [note, hstage, List.append_assoc]
  | violation fault => cases hstage : session.stage <;> simp only [note, hstage, List.append_nil]
  | finished | pending => exact (List.append_nil _).symm

variable {session pool answer}

theorem note_violation {fault : OrderingFault} (h : (session.note pool answer).violation = some fault) :
    session.violation = some fault ∨ answer = .violation fault := by
  cases answer with
  | value value => cases hstage : session.stage <;> simp only [note, hstage] at h <;> exact .inl h
  | violation other =>
      cases hstage : session.stage <;> simp only [note, hstage] at h
      · exact .inl h
      · exact .inr (congrArg _ (Option.some_inj.1 h))
      · exact .inr (congrArg _ (Option.some_inj.1 h))
  | finished | pending => exact .inl h

end Note

/-- The move of the pool that the event is. Beginning to finish the job is none. -/
def Event.move? : Event → Option ParallelFilter.Event
  | .behind event => some event
  | .receive => some .receive
  | .finish => none
  | .leave => some .dropDrain

/-- What happens to a session is a move of its pool, or nothing to its job. -/
theorem step_job (h : session.step event = some next) :
    event.move? = none ∧ next.job = session.job ∨
      ∃ move after, event.move? = some move ∧
        session.job.pool.step session.job.rules move = some after ∧
        next.job = { session.job with pool := after } := by
  cases event with
  | behind event =>
      simp only [step] at h
      split at h
      · cases h
      · obtain ⟨after, hafter, rfl⟩ := Option.map_eq_some_iff.1 h
        exact .inr ⟨event, after, rfl, hafter, rfl⟩
  | receive =>
      simp only [step] at h
      split at h
      · cases h
      · obtain ⟨after, hafter, rfl⟩ := Option.map_eq_some_iff.1 h
        exact .inr ⟨.receive, after, rfl, hafter, note_job _ _ _⟩
  | finish =>
      simp only [step] at h
      split at h
      · cases h
        exact .inl ⟨rfl, rfl⟩
      · cases h
  | leave =>
      simp only [step] at h
      split at h
      · obtain ⟨after, hafter, rfl⟩ := Option.map_eq_some_iff.1 h
        exact .inr ⟨.dropDrain, after, rfl, hafter, rfl⟩
      · cases h

/-- What happens to the session happens to the history of its pool. The drain is lost only after it has
ended. -/
theorem Tracks.step (h : session.Tracks history) (hstep : session.step event = some next) :
    (next.job.rules = session.job.rules ∧ next.job.ranges = session.job.ranges) ∧
      (event.move? = none ∧ next.Tracks history ∨ ∃ move following, event.move? = some move ∧
        (move = .dropDrain → history.pool.link.finished = true) ∧
          history.step session.job.rules move = some following ∧ next.Tracks following) := by
  obtain ⟨pool, past, told⟩ := history
  obtain ⟨rfl, hdelivered, hheld, hviolation, hdrain, hsettling⟩ := h
  cases event with
  | behind event =>
      simp only [Session.step] at hstep
      split at hstep
      · cases hstep
      · rename_i hevent
        obtain ⟨hreceive, hdrop⟩ := not_or.1 hevent
        obtain ⟨after, hafter, rfl⟩ := Option.map_eq_some_iff.1 hstep
        have hmoves := Pool.step_moves hafter
        have hanswer : session.job.pool.answers event = none := by
          cases event <;> first | rfl | exact absurd rfl hreceive
        refine ⟨⟨rfl, rfl⟩,
          .inr ⟨event, _, rfl, fun h => absurd h hdrop, Pool.History.step_eq hafter, ?_⟩⟩
        rw [hanswer]
        refine ⟨rfl, ?_, hheld, ?_, ?_, ?_⟩
        · rw [Pool.History.delivered_extend, hdelivered]
          exact List.append_nil _
        · intro fault hfault
          exact List.mem_append_left _ (hviolation fault hfault)
        · intro hstage
          exact (hmoves.receiving_eq hdrop).trans (hdrain hstage)
        · intro hstage
          exact hmoves.finished (hsettling hstage)
  | receive =>
      simp only [Session.step] at hstep
      split at hstep
      · cases hstep
      · rename_i hstage
        obtain ⟨after, hafter, rfl⟩ := Option.map_eq_some_iff.1 hstep
        have hmoves := Pool.step_moves hafter
        have hjob := note_job session after session.job.pool.link.poll.1
        refine ⟨⟨by rw [hjob], by rw [hjob]⟩,
          .inr ⟨.receive, _, rfl, (fun h => by cases h), Pool.History.step_eq hafter, ?_⟩⟩
        refine ⟨by rw [hjob]; rfl, ?_, ?_, ?_, ?_, ?_⟩
        · rw [note_delivered session after _ hheld, ← hdelivered]
          exact Pool.History.delivered_extend
        · intro hnote
          rw [note_stage] at hnote
          rw [note_values session after _ hnote]
          exact hheld hnote
        · intro fault hfault
          rcases note_violation hfault with hfault | hanswer
          · exact List.mem_append_left _ (hviolation fault hfault)
          · exact List.mem_append_right _
              (by rw [Pool.answers, hanswer]; exact List.mem_singleton_self _)
        · intro _
          rw [hjob]
          exact (hmoves.receiving_eq (by decide)).trans (hdrain hstage)
        · intro hsettled
          rw [note_stage] at hsettled
          exact absurd hsettled hstage
  | finish =>
      simp only [Session.step] at hstep
      split at hstep
      · rename_i hstage
        cases hstep
        refine ⟨⟨rfl, rfl⟩,
          .inl ⟨rfl, rfl, hdelivered, (fun h => by cases h), hviolation, ?_, (fun h => by cases h)⟩⟩
        intro _
        exact hdrain (by rw [hstage]; decide)
      · cases hstep
  | leave =>
      simp only [Session.step] at hstep
      split at hstep
      · rename_i hready
        obtain ⟨after, hafter, rfl⟩ := Option.map_eq_some_iff.1 hstep
        have hmoves := Pool.step_moves hafter
        refine ⟨⟨rfl, rfl⟩,
          .inr ⟨.dropDrain, _, rfl, fun _ => hready.2, Pool.History.step_eq hafter, ?_⟩⟩
        refine ⟨rfl, ?_, (fun h => by cases h), ?_, fun h => absurd rfl h, ?_⟩
        · rw [Pool.History.delivered_extend, hdelivered]
          exact List.append_nil _
        · intro fault hfault
          exact List.mem_append_left _ (hviolation fault hfault)
        · intro _
          exact hmoves.finished hready.2
      · cases hstep

/-- A run of the session is a run of the history of its pool. Whatever every move of a pool keeps,
the loss of a drain that has ended included, the session keeps. -/
theorem Tracks.follow {P : History → Prop} (h : session.Tracks history) (hfirst : P history)
    (hmoves : ∀ history event published answer after, P history →
      (event = .dropDrain → history.pool.link.finished = true) →
      Pool.Moves session.job.rules history.pool event published answer after →
      P (history.extend published answer after))
    (hrun : session.follow events = some last) :
    (last.job.rules = session.job.rules ∧ last.job.ranges = session.job.ranges) ∧
      ∃ reached, history.follow session.job.rules (events.filterMap Event.move?) = some reached ∧
        last.Tracks reached ∧ P reached := by
  induction events generalizing session history with
  | nil =>
      cases hrun
      exact ⟨⟨rfl, rfl⟩, history, rfl, h, hfirst⟩
  | cons event events ih =>
      obtain ⟨next, hnext, hrest⟩ := foldlM_cons_eq_some.1 hrun
      obtain ⟨⟨hrules, hranges⟩, htracks⟩ := h.step hnext
      rcases htracks with ⟨hmove, htracks⟩ | ⟨move, following, hmove, hdrop, hfollowing, htracks⟩
      · rw [List.filterMap_cons_none hmove]
        rw [← hrules] at hmoves ⊢
        rw [← hranges]
        exact ih htracks hfirst hmoves hrest
      · obtain ⟨published, answer, after, hmoved, rfl⟩ := Pool.History.step_moves hfollowing
        have hkept := hmoves _ _ _ _ _ hfirst hdrop hmoved
        rw [List.filterMap_cons_some hmove, Pool.History.follow, List.foldlM_cons, hfollowing]
        rw [← hrules] at hmoves ⊢
        rw [← hranges]
        exact ih htracks hkept hmoves hrest

theorem step_stage (hstep : session.step event = some next) :
    event.move? = none ∧ next.stage ≠ .held ∧ session.stage = .held ∨
      (∃ move, event.move? = some move) ∧ (next.stage = .held → session.stage = .held) := by
  cases event with
  | behind event =>
      simp only [Session.step] at hstep
      split at hstep
      · cases hstep
      · obtain ⟨after, -, rfl⟩ := Option.map_eq_some_iff.1 hstep
        exact .inr ⟨⟨_, rfl⟩, id⟩
  | receive =>
      simp only [Session.step] at hstep
      split at hstep
      · cases hstep
      · obtain ⟨after, -, rfl⟩ := Option.map_eq_some_iff.1 hstep
        rw [note_stage]
        exact .inr ⟨⟨_, rfl⟩, id⟩
  | finish =>
      simp only [Session.step] at hstep
      split at hstep
      · rename_i hheld
        cases hstep
        exact .inl ⟨rfl, nofun, hheld⟩
      · cases hstep
  | leave =>
      simp only [Session.step] at hstep
      split at hstep
      · obtain ⟨after, -, rfl⟩ := Option.map_eq_some_iff.1 hstep
        exact .inr ⟨⟨_, rfl⟩, nofun⟩
      · cases hstep

/-- Every event but one is a move of the pool. -/
theorem length_follow_le (hrun : session.follow events = some last) :
    events.length ≤ (events.filterMap Event.move?).length + if session.stage = .held then 1 else 0 := by
  induction events generalizing session with
  | nil => exact Nat.zero_le _
  | cons event events ih =>
      obtain ⟨next, hnext, hrest⟩ := foldlM_cons_eq_some.1 hrun
      have hle := ih hrest
      rcases step_stage hnext with ⟨hmove, hbegun, hheld⟩ | ⟨⟨move, hmove⟩, hheld⟩
      · rw [List.filterMap_cons_none hmove, List.length_cons, if_pos hheld]
        rw [if_neg hbegun] at hle
        omega
      · rw [List.filterMap_cons_some hmove, List.length_cons, List.length_cons]
        by_cases hstage : next.stage = .held
        · rw [if_pos (hheld hstage)]
          rw [if_pos hstage] at hle
          omega
        · rw [if_neg hstage] at hle
          omega

/-- Whether the event is a move of the workers, the closer, those who join, or whoever has the job
in hand. Only a cancellation comes from outside. -/
def Event.isInner : Event → Bool
  | .behind event => event.isInner
  | .receive | .finish | .leave => true

/-- Nobody can move any more. -/
def AtRest (session : Session) : Prop :=
  ∀ event : Event, event.isInner = true → session.step event = none

section Output

variable {predicate : Predicate} {ranges : List Span}

/-- The output of a session is what was drained, with the report of its pool. -/
theorem Tracks.output?_eq_some (h : session.Tracks history) (hsound : history.Sound predicate ranges)
    {result : Except Error Output} (hresult : session.output? = some result) :
    result = .ok ⟨session.values, history.pool.report, session.job.ranges⟩ ∧
      history.pool.workers.all Worker.isJoined = true ∧
        history.delivered = history.published.map Prod.snd := by
  have hviolation : session.violation = none := by
    by_contra hsome
    obtain ⟨fault, hfault⟩ := Option.ne_none_iff_exists'.1 hsome
    exact hsound.delivery.orderly fault (h.violation fault hfault)
  cases hstage : session.stage with
  | held | draining =>
      rw [output?, hstage] at hresult
      cases hresult
  | settling =>
      simp only [output?, hstage, hviolation, ← h.pool] at hresult
      obtain ⟨reported, hreported, rfl⟩ := Option.map_eq_some_iff.1 hresult
      obtain ⟨rfl, hjoined, -⟩ := hsound.result?_eq_some hreported
      have hfinished := h.settling hstage
      rw [← h.pool] at hfinished
      exact ⟨rfl, hjoined, hsound.delivery.whole hfinished⟩

/-- At rest the job was finished, so there is an output. -/
theorem Tracks.output?_of_atRest (h : session.Tracks history) (hsound : history.Sound predicate ranges)
    (hrest : session.AtRest) : ∃ output, session.output? = some (.ok output) := by
  have hbegun : session.stage ≠ .held := by
    intro hheld
    have hnone := hrest .finish rfl
    rw [Session.step, if_pos hheld] at hnone
    cases hnone
  have hpool : history.pool.AtRest session.job.rules := by
    rw [h.pool]
    intro event hinner
    have hnone := hrest (.behind event) hinner
    cases event with
    | receive =>
        by_cases hstage : session.stage = .settling
        · rw [Pool.step, if_neg]
          rw [h.settling hstage]
          exact fun hready => hready.2 rfl
        · have hnone := hrest .receive rfl
          rw [Session.step, if_neg hstage] at hnone
          exact Option.map_eq_none_iff.1 hnone
    | dropDrain | cancel scope => cases hinner
    | work index | queue index | close | join index => exact Option.map_eq_none_iff.1 hnone
  obtain ⟨hresult, hended⟩ := Pool.History.result?_of_atRest hsound hpool
  rw [h.pool] at hresult hended
  cases hstage : session.stage with
  | held => exact absurd hstage hbegun
  | draining =>
      have hopen := h.drain (by rw [hstage]; decide)
      have hnone := hrest .leave rfl
      rw [Session.step, if_pos ⟨hstage, hended hopen⟩, Pool.step, if_pos hopen] at hnone
      cases hnone
  | settling =>
      have hsome : session.output?.isSome = true := by
        rw [output?, hstage]
        simp only [hresult, Option.map_some, Option.isSome_some]
      obtain ⟨result, houtput⟩ := Option.isSome_iff_exists.1 hsome
      obtain ⟨rfl, -⟩ := h.output?_eq_some hsound houtput
      exact ⟨_, houtput⟩

end Output

end Session

end ParallelFilter
