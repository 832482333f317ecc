import ParallelFilter.Proofs.SingleThread
import ParallelFilter.Proofs.Attended

/-! Running a job is one of its sessions. Whatever the caller receives, and whatever finishing the
job gives, some order of events gives too, and there always is a result. So what holds of all
sessions holds of `Pipeline.run`. -/

namespace ParallelFilter

namespace Session

variable {session next last : Session} {pool : Pool}

/-- The one session leads to the other. -/
def LeadsTo (session next : Session) : Prop :=
  ∃ events, session.follow events = some next

/-- The session is that of a sound history. -/
def Regular (session : Session) : Prop :=
  ∃ ranges history, session.Tracks history ∧ history.Sound session.job.rules.predicate ranges

namespace Regular

theorem pool_regular (h : session.Regular) : session.job.pool.Regular session.job.rules := by
  obtain ⟨ranges, history, htracks, hsound⟩ := h
  exact ⟨ranges, history, htracks.pool, hsound⟩

theorem receiving (h : session.Regular) (hheld : session.stage = .held) :
    session.job.pool.link.channel.receiving = true := by
  obtain ⟨ranges, history, htracks, -⟩ := h
  exact htracks.drain (by rw [hheld]; decide)

theorem violation (h : session.Regular) : session.violation = none := by
  obtain ⟨ranges, history, htracks, hsound⟩ := h
  by_contra hsome
  obtain ⟨fault, hfault⟩ := Option.ne_none_iff_exists'.1 hsome
  exact hsound.delivery.orderly fault (htracks.violation fault hfault)

end Regular

namespace LeadsTo

theorem regular (h : session.LeadsTo next) (hregular : session.Regular) : next.Regular := by
  obtain ⟨events, hevents⟩ := h
  obtain ⟨ranges, history, htracks, hsound⟩ := hregular
  obtain ⟨⟨hrules, -⟩, reached, -, hreached, hstill⟩ :=
    htracks.follow hsound (fun _ _ _ _ _ hsound _ hmoves => hsound.moves hmoves) hevents
  exact ⟨ranges, reached, hreached, by rwa [hrules]⟩

theorem refl (session : Session) : session.LeadsTo session :=
  Reaches.refl _ session

theorem ofStep (event : Event) (h : session.step event = some next) : session.LeadsTo next :=
  Reaches.ofStep event h

theorem trans (h : session.LeadsTo next) (hmore : next.LeadsTo last) : session.LeadsTo last :=
  Reaches.trans h hmore

/-- The pool of a session moves in the background. -/
theorem ofLeads (h : Pool.Leads session.job.rules session.job.pool pool) :
    session.LeadsTo { session with job.pool := pool } := by
  induction h with
  | refl => exact refl session
  | tail _ hmove ih =>
      obtain ⟨event, hevent, hstep⟩ := hmove
      refine ih.trans (.ofStep (.behind event) ?_)
      have hother : ¬(event = .receive ∨ event = .dropDrain) := by
        rintro (rfl | rfl) <;> cases hevent
      rw [Session.step, if_neg hother, hstep]
      rfl

/-- What the drain gives out while a job is finished comes on top of the values. -/
theorem ofServes {values : List Nat} (hstage : session.stage = .draining)
    (h : Pool.Serves session.job.rules (session.job.pool, session.values) (pool, values)) :
    session.LeadsTo { session with job.pool := pool, values } := by
  generalize hend : (pool, values) = reached at h
  induction h generalizing pool values with
  | refl =>
      cases hend
      exact refl session
  | tail _ hmove ih =>
      cases hmove with
      | @behind before after values event hevent hstep =>
          cases hend
          have hmove : Pool.Leads session.job.rules before pool := .ofStep event hevent hstep
          exact (ih rfl).trans (.ofLeads hmove)
      | @receive before after values value hvalue hstep =>
          cases hend
          refine (ih rfl).trans (.ofStep .receive ?_)
          rw [Session.step, if_neg (by rw [hstage]; decide), hstep, Option.map_some, hvalue,
            note, hstage]

end LeadsTo

section Execution

variable (hregular : session.Regular) (hheld : session.stage = .held)

include hregular hheld

/-- What the drain is asked for is waited for in the background. -/
theorem await_leadsTo : ∃ answer after, session.job.pool.await session.job.rules = (answer, after) ∧
    answer ≠ .pending ∧ session.LeadsTo (session.note after answer) := by
  obtain ⟨middle, hleads, hanswer, hawait⟩ := Pool.await_leads hregular.pool_regular
  refine ⟨_, _, hawait, hanswer, (LeadsTo.ofLeads hleads).trans ?_⟩
  have hstays := hleads.receiving_eq.trans (hregular.receiving hheld)
  cases hlink : middle.link.finished with
  | true =>
      rw [ResultChannel.poll_of_finished hlink]
      exact .refl _
  | false =>
      refine .ofStep .receive ?_
      have hready : middle.link.channel.receiving = true ∧ ¬middle.link.finished = true :=
        ⟨hstays, by rw [hlink]; decide⟩
      rw [Session.step, if_neg (by rw [hheld]; decide), Pool.step, if_pos hready]
      dsimp only
      generalize middle.link.poll = polled at hanswer
      obtain ⟨answer, link⟩ := polled
      cases answer with
      | pending => exact absurd rfl hanswer
      | value _ | violation _ | finished => rfl

/-- What the caller receives, one value after another, is taken in the session. -/
theorem receive_leadsTo (count : Nat) (received : Array Nat) :
    ∃ values ended after, session.job.pool.receive session.job.rules count received =
      (values, ended, after) ∧
      ended ≠ some .pending ∧ ∃ more, values.toList = received.toList ++ more ∧
        session.LeadsTo { session with job.pool := after, taken := session.taken ++ more } := by
  induction count generalizing session received with
  | zero =>
      refine ⟨received, none, session.job.pool, rfl, by simp, [], (List.append_nil _).symm, ?_⟩
      rw [List.append_nil]
      exact .refl session
  | succ count ih =>
      obtain ⟨answer, after, hawait, hanswer, hleads⟩ := await_leadsTo hregular hheld
      rw [Pool.receive, hawait]
      cases answer with
      | value value =>
          have hnext : session.note after (.value value) =
              { session with job.pool := after, taken := session.taken ++ [value] } := by
            simp only [note, hheld]
          rw [hnext] at hleads
          obtain ⟨values, ended, last, hreceive, hended, more, hvalues, hmore⟩ :=
            ih (hleads.regular hregular) hheld (received.push value)
          refine ⟨values, ended, last, hreceive, hended, value :: more, ?_, ?_⟩
          · rw [hvalues, Array.toList_push, List.append_assoc]
            rfl
          · rw [List.append_cons]
            exact hleads.trans hmore
      | pending => exact absurd rfl hanswer
      | violation fault =>
          refine ⟨received, _, after, rfl, by simp, [], (List.append_nil _).symm, ?_⟩
          rw [List.append_nil]
          simpa only [note, hheld] using hleads
      | finished =>
          refine ⟨received, _, after, rfl, by simp, [], (List.append_nil _).symm, ?_⟩
          rw [List.append_nil]
          exact hleads

/-- Finishing the job is finishing the session, and it gives its output. -/
theorem finish_leadsTo : ∃ last result, session.job.finish = some result ∧ session.LeadsTo last ∧
    last.taken = session.taken ∧ last.output? = some result := by
  have hopen := hregular.receiving hheld
  have hvalues : session.values = [] := by
    obtain ⟨ranges, history, htracks, -⟩ := hregular
    exact htracks.held hheld
  obtain ⟨middle, values, hserves, hended, hdrain⟩ := Pool.drain_serves hregular.pool_regular hopen #[]
  obtain ⟨-, hstays⟩ := hserves.regular hregular.pool_regular hopen
  have hbegin : session.LeadsTo { session with stage := .draining } :=
    .ofStep .finish (by rw [Session.step, if_pos hheld])
  have hdrained : session.LeadsTo
      { session with stage := .draining, job.pool := middle, values := values.toList } :=
    hbegin.trans (.ofServes rfl (by rw [hvalues]; exact hserves))
  have hfinished : session.LeadsTo { session with
      stage := .draining, job.pool := { middle with link.finished := true },
      values := values.toList } := by
    -- the end is taken by an event only if the drain had not ended before
    cases hlink : middle.link.finished with
    | true =>
        have hsame : { middle with link.finished := true } = middle := by rw [← hlink]
        rw [hsame]
        exact hdrained
    | false =>
        refine hdrained.trans (.ofStep .receive ?_)
        have hready : middle.link.channel.receiving = true ∧ ¬middle.link.finished = true :=
          ⟨hstays, by rw [hlink]; decide⟩
        rw [Session.step, if_neg (by decide : ¬Stage.draining = .settling), Pool.step,
          if_pos hready, hended]
        rfl
  have hleft : session.LeadsTo { session with
      stage := .settling
      job.pool := { middle with link := { middle.link with finished := true }.dropDrain }
      values := values.toList } := by
    refine hfinished.trans (.ofStep .leave ?_)
    rw [Session.step, if_pos ⟨rfl, rfl⟩, Pool.step, if_pos hstays]
    rfl
  obtain ⟨after, result, hleads, hresult, hsettle⟩ :=
    Pool.settle_leads (hleft.regular hregular).pool_regular rfl
  have hcollect : session.job.collect =
      (values.toList, .finished,
        { session.job with pool := { middle with link.finished := true } }) := by
    rw [Execution.collect_eq, hdrain]
  have hfinish : session.job.finish =
      some (do return ⟨values.toList, ← result, session.job.ranges⟩) := by
    rw [Execution.finish, hcollect]
    dsimp only
    rw [Execution.report_eq]
    dsimp only [Execution.dropDrain]
    rw [hsettle]
    rfl
  refine ⟨_, _, hfinish, hleft.trans (.ofLeads hleads), rfl, ?_⟩
  simp only [output?, hresult, hregular.violation]
  rfl

end Execution

end Session

namespace Pipeline

variable {pipeline : Pipeline} {job : Job} {execution : Execution}

theorem regular_ofExecution (hstart : pipeline.start job true = .ok execution) :
    (Session.ofExecution execution).Regular := by
  obtain ⟨hsound, -⟩ := Execution.sound_ofPool hstart
  rw [← Execution.rules_predicate hstart] at hsound
  exact ⟨_, _, Execution.tracks_ofExecution hstart, hsound⟩

/-- A job that was started comes to its end: `run` gives what one of the job's sessions gives in
which nothing was taken beforehand. -/
theorem run_eq_output? (hstart : pipeline.start job true = .ok execution) :
    ∃ events last result, (Session.ofExecution execution).follow events = some last ∧ last.taken = [] ∧
      last.output? = some result ∧ pipeline.run job = some result := by
  obtain ⟨last, result, hfinish, ⟨events, hevents⟩, htaken, houtput⟩ :=
    Session.finish_leadsTo (regular_ofExecution hstart) rfl
  refine ⟨events, last, result, hevents, htaken, houtput, ?_⟩
  rw [run, hstart]
  exact hfinish

/-- So does a job from which the caller first receives some values. -/
theorem finish_after_receive (hstart : pipeline.start job true = .ok execution) (count : Nat) :
    ∃ events last result, (Session.ofExecution execution).follow events = some last ∧
      last.taken = (execution.receive count).1 ∧ last.output? = some result ∧
        (execution.receive count).2.2.finish = some result := by
  have hregular := regular_ofExecution hstart
  obtain ⟨values, ended, after, hreceive, -, more, hvalues, hleads⟩ :=
    Session.receive_leadsTo hregular rfl count #[]
  obtain ⟨last, result, hfinish, hlast, htaken, houtput⟩ :=
    Session.finish_leadsTo (hleads.regular hregular) rfl
  obtain ⟨events, hevents⟩ := hleads.trans hlast
  have hreceived : execution.receive count =
      (values.toList, ended, { execution with pool := after }) := by
    rw [Execution.receive_eq]
    exact congrArg (fun received =>
      (received.1.toList, received.2.1, { execution with pool := received.2.2 })) hreceive
  rw [hreceived]
  exact ⟨events, last, result, hevents, htaken.trans hvalues.symm, houtput, hfinish⟩

end Pipeline

end ParallelFilter
