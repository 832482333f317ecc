import ParallelFilter.Proofs.Tiling
import ParallelFilter.Proofs.Tracking

/-! Sessions of started jobs. The drain is there until it has ended, so no worker ever finds it
gone, and what holds of all histories holds of every session that a start leads to. -/

namespace ParallelFilter

namespace Pool

/-- The drain is there, or it has ended, and no worker has found it gone. -/
structure Attended (pool : Pool) : Prop where
  drain : pool.link.channel.receiving = true ∨ pool.link.finished = true
  connected : ∀ worker ∈ pool.workers, worker.ending? ≠ some .disconnected

variable {rules : Rules} {pool after : Pool} {event : Event} {published : Option (Nat × Nat)}
  {answer : Option Polled}

theorem Attended.ofStart {ranges : List Span} {capacity : Nat} {link : ResultChannel} {token : Token}
    (hlink : ResultChannel.make capacity ranges.length = .ok link)
    (hstart : Pool.start ranges link token = .ok pool) : pool.Attended := by
  refine ⟨.inl ?_, fun worker hworker => ?_⟩
  · obtain ⟨-, -, rfl⟩ := ResultChannel.make_eq_ok.1 hlink
    obtain ⟨-, rfl⟩ := Pool.start_eq_ok.1 hstart
    rfl
  · obtain ⟨id, range, rfl⟩ := exists_ofRange_of_start hstart hworker
    exact nofun

/-- A drain that goes once it has ended leaves nobody behind. -/
theorem Attended.moves (h : pool.Attended) (hclosing : pool.Closing)
    (hdrop : event = .dropDrain → pool.link.finished = true)
    (hmoves : Moves rules pool event published answer after) : after.Attended := by
  cases hmoves with
  | work index kept hindex _ moved hmoves =>
      refine ⟨?_, forall_mem_set hindex h.connected fun hending => ?_⟩
      · rw [hmoves.drain_eq.1, hmoves.drain_eq.2]
        exact h.drain
      · rcases hmoves.ending_cases hending with hsame | ⟨-, hlost⟩
        · exact h.connected _ (Array.getElem_mem hindex) hsame
        · -- whoever can still send keeps the channel open, and then the drain has not ended
          obtain ⟨hclosed, hholds⟩ := hlost rfl
          have hsenders := hclosing.senders_pos hindex hholds
          rcases h.drain with hopen | hfinished
          · exact absurd (hopen.symm.trans hclosed) (by decide)
          · rw [hclosing.finished hfinished] at hsenders
            cases hsenders
  | join index hindex worker hjoin =>
      refine ⟨h.drain, forall_mem_set hindex h.connected ?_⟩
      rw [Worker.ending?_of_join? hjoin]
      exact h.connected _ (Array.getElem_mem hindex)
  | finish _ _ _ _ _ | violate _ _ _ _ _ => exact ⟨.inr rfl, h.connected⟩
  | dropDrain _ => exact ⟨.inr (hdrop rfl), h.connected⟩
  | register _ | sleep _ _ _ | wake _ _ _ | release _ _ _ | deliver _ _ _ _ _ | cancel _ _ =>
      exact ⟨h.drain, h.connected⟩

end Pool

open Pool (History)

namespace Execution

variable {pipeline : Pipeline} {job : Job} {execution : Execution}

theorem ranges_tiling (hstart : pipeline.start job true = .ok execution) :
    execution.ranges.length = job.workers ∧
      Tiling execution.ranges (pipeline.settings.strategy.covered job.total job.workers) := by
  obtain ⟨ranges, link, pool, hranges, -, -, rfl⟩ := Pipeline.start_eq_ok hstart
  exact partition_tiling hranges

theorem sound_ofPool (hstart : pipeline.start job true = .ok execution) :
    (History.ofPool execution.pool).Sound job.predicate execution.ranges ∧ execution.pool.Attended := by
  obtain ⟨ranges, link, pool, -, hlink, hpool, rfl⟩ := Pipeline.start_eq_ok hstart
  exact ⟨.ofStart hlink hpool, .ofStart hlink hpool⟩

theorem tracks_ofExecution (hstart : pipeline.start job true = .ok execution) :
    (Session.ofExecution execution).Tracks (.ofPool execution.pool) := by
  obtain ⟨ranges, link, pool, -, hlink, hpool, rfl⟩ := Pipeline.start_eq_ok hstart
  obtain ⟨-, -, rfl⟩ := ResultChannel.make_eq_ok.1 hlink
  obtain ⟨-, rfl⟩ := Pool.start_eq_ok.1 hpool
  exact .ofExecution rfl

theorem rules_predicate (hstart : pipeline.start job true = .ok execution) :
    execution.rules.predicate = job.predicate := by
  obtain ⟨ranges, link, pool, -, -, -, rfl⟩ := Pipeline.start_eq_ok hstart
  rfl

end Execution

/-- What is known of a session that a started job has come to: the history of its pool, with all
that holds of histories. -/
theorem Session.reached {pipeline : Pipeline} {job : Job} {execution : Execution} {events : List Event}
    {last : Session} (hstart : pipeline.start job true = .ok execution)
    (hrun : (ofExecution execution).follow events = some last) :
    ∃ history, (History.ofPool execution.pool).follow execution.rules (events.filterMap Event.move?) =
        some history ∧
      last.Tracks history ∧ history.Sound job.predicate execution.ranges ∧ history.pool.Attended ∧
        last.job.ranges = execution.ranges := by
  obtain ⟨hsound, hattended⟩ := Execution.sound_ofPool hstart
  rw [← Execution.rules_predicate hstart] at hsound ⊢
  obtain ⟨⟨-, hranges⟩, history, hfollow, htracks, hsound, hattended⟩ :=
    (Execution.tracks_ofExecution hstart).follow
      (P := fun history => history.Sound execution.rules.predicate execution.ranges ∧
        history.pool.Attended)
      ⟨hsound, hattended⟩
      (fun _ _ _ _ _ h hdrop hmoves => ⟨h.1.moves hmoves, h.2.moves h.1.closing hdrop hmoves⟩) hrun
  exact ⟨history, hfollow, htracks, hsound, hattended, hranges⟩

end ParallelFilter
