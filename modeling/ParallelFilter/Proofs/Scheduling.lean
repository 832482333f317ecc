import ParallelFilter.Pool.Schedule
import ParallelFilter.Proofs.Progress
import Mathlib.Logic.Relation

/-! The schedule of a single thread is one of the schedules: whatever it makes of a pool, a sequence of
moves makes of it too. And it does not give up early. A pass over workers and closer that brings nobody
forward finds all workers suspended on a full channel or gone. -/

namespace ParallelFilter

open Relation (ReflTransGen)

namespace Station

variable {rules : Rules} {station : Station}

theorem isBlocked_of_isActive (h : station.worker.isActive = true) : station.isBlocked = false := by
  unfold isBlocked
  unfold Worker.isActive at h
  split <;> rename_i hphase <;> simp only [hphase, Bool.false_eq_true] at h ⊢

theorem run_of_not_isActive (h : station.worker.isActive = false) : station.run rules = station := by
  rw [run, h]
  exact if_neg Bool.false_ne_true

/-- Nothing comes of resuming a worker that cannot move. -/
theorem resume_of_isBlocked (h : station.isBlocked = true) : station.resume rules = station := by
  obtain ⟨worker, link, token⟩ := station
  have hinactive : worker.isActive = false := by
    by_contra hactive
    rw [isBlocked_of_isActive (Bool.not_eq_false _ ▸ hactive)] at h
    cases h
  have hstep : step rules ⟨worker, link, token⟩ = ⟨worker, link, token⟩ := by
    unfold isBlocked at h
    split at h <;> rename_i hphase <;> dsimp only at hphase
    · simp only [Channel.isFull, Bool.and_eq_true, Bool.not_eq_true', decide_eq_true_eq] at h
      obtain ⟨hcalm, hopen, hfull⟩ := h
      simp only [step, hphase, hcalm, Bool.false_eq_true, if_false]
      exact send_of_full id hopen hfull
    · simp only [step, hphase]
    · simp only [step, hphase]
    · cases h
  rw [resume, hstep, run_of_not_isActive hinactive]

theorem isBlocked_of_isGone (h : station.worker.isGone = true) : station.isBlocked = true := by
  unfold Worker.isGone at h
  split at h
  · rename_i hphase
    simp only [isBlocked, hphase]
  · rename_i hphase
    simp only [isBlocked, hphase]
  · cases h

theorem work_run_le (rules : Rules) (station : Station) :
    (station.run rules).worker.work ≤ station.worker.work := by
  induction station using Station.run.induct rules with
  | case1 station hactive ih =>
      rw [run, if_pos hactive]
      exact Nat.le_of_lt (Nat.lt_of_le_of_lt ih (work_step_lt rules station hactive))
  | case2 station hinactive => rw [run, if_neg hinactive]

theorem work_resume_lt (h : station.isBlocked = false) :
    (station.resume rules).worker.work < station.worker.work :=
  Nat.lt_of_le_of_lt (work_run_le rules _) (step_moves station h).work_lt

end Station

namespace Waiter

/-- How many moves a waiter makes at most, but for those that a notification makes it repeat. -/
def rest : Waiter → Nat
  | .fresh => 2
  | .registered _ | .asleep _ => 1
  | .released => 0

theorem rest_poll_le (waiter : Waiter) (barrier : Barrier) :
    (waiter.poll barrier).rest ≤ waiter.rest := by
  cases waiter with
  | fresh => by_cases hcomplete : barrier.isComplete = true <;> simp [poll, step, hcomplete, rest]
  | registered seen | asleep seen =>
      by_cases hcomplete : barrier.isComplete = true <;> by_cases hsame :
        barrier.notifications = seen <;>
        simp [poll, step, hcomplete, hsame, rest]
  | released => exact Nat.le_refl _

theorem poll_of_isComplete {waiter : Waiter} {barrier : Barrier} (hcomplete : barrier.isComplete = true)
    (hfree : waiter.isParked barrier = false) : waiter.poll barrier = .released := by
  cases waiter with
  | fresh | registered seen => simp only [poll, step, hcomplete, if_true]
  | asleep seen =>
      have hwoken : barrier.notifications ≠ seen := by
        simpa only [isParked, beq_eq_false_iff_ne] using hfree
      simp only [poll, step, hcomplete, if_true, if_neg hwoken]
  | released => rfl

end Waiter

/-- Moves of one party after another, by `move`, with something that comes `last`. A party may find
that it has to stay `still`; otherwise less is `left` after its move. -/
structure Row (σ : Type) where
  kept : σ → Prop
  leads : σ → σ → Prop
  left : σ → Nat
  still : σ → Nat → Prop
  move : σ → Nat → σ
  last : σ → σ
  row : σ → Nat → Nat → σ
  trans : ∀ {first second third : σ}, leads first second → leads second third → leads first third
  zero : ∀ state index, row state index 0 = last state
  succ : ∀ state index count, row state index (count + 1) = row (move state index) (index + 1) count
  move_kept : ∀ {state : σ} (index : Nat), kept state → kept (move state index)
  move_cases : ∀ {state : σ} (index : Nat), kept state → move state index = state ∧ still state index ∨
    leads state (move state index) ∧ left (move state index) < left state
  last_leads : ∀ {state : σ}, kept state → leads state (last state) ∧ left (last state) ≤ left state

/-- A row in which not everyone stays still goes forward. -/
theorem Row.cases {σ : Type} (row : Row σ) {state : σ} (h : row.kept state) (index count : Nat) :
    row.row state index count = row.last state ∧
        (∀ other, index ≤ other → other < index + count → row.still state other) ∨
      row.leads state (row.row state index count) ∧
        row.left (row.row state index count) < row.left state := by
  induction count generalizing state index with
  | zero => exact .inl ⟨row.zero _ _, fun _ hle hlt => absurd hle (Nat.not_le.mpr hlt)⟩
  | succ count ih =>
      rw [row.succ]
      rcases row.move_cases index h with ⟨hsame, hstill⟩ | ⟨hleads, hlt⟩
      · rw [hsame]
        rcases ih h (index + 1) with ⟨hrest, hothers⟩ | hforward
        · refine .inl ⟨hrest, fun other hle hlt => ?_⟩
          rcases Nat.eq_or_lt_of_le hle with rfl | hle
          · exact hstill
          · exact hothers other hle (by omega)
        · exact .inr hforward
      · have hkept := row.move_kept index h
        rcases ih hkept (index + 1) with ⟨hrest, -⟩ | ⟨hmore, hless⟩
        · obtain ⟨hend, hle⟩ := row.last_leads hkept
          rw [hrest]
          exact .inr ⟨row.trans hleads hend, Nat.lt_of_le_of_lt hle hlt⟩
        · exact .inr ⟨row.trans hleads hmore, Nat.lt_trans hless hlt⟩

namespace Pool

variable {rules : Rules} {pool after : Pool} {index : Nat}

/-- The one pool leads to the other by moves in the background. -/
def Leads (rules : Rules) : Pool → Pool → Prop :=
  ReflTransGen fun before after =>
    ∃ event : Event, event.isBackground = true ∧ before.step rules event = some after

theorem Leads.ofStep (event : Event) (hevent : event.isBackground = true)
    (h : pool.step rules event = some after) : Leads rules pool after :=
  .single ⟨event, hevent, h⟩

/-- The pool with a worker and what it has made of its surroundings. -/
def put (pool : Pool) (index : Nat) (hindex : index < pool.workers.size) (station : Station) : Pool :=
  { pool with
    workers := pool.workers.set index station.worker
    link := station.link
    token := station.token }

section Put

variable (hindex : index < pool.workers.size) (station : Station)

theorem size_put : (pool.put index hindex station).workers.size = pool.workers.size :=
  Array.size_set hindex

theorem station_put (hput : index < (pool.put index hindex station).workers.size) :
    (pool.put index hindex station).station (pool.put index hindex station).workers[index] =
      station := by
  simp only [Pool.station, put, Array.getElem_set_self]

theorem put_put (next : Station) :
    (pool.put index hindex station).put index (by rwa [size_put]) next =
      pool.put index hindex next := by
  simp only [put, Array.set_set]

theorem put_station : pool.put index hindex (pool.station pool.workers[index]) = pool := by
  simp only [put, Pool.station, Array.set_getElem_self]

theorem step_work (rules : Rules) (hfree : (pool.station pool.workers[index]).isBlocked = false) :
    pool.step rules (.work index) =
      some (pool.put index hindex ((pool.station pool.workers[index]).step rules)) := by
  simp only [step, dif_pos hindex, hfree]
  rfl

end Put

theorem leads_run (hindex : index < pool.workers.size) :
    Leads rules pool (pool.put index hindex ((pool.station pool.workers[index]).run rules)) := by
  generalize hstation : pool.station pool.workers[index] = station
  induction station using Station.run.induct rules generalizing pool with
  | case1 station hactive ih =>
      rw [Station.run, if_pos hactive]
      have hfree : (pool.station pool.workers[index]).isBlocked = false := by
        rw [hstation]
        exact Station.isBlocked_of_isActive hactive
      have hmove := step_work hindex rules hfree
      rw [hstation] at hmove
      have hrest := ih (by rwa [size_put]) (station_put hindex _ _)
      rw [put_put] at hrest
      exact (Leads.ofStep (.work index) rfl hmove).trans hrest
  | case2 station hinactive =>
      rw [Station.run, if_neg hinactive, ← hstation, put_station]
      exact .refl

theorem work_eq (pool : Pool) : pool.work = pool.labour + pool.closer.rest := by
  have hsum (workers : List Worker) (total : Nat) :
      workers.foldl (fun total worker => total + worker.work) total =
        total + (workers.map Worker.work).sum := by
    induction workers generalizing total with
    | nil => rfl
    | cons worker workers ih =>
        rw [List.foldl_cons, ih, List.map_cons, List.sum_cons, Nat.add_assoc]
  rw [work, ← Array.foldl_toList, hsum, Nat.zero_add]
  rfl

theorem work_put_lt (hindex : index < pool.workers.size) {station : Station}
    (hlt : station.worker.work < pool.workers[index].work) :
    (pool.put index hindex station).work < pool.work := by
  have hlabour := sum_map_set Worker.work hindex station.worker
  rw [work_eq, work_eq, labour, labour, put]
  dsimp only
  omega

theorem leads_resume (hindex : index < pool.workers.size)
    (hfree : (pool.station pool.workers[index]).isBlocked = false) :
    Leads rules pool (pool.put index hindex ((pool.station pool.workers[index]).resume rules)) := by
  have hrest : Leads rules (pool.put index hindex ((pool.station pool.workers[index]).step rules)) _ :=
    leads_run (by rwa [size_put])
  rw [station_put, put_put] at hrest
  exact (Leads.ofStep (.work index) rfl (step_work hindex rules hfree)).trans hrest

theorem resumeWorker_of_isBlocked (hindex : index < pool.workers.size)
    (hblocked : (pool.station pool.workers[index]).isBlocked = true) :
    pool.resumeWorker rules index = pool := by
  obtain ⟨workers, link, token, closer, outcomes⟩ := pool
  simp only [resumeWorker, dif_pos hindex]
  split
  · rfl
  · have hsame : Station.resume rules ⟨workers[index], link, token⟩ = ⟨workers[index], link, token⟩ :=
      Station.resume_of_isBlocked hblocked
    rw [hsame]
    simp only [Array.set_getElem_self]

theorem resumeWorker_of_free (hindex : index < pool.workers.size)
    (hfree : (pool.station pool.workers[index]).isBlocked = false) : pool.resumeWorker rules index =
      pool.put index hindex ((pool.station pool.workers[index]).resume rules) := by
  obtain ⟨workers, link, token, closer, outcomes⟩ := pool
  have hstays : ¬workers[index].isGone = true := by
    intro hgone
    rw [Station.isBlocked_of_isGone hgone] at hfree
    cases hfree
  simp only [resumeWorker, dif_pos hindex, if_neg hstays]
  rfl

/-- Nothing comes of resuming a worker that cannot move, or that is not there. -/
theorem resumeWorker_eq_self (rules : Rules)
    (hblocked : ∀ hindex : index < pool.workers.size, (pool.station pool.workers[index]).isBlocked =
      true) :
    pool.resumeWorker rules index = pool := by
  by_cases hindex : index < pool.workers.size
  · exact resumeWorker_of_isBlocked hindex (hblocked hindex)
  · simp only [resumeWorker, dif_neg hindex]

/-- Resuming a worker brings it nearer to its end, if it can move at all. -/
theorem resumeWorker_cases (rules : Rules) (pool : Pool) (index : Nat) :
    pool.resumeWorker rules index = pool ∧
        (∀ hindex : index < pool.workers.size, (pool.station pool.workers[index]).isBlocked = true) ∨
      Leads rules pool (pool.resumeWorker rules index) ∧
        (pool.resumeWorker rules index).work < pool.work := by
  by_cases hindex : index < pool.workers.size
  · cases hblocked : (pool.station pool.workers[index]).isBlocked with
    | true => exact .inl ⟨resumeWorker_of_isBlocked hindex hblocked, fun _ => hblocked⟩
    | false =>
        rw [resumeWorker_of_free hindex hblocked]
        exact .inr ⟨leads_resume hindex hblocked, work_put_lt hindex (Station.work_resume_lt hblocked)⟩
  · have hblocked (h : index < pool.workers.size) :
        (pool.station pool.workers[index]).isBlocked = true :=
      absurd h hindex
    exact .inl ⟨resumeWorker_eq_self rules hblocked, hblocked⟩

theorem leads_resumeWorker (rules : Rules) (pool : Pool) (index : Nat) :
    Leads rules pool (pool.resumeWorker rules index) := by
  rcases resumeWorker_cases rules pool index with ⟨hsame, -⟩ | ⟨hleads, -⟩
  · rw [hsame]
    exact .refl
  · exact hleads

theorem moveCloser_eq (pool : Pool) : pool.moveCloser.workers = pool.workers ∧
    pool.moveCloser.closer = pool.closer.step pool.link.barrier ∧
      pool.moveCloser.link.barrier = pool.link.barrier := by
  obtain ⟨workers, link, token, closer, outcomes⟩ := pool
  cases closer with
  | released => exact ⟨rfl, rfl, rfl⟩
  | fresh | registered seen | asleep seen =>
      unfold moveCloser
      dsimp only
      split
      · rename_i hstep
        exact ⟨rfl, hstep.symm, rfl⟩
      · exact ⟨rfl, rfl, rfl⟩

/-- A closer that cannot move stays as it is. -/
theorem moveCloser_of_still
    (hstill : pool.closer = .released ∨ pool.closer.isParked pool.link.barrier = true) :
    pool.moveCloser = pool := by
  obtain ⟨workers, link, token, closer, outcomes⟩ := pool
  rcases hstill with rfl | hparked
  · rfl
  · cases closer with
    | asleep seen =>
        have hsame : link.barrier.notifications = seen := beq_iff_eq.1 hparked
        simp only [moveCloser, Waiter.step, if_pos hsame]
    | fresh | registered _ | released => cases hparked

theorem leads_moveCloser (rules : Rules) (pool : Pool) : Leads rules pool pool.moveCloser := by
  by_cases hstill : pool.closer = .released ∨ pool.closer.isParked pool.link.barrier = true
  · rw [moveCloser_of_still hstill]
    exact .refl
  · exact .ofStep .close rfl (by rw [step, if_neg hstill])

theorem leads_resumeCloser (rules : Rules) (pool : Pool) : Leads rules pool pool.resumeCloser :=
  ((leads_moveCloser rules _).trans (leads_moveCloser rules _)).trans (leads_moveCloser rules _)

theorem resumeCloser_eq (pool : Pool) : pool.resumeCloser.workers = pool.workers ∧
    pool.resumeCloser.closer = pool.closer.poll pool.link.barrier := by
  obtain ⟨hworkers₁, hcloser₁, hbarrier₁⟩ := pool.moveCloser_eq
  obtain ⟨hworkers₂, hcloser₂, hbarrier₂⟩ := pool.moveCloser.moveCloser_eq
  obtain ⟨hworkers₃, hcloser₃, -⟩ := pool.moveCloser.moveCloser.moveCloser_eq
  refine ⟨hworkers₃.trans (hworkers₂.trans hworkers₁), ?_⟩
  rw [resumeCloser, hcloser₃, hcloser₂, hbarrier₂, hcloser₁, hbarrier₁]
  rfl

theorem work_resumeCloser_le (pool : Pool) : pool.resumeCloser.work ≤ pool.work := by
  obtain ⟨hworkers, hcloser⟩ := pool.resumeCloser_eq
  rw [work_eq, work_eq, labour, labour, hworkers, hcloser]
  exact Nat.add_le_add_left (Waiter.rest_poll_le _ _) _

def resumptions (rules : Rules) : Row Pool where
  kept _ := True
  leads := Leads rules
  left := work
  still pool index :=
    ∀ hindex : index < pool.workers.size, (pool.station pool.workers[index]).isBlocked = true
  move := resumeWorker rules
  last := resumeCloser
  row := resumeFrom rules
  trans := ReflTransGen.trans
  zero _ _ := rfl
  succ _ _ _ := rfl
  move_kept _ _ := trivial
  move_cases index _ := resumeWorker_cases rules _ index
  last_leads _ := ⟨leads_resumeCloser rules _, work_resumeCloser_le _⟩

/-- If a pass brings nobody nearer to the end, no worker could move. -/
theorem pass_cases (rules : Rules) (pool : Pool) :
    pool.pass rules = pool.resumeCloser ∧
        (∀ worker ∈ pool.workers, (pool.station worker).isBlocked = true) ∨
      Leads rules pool (pool.pass rules) ∧ (pool.pass rules).work < pool.work := by
  have hrow : (resumptions rules).kept pool := trivial
  rcases (resumptions rules).cases hrow 0 pool.workers.size with ⟨hsame, hblocked⟩ | hforward
  · refine .inl ⟨hsame, fun worker hworker => ?_⟩
    obtain ⟨index, hindex, rfl⟩ := Array.mem_iff_getElem.1 hworker
    exact hblocked index (Nat.zero_le _) (by omega) hindex
  · exact .inr hforward

theorem leads_pass (rules : Rules) (pool : Pool) : Leads rules pool (pool.pass rules) := by
  rcases pool.pass_cases rules with ⟨hsame, -⟩ | ⟨hleads, -⟩
  · rw [hsame]
    exact leads_resumeCloser rules pool
  · exact hleads

theorem joinWorker_cases (rules : Rules) (pool : Pool) (index : Nat) :
    pool.joinWorker index = pool ∧
        (∀ hindex : index < pool.workers.size, pool.workers[index].join? = none) ∨
      Leads rules pool (pool.joinWorker index) ∧ (pool.joinWorker index).work < pool.work := by
  by_cases hindex : index < pool.workers.size
  · cases hjoin : pool.workers[index].join? with
    | none =>
        obtain ⟨workers, link, token, closer, outcomes⟩ := pool
        refine .inl ⟨?_, fun _ => hjoin⟩
        simp only [joinWorker, dif_pos hindex, hjoin]
    | some joined =>
        obtain ⟨outcome, worker⟩ := joined
        have hmove : pool.step rules (.join index) = some (pool.joinWorker index) := by
          rw [step, if_pos]
          rw [Array.getElem?_eq_getElem hindex, Option.bind_some, hjoin]
          rfl
        have hlt : worker.work < pool.workers[index].work := by
          obtain ⟨ending, hphase, rfl, -⟩ := Worker.join?_eq_some hjoin
          simp only [Worker.work, hphase]
          decide
        have hput : (pool.joinWorker index).work =
            (pool.put index hindex ⟨worker, pool.link, pool.token⟩).work := by
          obtain ⟨workers, link, token, closer, outcomes⟩ := pool
          simp only [joinWorker, dif_pos hindex, hjoin]
          rfl
        rw [hput]
        exact .inr ⟨.ofStep (.join index) rfl hmove, work_put_lt hindex hlt⟩
  · obtain ⟨workers, link, token, closer, outcomes⟩ := pool
    refine .inl ⟨?_, fun h => absurd h hindex⟩
    simp only [joinWorker, dif_neg hindex]

def joinings (rules : Rules) : Row Pool where
  kept _ := True
  leads := Leads rules
  left := work
  still pool index := ∀ hindex : index < pool.workers.size, pool.workers[index].join? = none
  move := joinWorker
  last := id
  row := joinFrom
  trans := ReflTransGen.trans
  zero _ _ := rfl
  succ _ _ _ := rfl
  move_kept _ _ := trivial
  move_cases index _ := joinWorker_cases rules _ index
  last_leads _ := ⟨.refl, Nat.le_refl _⟩

end Pool

end ParallelFilter
