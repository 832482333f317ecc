import ParallelFilter.Proofs.Resumption

/-! How soon a worker gives way. How often it may still call the predicate before that is settled by
how many values it has evaluated: each call lowers it, and nothing else does anything to it, so a
wait for room does not begin the count anew. The moves that are left to a worker until it is
suspended or gone fall in the same way. So a worker that is resumed makes so many calls and so many
moves at most, whatever the other workers, the drain and whoever cancels do in between. -/

namespace ParallelFilter

/-- How many more calls a worker makes at most, after it has evaluated so many values, before it
gives way. -/
def Rules.callsLeft (rules : Rules) (evaluated : Nat) : Nat :=
  if evaluated % rules.yieldInterval = 0 then 0
    else rules.yieldInterval - evaluated % rules.yieldInterval

theorem Rules.callsLeft_lt (rules : Rules) (evaluated : Nat) :
    rules.callsLeft evaluated < rules.yieldInterval := by
  have hpos := rules.yieldInterval_pos
  unfold callsLeft
  split
  · exact hpos
  · omega

/-- Where a worker does not give way, the next call is one of those that were left. -/
theorem Rules.callsLeft_succ {rules : Rules} {evaluated : Nat}
    (h : evaluated % rules.yieldInterval ≠ 0) :
    rules.callsLeft (evaluated + 1) + 1 = rules.callsLeft evaluated := by
  have hlt := Nat.mod_lt evaluated rules.yieldInterval_pos
  have hmod : (evaluated + 1) % rules.yieldInterval =
      (evaluated % rules.yieldInterval + 1) % rules.yieldInterval := (Nat.mod_add_mod _ _ _).symm
  rw [callsLeft, callsLeft, if_neg h]
  rcases Nat.eq_or_lt_of_le (Nat.succ_le_of_lt hlt) with hend | hmore
  · rw [if_pos (by rw [hmod, ← Nat.succ_eq_add_one, hend, Nat.mod_self])]
    omega
  · rw [hmod, Nat.mod_eq_of_lt hmore, if_neg (Nat.succ_ne_zero _)]
    omega

namespace Worker

/-- Whether the worker is suspended to give way. -/
def givesWay (worker : Worker) : Bool :=
  match worker.phase with
  | .yielding => true
  | _ => false

/-- One move of a worker: what it called the predicate on, and the worker after that. -/
structure Stride where
  call : Option Nat
  after : Worker
  deriving DecidableEq

/-- What is noted of a move that leads from the one worker to the other. -/
def stride (before after : Worker) : Stride :=
  ⟨before.calls?, after⟩

/-- How often the worker may call the predicate until it gives way. -/
def allowance (rules : Rules) (worker : Worker) : Nat :=
  match worker.phase with
  | .ready | .evaluating | .yielding => rules.callsLeft (worker.evaluated + 1) + 1
  | .offering _ | .waiting _ => rules.callsLeft worker.evaluated
  | .stopped _ _ => 0

/-- How many moves the worker may make until it is suspended or gone. -/
def leash (rules : Rules) (worker : Worker) : Nat :=
  match worker.phase with
  | .ready => 3 * rules.callsLeft (worker.evaluated + 1) + 6
  | .evaluating => 3 * rules.callsLeft (worker.evaluated + 1) + 5
  | .offering _ | .waiting _ => 3 * rules.callsLeft worker.evaluated + 4
  | .yielding => 3 * rules.callsLeft (worker.evaluated + 1) + 7
  | .stopped _ .sender => 3
  | .stopped _ .ticket => 2
  | .stopped _ .alarm => 1
  | .stopped _ .outcome | .stopped _ .nothing => 0

variable (rules : Rules) {worker next : Worker}

theorem allowance_le (worker : Worker) : worker.allowance rules ≤ rules.yieldInterval := by
  have hafter := rules.callsLeft_lt worker.evaluated
  have hnext := rules.callsLeft_lt (worker.evaluated + 1)
  unfold allowance
  split <;> omega

theorem leash_le (worker : Worker) : worker.leash rules ≤ 3 * rules.yieldInterval + 4 := by
  have hafter := rules.callsLeft_lt worker.evaluated
  have hnext := rules.callsLeft_lt (worker.evaluated + 1)
  unfold leash
  split <;> omega

theorem givesWay_of_not_isSuspended (h : worker.isSuspended = false) : worker.givesWay = false := by
  unfold isSuspended at h
  unfold givesWay
  split
  · rename_i hphase
    simp only [hphase, Bool.true_eq_false] at h
  · rfl

/-- A worker that goes on by itself is not suspended. -/
theorem isSuspended_of_isActive (h : worker.isActive = true) : worker.isSuspended = false := by
  unfold isActive at h
  unfold isSuspended
  split <;> rename_i hphase <;> simp only [hphase, Bool.false_eq_true] at h ⊢

theorem allowance_of_evaluating (h : worker.phase = .evaluating) :
    worker.allowance rules = rules.callsLeft (worker.evaluated + 1) + 1 := by
  simp only [allowance, h]

theorem allowance_of_inHand? {value : Nat} (h : worker.inHand? = some value) :
    worker.allowance rules = rules.callsLeft worker.evaluated := by
  rcases phase_of_inHand? h with hphase | hphase <;> simp only [allowance, hphase]

theorem leash_of_inHand? {value : Nat} (h : worker.inHand? = some value) :
    worker.leash rules = 3 * rules.callsLeft worker.evaluated + 4 := by
  rcases phase_of_inHand? h with hphase | hphase <;> simp only [leash, hphase]

/-- A worker that was joined may do nothing, as before. -/
theorem allowance_of_join? {outcome : WorkerOutcome} (h : worker.join? = some (outcome, next)) :
    next.allowance rules = worker.allowance rules := by
  obtain ⟨ending, hphase, rfl, -⟩ := join?_eq_some h
  simp only [allowance, hphase]

theorem leash_of_join? {outcome : WorkerOutcome} (h : worker.join? = some (outcome, next)) :
    next.leash rules = worker.leash rules := by
  obtain ⟨ending, hphase, rfl, -⟩ := join?_eq_some h
  simp only [leash, hphase]

end Worker

namespace Station

variable {rules : Rules}

/-- Where a worker does not give way after a value it has as many calls left as it had. -/
theorem allowance_afterValue (rules : Rules) (worker : Worker) (evaluated accepted : Nat) :
    (if ({ worker with evaluated, accepted, phase := afterValue rules evaluated } :
      Worker).givesWay then 0
      else ({ worker with evaluated, accepted, phase := afterValue rules evaluated } :
        Worker).allowance rules) ≤
      rules.callsLeft evaluated := by
  by_cases hdue : evaluated % rules.yieldInterval = 0
  · rw [afterValue, if_pos hdue]
    exact Nat.zero_le _
  · rw [afterValue, if_neg hdue]
    exact Nat.le_of_eq (Rules.callsLeft_succ hdue)

theorem leash_afterValue (rules : Rules) (worker : Worker) (evaluated accepted : Nat) :
    (if ({ worker with evaluated, accepted, phase := afterValue rules evaluated } :
      Worker).isSuspended then 0
      else ({ worker with evaluated, accepted, phase := afterValue rules evaluated } :
        Worker).leash rules) ≤
      3 * rules.callsLeft evaluated + 3 := by
  by_cases hdue : evaluated % rules.yieldInterval = 0
  · rw [afterValue, if_pos hdue]
    exact Nat.zero_le _
  · rw [afterValue, if_neg hdue, ← Rules.callsLeft_succ hdue]
    exact Nat.le_refl _

namespace Moves

variable {kept : Nat} {before after : Station} {sent : Option Nat}

/-- Each call is one of those that were allowed, and no move but one that gives way allows more. -/
theorem allowance (h : Moves rules kept before sent after) :
    before.worker.calls?.toList.length +
        (if after.worker.givesWay then 0 else after.worker.allowance rules) ≤
      before.worker.allowance rules := by
  cases h with
  | @reject worker _ _ _ hphase _ =>
      have hleft := allowance_afterValue rules worker (worker.evaluated + 1) worker.accepted
      rw [Worker.calls?_of_evaluating hphase, Worker.allowance_of_evaluating rules hphase, Nat.add_comm]
      exact Nat.add_le_add_right hleft 1
  | accept _ hphase _ =>
      rw [Worker.calls?_of_evaluating hphase, Worker.allowance_of_evaluating rules hphase, Nat.add_comm]
      exact Nat.le_refl _
  | @send worker _ _ value hhand _ _ _ =>
      rw [Worker.calls?_of_inHand? hhand, Worker.allowance_of_inHand? rules hhand, Option.toList_none,
        List.length_nil, Nat.zero_add]
      exact allowance_afterValue rules worker worker.evaluated (worker.accepted + 1)
  | disconnect _ hhand _ _ | giveUp _ hhand _ _ =>
      rw [Worker.calls?_of_inHand? hhand]
      exact Nat.zero_le _
  | fail _ hphase _ | panic _ hphase _ =>
      rw [Worker.calls?_of_evaluating hphase, Worker.allowance_of_evaluating rules hphase]
      exact Nat.succ_le_succ (Nat.zero_le _)
  | enter hphase _ _ | complete hphase _ | quit hphase _ _ | suspend _ hphase _ _ _ | goOn hphase
  | dropSender _ hphase | dropTicket _ hphase | alarm _ hphase =>
      simp only [Worker.calls?, Worker.allowance, Worker.givesWay, hphase, Option.toList_none,
        List.length_nil, Nat.zero_add, Bool.false_eq_true, if_false, Nat.le_refl, Nat.zero_le]

/-- The worker comes nearer to its suspension or its end with each move. -/
theorem leash (h : Moves rules kept before sent after) :
    1 + (if after.worker.isSuspended then 0 else after.worker.leash rules) ≤
      before.worker.leash rules := by
  cases h with
  | @reject worker _ _ _ hphase _ =>
      have hleft := leash_afterValue rules worker (worker.evaluated + 1) worker.accepted
      dsimp only at hleft ⊢
      simp only [Worker.leash, hphase] at hleft ⊢
      omega
  | @send worker _ _ value hhand _ _ _ =>
      have hleft := leash_afterValue rules worker worker.evaluated (worker.accepted + 1)
      rw [Worker.leash_of_inHand? rules hhand]
      dsimp only at hleft ⊢
      omega
  | disconnect _ hhand _ _ | giveUp _ hhand _ _ =>
      rw [Worker.leash_of_inHand? rules hhand, Nat.add_comm]
      exact Nat.le_add_left 4 _
  | dropTicket ending hphase =>
      rcases afterTicket_cases rules ending with h | h <;>
        simp only [Worker.leash, Worker.isSuspended, hphase, h, Bool.false_eq_true, if_false] <;> decide
  | enter hphase _ _ | complete hphase _ | quit hphase _ _ | fail _ hphase _ | panic _ hphase _
  | accept _ hphase _
  | suspend _ hphase _ _ _ | goOn hphase | dropSender _ hphase | alarm _ hphase =>
      simp only [Worker.leash, Worker.isSuspended, hphase, Bool.false_eq_true, if_false, if_true]
      omega

end Moves

end Station

/-- What the moves of a worker cost, until one of them ends the stretch, and how much is left for
them. -/
structure Budget (rules : Rules) where
  cost : Worker.Stride → Nat
  ends : Worker → Bool
  left : Worker → Nat
  move : ∀ {kept : Nat} {before after : Station} {sent : Option Nat},
    Station.Moves rules kept before sent after →
    cost (before.worker.stride after.worker) + (if ends after.worker then 0 else left after.worker) ≤
      left before.worker
  join : ∀ {worker next : Worker} {outcome : WorkerOutcome}, worker.join? = some (outcome, next) →
    left next = left worker

namespace Budget

/-- The calls of the predicate, until the worker gives way. -/
def calls (rules : Rules) : Budget rules where
  cost stride := stride.call.toList.length
  ends := Worker.givesWay
  left := Worker.allowance rules
  move := Station.Moves.allowance
  join := Worker.allowance_of_join? rules

/-- The moves, until the worker is suspended. -/
def moves (rules : Rules) : Budget rules where
  cost _ := 1
  ends := Worker.isSuspended
  left := Worker.leash rules
  move := Station.Moves.leash
  join := Worker.leash_of_join? rules

/-- No move of the stretch but the last ends it. -/
def Covers {rules : Rules} (budget : Budget rules) (strides : List Worker.Stride) : Prop :=
  ∀ stride ∈ strides.dropLast, budget.ends stride.after = false

theorem covers_cons {rules : Rules} {budget : Budget rules} {stride : Worker.Stride}
    {strides : List Worker.Stride} :
    budget.Covers (stride :: strides) ↔
      (strides ≠ [] → budget.ends stride.after = false) ∧ budget.Covers strides := by
  cases strides with
  | nil =>
      exact ⟨fun _ => ⟨fun hnil => absurd rfl hnil, List.forall_mem_nil _⟩, fun _ =>
        List.forall_mem_nil _⟩
  | cons next strides =>
      rw [Covers, List.dropLast_cons_cons, List.forall_mem_cons, forall_prop_of_true
        (List.cons_ne_nil _ _)]
      rfl

end Budget

namespace Pool

/-- What is noted of the event, if it is a move of the worker. -/
def stride? (before after : Pool) (index : Nat) (event : Event) : Option Worker.Stride :=
  if event.worker? = some index then
    before.workers[index]?.bind fun worker => after.workers[index]?.map worker.stride
  else none

/-- The moves of one worker while the events happen, oldest first, as long as they can happen. -/
def strides (rules : Rules) (index : Nat) (pool : Pool) : List Event → List Worker.Stride
  | [] => []
  | event :: events =>
    match pool.step rules event with
    | none => []
    | some next => (pool.stride? next index event).toList ++ strides rules index next events

section Strides

variable {rules : Rules} {pool next : Pool} {index : Nat} {event : Event} {events : List Event}
  {worker : Worker}

theorem strides_cons (hstep : pool.step rules event = some next) :
    pool.strides rules index (event :: events) =
      (pool.stride? next index event).toList ++ next.strides rules index events := by
  rw [strides, hstep]

theorem strides_cons_self {moved : Worker} (hstep : pool.step rules event = some next)
    (hevent : event.worker? = some index) (hworker : pool.workers[index]? = some worker)
    (hmoved : next.workers[index]? = some moved) :
    pool.strides rules index (event :: events) = worker.stride moved ::
      next.strides rules index events := by
  rw [strides_cons hstep, stride?, if_pos hevent, hworker, Option.bind_some, hmoved]
  rfl

theorem strides_cons_other (hstep : pool.step rules event = some next)
    (hevent : event.worker? ≠ some index) :
    pool.strides rules index (event :: events) = next.strides rules index events := by
  rw [strides_cons hstep, stride?, if_neg hevent]
  rfl

/-- In a stretch that the budget covers a worker spends no more than was left to it. -/
theorem sum_cost_le (budget : Budget rules) (hworker : pool.workers[index]? = some worker)
    (hcovers : budget.Covers (pool.strides rules index events)) :
    ((pool.strides rules index events).map budget.cost).sum ≤ budget.left worker := by
  induction events generalizing pool worker with
  | nil => exact Nat.zero_le _
  | cons event events ih =>
      cases hstep : pool.step rules event with
      | none =>
          rw [strides, hstep]
          exact Nat.zero_le _
      | some next =>
          rcases (step_moves hstep).worker_cases hworker with
            ⟨hevent, kept, sent, moved, -, hmoves, hmoved⟩ | ⟨hevent, same, hsame, hkept⟩
          · have hbudget := budget.move hmoves
            rw [strides_cons_self hstep hevent hworker hmoved] at hcovers ⊢
            obtain ⟨hgoesOn, hcovers⟩ := Budget.covers_cons.1 hcovers
            have hrest := ih hmoved hcovers
            rw [List.map_cons, List.sum_cons]
            refine Nat.le_trans (Nat.add_le_add_left ?_ _) hbudget
            by_cases hnil : next.strides rules index events = []
            · rw [hnil]
              exact Nat.zero_le _
            · have hon : budget.ends moved.worker = false := hgoesOn hnil
              rw [hon, if_neg Bool.false_ne_true]
              exact hrest
          · rw [strides_cons_other hstep hevent] at hcovers ⊢
            have hleft : budget.left same = budget.left worker := by
              rcases hkept with rfl | ⟨outcome, hjoin⟩
              · rfl
              · exact budget.join hjoin
            exact hleft ▸ ih hsame hcovers

/-- So many moves of one worker, with nothing between them, lead from the one pool to the other, and
none but the last leaves it suspended. -/
structure Resumption (rules : Rules) (index count : Nat) (pool last : Pool) : Prop where
  run : (List.replicate count (.work index)).foldlM (step rules) pool = some last
  length : (pool.strides rules index (.replicate count (.work index))).length = count
  covers : (Budget.moves rules).Covers (pool.strides rules index (.replicate count (.work index)))

theorem Resumption.refl (rules : Rules) (index : Nat) (pool : Pool) :
    Resumption rules index 0 pool pool :=
  ⟨rfl, rfl, List.forall_mem_nil _⟩

theorem Resumption.cons {count : Nat} {last : Pool} {moved : Worker}
    (h : Resumption rules index count next last) (hstep : pool.step rules (.work index) = some next)
    (hworker : pool.workers[index]? = some worker) (hmoved : next.workers[index]? = some moved)
    (hgoesOn : count ≠ 0 → moved.isActive = true) :
    Resumption rules index (count + 1) pool last := by
  have hstrides : pool.strides rules index (.work index :: .replicate count (.work index)) =
      worker.stride moved :: next.strides rules index (.replicate count (.work index)) :=
    strides_cons_self hstep rfl hworker hmoved
  refine ⟨foldlM_cons_eq_some.2 ⟨next, hstep, h.run⟩, ?_, ?_⟩
  · rw [List.replicate_succ, hstrides, List.length_cons, h.length]
  · rw [List.replicate_succ, hstrides, Budget.covers_cons]
    refine ⟨fun hmore => Worker.isSuspended_of_isActive (hgoesOn fun hzero => hmore ?_), h.covers⟩
    rw [hzero]
    rfl

theorem exists_resumption_run (rules : Rules) (hindex : index < pool.workers.size) : ∃ count,
    ((pool.station pool.workers[index]).worker.isActive = false → count = 0) ∧
      Resumption rules index count pool
        (pool.put index hindex ((pool.station pool.workers[index]).run rules)) := by
  generalize hstation : pool.station pool.workers[index] = station
  induction station using Station.run.induct rules generalizing pool with
  | case1 station hactive ih =>
      have hmove := step_work hindex rules (hstation ▸ Station.isBlocked_of_isActive hactive)
      rw [hstation] at hmove
      have hput : index < (pool.put index hindex (station.step rules)).workers.size := by rwa [size_put]
      obtain ⟨count, hstops, hrest⟩ := ih hput (station_put hindex _ hput)
      rw [put_put] at hrest
      rw [Station.run_of_isActive hactive]
      refine ⟨count + 1, fun hinactive => ?_, hrest.cons hmove (Array.getElem?_eq_getElem hindex)
        (Array.getElem?_set_self hindex) fun hmore => ?_⟩
      · rw [hactive] at hinactive
        cases hinactive
      · exact Bool.eq_true_of_not_eq_false fun hinactive => hmore (hstops hinactive)
  | case2 station hinactive =>
      refine ⟨0, fun _ => rfl, ?_⟩
      rw [Station.run, if_neg hinactive, ← hstation, put_station]
      exact .refl rules index pool

/-- A worker is resumed by so many moves of its own, unless it cannot move. -/
theorem exists_resumption (rules : Rules) (pool : Pool) (index : Nat) :
    ∃ count, Resumption rules index count pool (pool.resumeWorker rules index) := by
  by_cases hfree : ∃ hindex : index < pool.workers.size,
    (pool.station pool.workers[index]).isBlocked = false
  · obtain ⟨hindex, hfree⟩ := hfree
    have hput : index <
        (pool.put index hindex ((pool.station pool.workers[index]).step rules)).workers.size := by
      rwa [size_put]
    obtain ⟨count, hstops, hrest⟩ := exists_resumption_run rules hput
    rw [station_put, put_put] at hrest
    rw [resumeWorker_of_free hindex hfree]
    refine ⟨count + 1, hrest.cons (step_work hindex rules hfree) (Array.getElem?_eq_getElem hindex)
      (Array.getElem?_set_self hindex) fun hmore => ?_⟩
    rw [station_put] at hstops
    exact Bool.eq_true_of_not_eq_false fun hinactive => hmore (hstops hinactive)
  · have hblocked (hindex : index < pool.workers.size) :
        (pool.station pool.workers[index]).isBlocked = true :=
      Bool.eq_true_of_not_eq_false fun hother => hfree ⟨hindex, hother⟩
    rw [resumeWorker_eq_self rules hblocked]
    exact ⟨0, .refl rules index pool⟩

end Strides

/-- How much a worker does before it lets go of its thread, where it gives way after so many
evaluations. -/
structure Moderate (interval : Nat) (strides : List Worker.Stride) : Prop where
  /-- Between two moments at which it gives way, or before the first; waits for room in between
  count for nothing. -/
  calls : (∀ stride ∈ strides.dropLast, stride.after.givesWay = false) →
    (strides.filterMap Worker.Stride.call).length ≤ interval
  /-- Between two moments at which it is suspended in either way, or before the first. -/
  moves : (∀ stride ∈ strides.dropLast, stride.after.isSuspended = false) →
    (strides.filterMap Worker.Stride.call).length ≤ interval ∧ strides.length ≤ 3 * interval + 4

variable {pool : Pool} {index : Nat} {worker : Worker}

theorem moderate_strides (rules : Rules) (hworker : pool.workers[index]? = some worker)
    (events : List Event) :
    Moderate rules.yieldInterval (pool.strides rules index events) := by
  have hcalls (hcovers : (Budget.calls rules).Covers (pool.strides rules index events)) :
      ((pool.strides rules index events).filterMap Worker.Stride.call).length ≤
        rules.yieldInterval := by
    rw [List.filterMap_eq_flatMap_toList, List.length_flatMap]
    exact Nat.le_trans (sum_cost_le (Budget.calls rules) hworker hcovers) (worker.allowance_le rules)
  refine ⟨hcalls, fun hcovers => ⟨hcalls fun stride hstride => ?_, ?_⟩⟩
  · exact Worker.givesWay_of_not_isSuspended (hcovers stride hstride)
  · have hmoves :=
      Nat.le_trans (sum_cost_le (Budget.moves rules) hworker hcovers) (worker.leash_le rules)
    have hlength : ((pool.strides rules index events).map (Budget.moves rules).cost).sum =
        (pool.strides rules index events).length := by
      rw [Budget.moves, List.map_const', List.sum_replicate_nat, Nat.mul_one]
    exact hlength ▸ hmoves

/-- How a worker shares its thread with the others. -/
structure Shares (rules : Rules) (pool : Pool) (index : Nat) (worker : Worker) (interval : Nat) :
    Prop where
  /-- Whatever happens from now on. -/
  moderate : ∀ events, Moderate interval (pool.strides rules index events)
  /-- Nothing keeps it where it is, unless it is suspended or gone. -/
  free : worker.isActive = true → ∃ next, pool.step rules (.work index) = some next
  /-- If it is resumed with nothing in between. -/
  resumed : ∃ count resumed,
    (List.replicate count (.work index)).foldlM (step rules) pool =
      some (pool.resumeWorker rules index) ∧ count ≤ 3 * interval + 4 ∧
      ((pool.strides rules index (.replicate count (.work index))).filterMap
        Worker.Stride.call).length ≤ interval ∧
      (pool.resumeWorker rules index).workers[index]? = some resumed ∧ resumed.isActive = false

/-- **A worker gives way in time.** Whatever state a job is in, and whatever happens in it from then
on, a worker calls the predicate no more often between two moments at which it gives way than the
settings say, where nothing counts as one, also if it waits for room in between; and it is suspended
or gone after a bounded number of its moves. Unless it is one of these it can always move, and after
a resumption with nothing in between it is. -/
theorem gives_way_in_time {settings : Settings} {predicate : Predicate}
    (hworker : pool.workers[index]? = some worker) :
    pool.Shares (.ofSettings settings predicate) index worker (max settings.yieldInterval 1) where
  moderate := moderate_strides (.ofSettings settings predicate) hworker
  free hactive := by
    obtain ⟨hindex, rfl⟩ := Array.getElem?_eq_some_iff.1 hworker
    exact ⟨_, step_work hindex _ (Station.isBlocked_of_isActive hactive)⟩
  resumed := by
    obtain ⟨hindex, rfl⟩ := Array.getElem?_eq_some_iff.1 hworker
    obtain ⟨count, hresumption⟩ := exists_resumption (.ofSettings settings predicate) pool index
    obtain ⟨hcalls, hcount⟩ := (moderate_strides _ hworker _).moves hresumption.covers
    obtain ⟨resumed, hresumed, hinactive⟩ := exists_resumed (.ofSettings settings predicate) hindex
    rw [hresumption.length] at hcount
    exact ⟨count, resumed, hresumption.run, hcount, hcalls, hresumed, hinactive⟩

/-- All values are accepted, until the predicate fails on 4. -/
def failingAtFour (value : Nat) : Outcome :=
  if value = 4 then .failed "four" else .decided true none

/-- A worker with seven values before it, and one place in the channel. -/
def sevenValues : Pool :=
  ⟨#[.ofRange 0 ⟨0, 7, by decide⟩], ⟨.ofCapacity 1 2, .ofExpected 1, 0, false⟩, {}, .fresh, #[]⟩

/-- The worker waits for room with 1 and with 2, and by the time that it gives way it has called the
predicate as often as it may. A worker that is to give way after nothing gives way after one. -/
theorem gives_way_in_time_waiting_twice :
    (∃ strides, sevenValues.strides (.ofSettings { yieldInterval := 3 } failingAtFour) 0
        (.replicate 6 (.work 0) ++ .receive :: .replicate 4 (.work 0) ++ [.receive, .work 0]) =
          strides ∧
      strides.filterMap Worker.Stride.call = [0, 1, 2] ∧
      strides.filterMap (fun stride => if stride.after.isSuspended then some stride.after.phase
        else none) =
        [.waiting 1, .waiting 2, .yielding] ∧ Moderate 3 strides) ∧
    sevenValues.workers[0]? = some (.ofRange 0 ⟨0, 7, by decide⟩) ∧
    sevenValues.Shares (.ofSettings { yieldInterval := 3 } failingAtFour) 0
      (.ofRange 0 ⟨0, 7, by decide⟩) 3 ∧
    sevenValues.Shares (.ofSettings { yieldInterval := 0 } failingAtFour) 0
      (.ofRange 0 ⟨0, 7, by decide⟩) 1 := by
  have hworker : sevenValues.workers[0]? = some (.ofRange 0 ⟨0, 7, by decide⟩) := rfl
  have hthree : sevenValues.Shares (.ofSettings { yieldInterval := 3 } failingAtFour) 0
      (.ofRange 0 ⟨0, 7, by decide⟩) 3 := gives_way_in_time hworker
  exact ⟨⟨_, rfl, by decide +kernel, by decide +kernel, hthree.moderate _⟩, hworker, hthree,
    gives_way_in_time hworker⟩

end Pool

end ParallelFilter
