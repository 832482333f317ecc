import ParallelFilter.Proofs.Outlook
import ParallelFilter.Proofs.Scheduling

/-! Jobs whose workers take turns: each worker moves only when those before it are gone, while the
drain, the closer and those who join move as they like. The prospect of such a job, on which values
each worker will have called the predicate in the end and whether the job will be cancelled then,
can be told at every moment. Where the channel has room for all that is accepted no move changes it.
-/

namespace ParallelFilter

namespace Pool

variable {rules : Rules} {pool after : Pool} {index : Nat}

/-- Whether the workers before the given one are gone. -/
def clear (pool : Pool) (index : Nat) : Bool :=
  (pool.workers.toList.take index).all Worker.isGone

/-- Whether the event keeps to the order of turns: a worker moves only when those before it are gone. -/
def inTurn (pool : Pool) (event : Event) : Bool :=
  event.worker?.all pool.clear

/-- On which values each worker will have called the predicate when all have had their turns, and
whether the job will be cancelled then. -/
def prospect (rules : Rules) (pool : Pool) : List (List Nat) × Bool :=
  relay (rules.predicate.halts rules.failFast) (Worker.outlook rules.predicate rules.failFast)
    pool.token.isCancelled pool.workers.toList

theorem clear_iff : pool.clear index = true ↔
    ∀ (other : Nat) (worker : Worker), other < index → pool.workers[other]? = some worker →
      worker.isGone = true := by
  rw [clear, List.all_eq_true]
  constructor
  · intro h other worker hlt hworker
    apply h
    rw [List.mem_iff_getElem?]
    exact ⟨other, by rw [List.getElem?_take_of_lt hlt, Array.getElem?_toList, hworker]⟩
  · intro h worker hworker
    obtain ⟨other, hother⟩ := List.mem_iff_getElem?.1 hworker
    rw [List.getElem?_take] at hother
    split at hother
    · rename_i hlt
      rw [Array.getElem?_toList] at hother
      exact h other worker hlt hother
    · cases hother

/-- A worker that is gone and has halted the job has cancelled it. -/
theorem token_of_isGone {worker : Worker} {token : Token} (hsteady : worker.Steady rules token)
    (hgone : worker.isGone = true)
    (hany : worker.called.any (rules.predicate.halts rules.failFast) = true) :
    token.isCancelled = true := by
  rcases hsteady.heard hany with htoken | howes
  · exact htoken
  · rw [Worker.owes_of_isGone rules hgone] at howes
    cases howes

/-- What workers will have called that are gone, they have called. -/
theorem relay_of_isGone {workers : List Worker} {token : Token}
    (hgone : ∀ worker ∈ workers, worker.isGone = true)
    (hsteady : ∀ worker ∈ workers, worker.Steady rules token) {cancelled : Bool}
    (hcancelled : token.isCancelled = true → cancelled = true) :
    relay (rules.predicate.halts rules.failFast) (Worker.outlook rules.predicate rules.failFast)
      cancelled workers =
      (workers.map Worker.called, cancelled) :=
  relay_of_settled
    (fun worker hworker => Worker.outlook_of_ending? (Worker.ending?_of_not_holdsTicket
      (Worker.not_holdsTicket_of_isGone (hgone worker hworker))))
    fun worker hworker hany =>
      hcancelled (token_of_isGone (hsteady worker hworker) (hgone worker hworker) hany)

theorem prospect_put (hindex : index < pool.workers.size) {moved : Station}
    (hclear : pool.clear index = true)
    (hsteady : ∀ worker ∈ pool.workers, worker.Steady rules pool.token)
    (houtlook : moved.worker.outlook rules.predicate rules.failFast moved.token.isCancelled =
      pool.workers[index].outlook rules.predicate rules.failFast pool.token.isCancelled)
    (hmono : pool.token.isCancelled = true → moved.token.isCancelled = true)
    (hhalts : moved.token.isCancelled = true → pool.token.isCancelled = true ∨
      moved.worker.called.any (rules.predicate.halts rules.failFast) = true) :
    (pool.put index hindex moved).prospect rules = pool.prospect rules := by
  have hgone : ∀ worker ∈ pool.workers.toList.take index, worker.isGone = true :=
    List.all_eq_true.1 hclear
  have hbefore : ∀ worker ∈ pool.workers.toList.take index, worker.Steady rules pool.token :=
    fun worker hworker => hsteady worker (Array.mem_toList_iff.1 (List.mem_of_mem_take hworker))
  have hsplit : pool.workers.toList =
      pool.workers.toList.take index ++ pool.workers[index] ::
        pool.workers.toList.drop (index + 1) := by
    rw [← Array.getElem_toList hindex, List.getElem_cons_drop, List.take_append_drop]
  have hset : (pool.workers.set index moved.worker).toList =
      pool.workers.toList.take index ++ moved.worker :: pool.workers.toList.drop (index + 1) := by
    rw [Array.toList_set, List.set_eq_take_append_cons_drop, if_pos (by rwa [Array.length_toList])]
  generalize houtlooks : pool.workers[index].outlook rules.predicate rules.failFast
    pool.token.isCancelled = calls
    at houtlook
  -- the worker tells those after it the same as before
  have hpassed : (moved.token.isCancelled || calls.any (rules.predicate.halts rules.failFast)) =
      (pool.token.isCancelled || calls.any (rules.predicate.halts rules.failFast)) := by
    rw [Bool.eq_iff_iff, Bool.or_eq_true, Bool.or_eq_true]
    constructor
    · rintro (hmoved | hany)
      · refine (hhalts hmoved).imp id fun hany => ?_
        rw [← houtlook]
        exact Worker.any_outlook hany
      · exact .inr hany
    · exact Or.imp hmono id
  calc
    (pool.put index hindex moved).prospect rules
      = relay (rules.predicate.halts rules.failFast) (Worker.outlook rules.predicate rules.failFast)
          moved.token.isCancelled (pool.workers.toList.take index ++ moved.worker ::
            pool.workers.toList.drop (index + 1)) := by rw [← hset]; rfl
    _ = relay (rules.predicate.halts rules.failFast) (Worker.outlook rules.predicate rules.failFast)
          pool.token.isCancelled (pool.workers.toList.take index ++ pool.workers[index] ::
            pool.workers.toList.drop (index + 1)) := by
      rw [relay_append, relay_append, relay_of_isGone hgone hbefore hmono,
        relay_of_isGone hgone hbefore id, relay, relay, houtlook, houtlooks, hpassed]
    _ = pool.prospect rules := by rw [← hsplit]; rfl

/-- A move that changes what is to be told of no worker changes nothing that is told in advance. -/
theorem prospect_set (hindex : index < pool.workers.size) {worker : Worker}
    (hsame : ∀ cancelled, worker.outlook rules.predicate rules.failFast cancelled =
      pool.workers[index].outlook rules.predicate rules.failFast cancelled)
    (hworkers : after.workers = pool.workers.set index worker) (htoken : after.token = pool.token) :
    after.prospect rules = pool.prospect rules := by
  have houtlooks (workers : List Worker) (cancelled : Bool) :
      relay (rules.predicate.halts rules.failFast) (Worker.outlook rules.predicate rules.failFast)
        cancelled workers =
        relay (rules.predicate.halts rules.failFast)
          (fun cancelled outlook => outlook cancelled) cancelled
          (workers.map fun worker cancelled =>
            worker.outlook rules.predicate rules.failFast cancelled) :=
    relay_map fun _ _ _ => rfl
  have hmap := congrArg Array.toList (map_set_of_eq
    (f := fun worker cancelled => worker.outlook rules.predicate rules.failFast cancelled) hindex
    (funext hsame))
  rw [Array.toList_map, Array.toList_map] at hmap
  rw [prospect, prospect, hworkers, htoken, houtlooks, houtlooks, hmap]

namespace History

/-- What is kept of a job over the ranges, on a channel with so many places, whose workers take
turns. -/
structure TakesTurns (rules : Rules) (ranges : List Span) (capacity : Nat) (history : History) :
    Prop where
  sound : history.Sound rules.predicate ranges
  receiving : history.pool.link.channel.receiving = true
  capacity_eq : history.pool.link.channel.capacity = capacity
  prospect : history.pool.prospect rules =
    (ranges.mapIdx (rules.predicate.callsInTurn rules.failFast ranges),
      (rules.predicate.halt? rules.failFast ranges).isSome)
  steady : ∀ worker ∈ history.pool.workers, worker.Steady rules history.pool.token
  /-- A worker evaluates only when those before it are gone. -/
  ordered : ∀ (index : Nat) (worker : Worker), history.pool.workers[index]? = some worker →
    worker.phase = .evaluating → history.pool.clear index = true

variable {ranges : List Span} {capacity : Nat} {history : History}

theorem TakesTurns.room (h : history.TakesTurns rules ranges capacity)
    (hcapacity : rules.predicate.acceptedInTurn rules.failFast ranges ≤ capacity) {worker : Worker}
    (hworker : worker ∈ history.pool.workers) {value : Nat} (hhand : worker.inHand? = some value) :
    history.pool.link.channel.buffer.size < history.pool.link.channel.capacity := by
  have hcount : ∀ worker ∈ history.pool.workers.toList,
      worker.accepted ≤ worker.called.countP rules.predicate.accepts := by
    intro worker hworker
    obtain ⟨index, hindex⟩ := Array.mem_iff_getElem?.1 (Array.mem_toList_iff.1 hworker)
    obtain ⟨-, -, haccounts⟩ := h.sound.books.worker hindex
    obtain ⟨rest, hcount, -⟩ := haccounts.countP_called
    omega
  have hstrict : worker.accepted < worker.called.countP rules.predicate.accepts := by
    obtain ⟨index, hindex⟩ := Array.mem_iff_getElem?.1 hworker
    obtain ⟨-, -, haccounts⟩ := h.sound.books.worker hindex
    exact Nat.lt_of_succ_le (haccounts.countP_of_inHand? hhand).ge
  have hpublished := h.sound.delivery.length_published h.receiving
  rw [h.capacity_eq]
  calc
    history.pool.link.channel.buffer.size
      ≤ history.published.length := by omega
    _ = (history.pool.workers.toList.map Worker.accepted).sum := h.sound.books.sum_accepted.symm
    _ < (history.pool.workers.toList.map fun worker =>
      worker.called.countP rules.predicate.accepts).sum :=
      List.sum_lt_sum _ _ hcount ⟨worker, Array.mem_toList_iff.2 hworker, hstrict⟩
    _ ≤ ((history.pool.prospect rules).1.map (List.countP rules.predicate.accepts)).sum :=
      sum_le_relay _ _ fun worker _ cancelled =>
        (Worker.called_prefix_outlook _ _ cancelled worker).countP_le
    _ ≤ capacity := by
      rw [h.prospect, ← Predicate.acceptedInTurn_eq]
      exact hcapacity

section Moves

variable {event : Event} {published : Option (Nat × Nat)} {answer : Option Polled}

/-- Only the worker whose turn it is evaluates. -/
theorem TakesTurns.eq_of_evaluating (h : history.TakesTurns rules ranges capacity)
    {index other : Nat} {worker mover : Worker} (hclear : history.pool.clear index = true)
    (hmover : history.pool.workers[index]? = some mover) (hstays : mover.isGone = false)
    (hworker : history.pool.workers[other]? = some worker) (hphase : worker.phase = .evaluating) :
    other = index := by
  rcases Nat.lt_trichotomy other index with hlt | heq | hlt
  · have hgone := clear_iff.1 hclear other worker hlt hworker
    simp only [Worker.isGone, hphase] at hgone
    cases hgone
  · exact heq
  · have hgone := clear_iff.1 (h.ordered other worker hworker hphase) index mover hlt hmover
    exact absurd (hstays.symm.trans hgone) (by decide)

theorem clear_set {index place : Nat} (hindex : index < pool.workers.size) {next : Worker}
    (hworkers : after.workers = pool.workers.set index next) (hclear : pool.clear place = true)
    (hgone : index < place → next.isGone = true) : after.clear place = true := by
  rw [clear_iff] at hclear ⊢
  intro other worker hlt hworker
  rw [hworkers] at hworker
  rcases getElem?_set_cases hindex hworker with ⟨rfl, rfl⟩ | ⟨-, hworker⟩
  · exact hgone hlt
  · exact hclear other worker hlt hworker

/-- Where nobody waits, no place is kept. -/
theorem TakesTurns.kept_eq_zero (h : history.TakesTurns rules ranges capacity) {index kept : Nat}
    (hevent : event = .work index ∧ kept = 0 ∨ event = .queue index ∧ kept = history.pool.waiting) :
    kept = 0 := by
  rcases hevent with ⟨-, hkept⟩ | ⟨-, hkept⟩
  · exact hkept
  · rw [hkept, waiting, Array.countP_eq_zero]
    intro worker hworker
    rw [(h.steady worker hworker).waiting]
    decide

/-- A move of the worker whose turn it is keeps the turns. -/
theorem TakesTurns.work (h : history.TakesTurns rules ranges capacity)
    (hcapacity : rules.predicate.acceptedInTurn rules.failFast ranges ≤ capacity) {index : Nat}
    (hindex : index < history.pool.workers.size) (hclear : history.pool.clear index = true)
    {sent : Option Nat} {moved : Station}
    (hmoves : Station.Moves rules 0 (history.pool.station history.pool.workers[index]) sent moved) :
    (history.pool.put index hindex moved).prospect rules = history.pool.prospect rules ∧
      (∀ worker ∈ (history.pool.put index hindex moved).workers, worker.Steady rules moved.token) ∧
        ∀ (place : Nat) (worker : Worker), (history.pool.put index hindex moved).workers[place]? =
          some worker →
          worker.phase = .evaluating → (history.pool.put index hindex moved).clear place = true := by
  have hworker := Array.getElem?_eq_getElem hindex
  obtain ⟨-, -, haccounts⟩ := h.sound.books.worker hworker
  have hbefore := h.steady _ (Array.getElem_mem hindex)
  have hroom : ∀ value, history.pool.workers[index].inHand? = some value →
      history.pool.link.channel.buffer.size + 0 < history.pool.link.channel.capacity :=
    fun value hhand => h.room hcapacity (Array.getElem_mem hindex) hhand
  have hmono := hmoves.token_cancelled
  have honly {place : Nat} {worker : Worker} (hother : history.pool.workers[place]? = some worker)
      (hphase : worker.phase = .evaluating) : place = index :=
    h.eq_of_evaluating hclear hworker hmoves.not_gone hother hphase
  refine ⟨?_, ?_, ?_⟩
  · exact prospect_put hindex hclear h.steady
      (hmoves.outlook_eq hbefore haccounts h.receiving hroom) hmono
      (hmoves.halts_of_token hbefore haccounts)
  · intro worker hmem
    obtain ⟨place, hplace⟩ := Array.mem_iff_getElem?.1 hmem
    rcases getElem?_set_cases hindex hplace with ⟨-, rfl⟩ | ⟨hne, hother⟩
    · exact hmoves.steady hbefore haccounts h.receiving hroom
    · exact (h.steady worker (Array.mem_of_getElem? hother)).mono hmono
        fun hphase => hne (honly hother hphase).symm
  · intro place worker hplace hphase
    rcases getElem?_set_cases hindex hplace with ⟨rfl, rfl⟩ | ⟨hne, hother⟩
    · exact clear_set hindex rfl hclear fun hlt => absurd hlt (Nat.lt_irrefl _)
    · exact absurd (honly hother hphase).symm hne

/-- Workers that are gone stay gone. -/
theorem clear_moves {place : Nat} (hclear : pool.clear place = true)
    (hmoves : Pool.Moves rules pool event published answer after) : after.clear place = true := by
  cases hmoves with
  | work index kept hindex _ moved hmoves =>
      refine clear_set hindex rfl hclear fun hlt => ?_
      have hgone := clear_iff.1 hclear index _ hlt (Array.getElem?_eq_getElem hindex)
      exact absurd (hmoves.not_gone.symm.trans hgone) (by decide)
  | join index hindex worker hjoin =>
      obtain ⟨ending, -, hnext, -⟩ := Worker.join?_eq_some hjoin
      exact clear_set hindex rfl hclear fun _ => by rw [hnext]; rfl
  | _ => exact hclear

/-- A move in turn keeps the turns. -/
theorem TakesTurns.moves (h : history.TakesTurns rules ranges capacity)
    (hcapacity : rules.predicate.acceptedInTurn rules.failFast ranges ≤ capacity)
    (hinner : event.isInner = true) (hturn : history.pool.inTurn event = true)
    (hmoves : Moves rules history.pool event published answer after) :
    (history.extend published answer after).TakesTurns rules ranges capacity := by
  have hsound := h.sound.moves hmoves
  have hreceiving : after.link.channel.receiving = true :=
    (hmoves.receiving_eq (by rintro rfl; cases hinner)).trans h.receiving
  have hcapacity_eq := hmoves.capacity_eq.trans h.capacity_eq
  cases hmoves with
  | work index kept hindex hevent moved hmoves =>
      obtain rfl := h.kept_eq_zero hevent
      rw [inTurn, Event.worker?_of_move hevent, Option.all_some] at hturn
      obtain ⟨hprospect, hsteady, hordered⟩ := h.work hcapacity hindex hturn hmoves
      exact ⟨hsound, hreceiving, hcapacity_eq, hprospect.trans h.prospect, hsteady, hordered⟩
  | join index hindex worker hjoin =>
      obtain ⟨ending, hphase, hnext, -⟩ := Worker.join?_eq_some hjoin
      have hgone : worker.isGone = true := by rw [hnext]; rfl
      refine ⟨hsound, hreceiving, hcapacity_eq, ?_, ?_, ?_⟩
      · refine Eq.trans (prospect_set hindex (fun cancelled => ?_) rfl rfl) h.prospect
        rw [Worker.outlook_of_ending? (by rw [hnext]; rfl), Worker.called_of_join? hjoin,
          Worker.outlook_of_ending? (by simp only [Worker.ending?, hphase]; rfl)]
      · exact forall_mem_set hindex h.steady ((h.steady _ (Array.getElem_mem hindex)).join hjoin)
      · intro place other hplace hevaluating
        rcases getElem?_set_cases hindex hplace with ⟨-, rfl⟩ | ⟨-, hother⟩
        · rw [hnext] at hevaluating
          cases hevaluating
        · exact clear_set hindex rfl (h.ordered place other hother hevaluating) fun _ => hgone
  | dropDrain _ | cancel _ _ => cases hinner
  | _ => exact ⟨hsound, hreceiving, hcapacity_eq, h.prospect, h.steady, h.ordered⟩

end Moves

theorem TakesTurns.ofStart {link : ResultChannel}
    (hlink : ResultChannel.make capacity ranges.length = .ok link)
    (hstart : Pool.start ranges link {} = .ok pool) :
    (ofPool pool).TakesTurns rules ranges capacity := by
  have hsound : (ofPool pool).Sound rules.predicate ranges := .ofStart hlink hstart
  obtain ⟨-, -, rfl⟩ := ResultChannel.make_eq_ok.1 hlink
  obtain ⟨-, rfl⟩ := Pool.start_eq_ok.1 hstart
  have hfresh {worker : Worker} (hworker : worker ∈ ranges.mapIdx Worker.ofRange) :
      ∃ id range, worker = Worker.ofRange id range := by
    obtain ⟨index, hindex, rfl⟩ := List.mem_mapIdx.1 hworker
    exact ⟨index, _, rfl⟩
  refine ⟨hsound, rfl, rfl, ?_, ?_, ?_⟩
  · have hranges : (ranges.mapIdx Worker.ofRange).map Worker.range = ranges := by
      apply List.ext_getElem?
      intro index
      rw [List.getElem?_map, List.getElem?_mapIdx, Option.map_map]
      exact Option.map_id'
    have hturns : relay (rules.predicate.halts rules.failFast)
        (Worker.outlook rules.predicate rules.failFast) false
        (ranges.mapIdx Worker.ofRange) = relay (rules.predicate.halts rules.failFast)
          (rules.predicate.turn rules.failFast) false
            ((ranges.mapIdx Worker.ofRange).map Worker.range) := by
      apply relay_map
      intro worker hworker cancelled
      obtain ⟨id, range, rfl⟩ := hfresh hworker
      exact Worker.outlook_ofRange id range
    rw [hranges, Predicate.relay_turn] at hturns
    exact hturns
  · intro worker hworker
    obtain ⟨id, range, rfl⟩ := hfresh (List.mem_toArray.1 hworker)
    exact Worker.steady_ofRange id range {}
  · intro index worker hworker hphase
    obtain ⟨id, range, rfl⟩ := hfresh (List.mem_toArray.1 (Array.mem_of_getElem? hworker))
    cases hphase

end History

end Pool

end ParallelFilter
