import ParallelFilter.Worker
import ParallelFilter.Proofs.Channels

/-! The moves of one worker, one constructor for each kind, with all that must hold before the move and
all that it changes. Every later proof about workers goes by cases on `Station.Moves` and never unfolds
the step function. -/

namespace ParallelFilter

namespace Token

/-- A cancellation is never taken back. -/
theorem isCancelled_cancel (token : Token) (scope : Scope) :
    (token.cancel scope).isCancelled = true := by
  cases scope <;> simp [cancel, isCancelled]

theorem isCancelled_cancel? {token : Token} (h : token.isCancelled = true) (scope : Option Scope) :
    (token.cancel? scope).isCancelled = true := by
  cases scope with
  | none => exact h
  | some scope => exact token.isCancelled_cancel scope

end Token

namespace Worker

/-- The accepted value that the worker has not sent yet. -/
def inHand? (worker : Worker) : Option Nat :=
  match worker.phase with
  | .offering value | .waiting value => some value
  | _ => none

def holdsSender (worker : Worker) : Bool :=
  match worker.phase with
  | .stopped _ .sender => true
  | .stopped _ _ => false
  | _ => true

def holdsTicket (worker : Worker) : Bool :=
  match worker.phase with
  | .stopped _ .sender | .stopped _ .ticket => true
  | .stopped _ _ => false
  | _ => true

theorem phase_of_inHand? {worker : Worker} {value : Nat} (h : worker.inHand? = some value) :
    worker.phase = .offering value ∨ worker.phase = .waiting value := by
  unfold inHand? at h
  split at h
  · rename_i hphase
    cases h
    exact .inl hphase
  · rename_i hphase
    cases h
    exact .inr hphase
  · cases h

/-- A worker gives up its ticket only after its sender. -/
theorem holdsTicket_of_holdsSender {worker : Worker} (h : worker.holdsSender = true) :
    worker.holdsTicket = true := by
  obtain ⟨id, range, evaluated, accepted, phase⟩ := worker
  cases phase with
  | stopped ending remains =>
      cases remains with
      | sender => rfl
      | _ => cases h
  | _ => rfl

theorem not_holdsSender_of_not_holdsTicket {worker : Worker} (h : worker.holdsTicket = false) :
    worker.holdsSender = false := by
  cases hsender : worker.holdsSender with
  | false => rfl
  | true =>
      rw [holdsTicket_of_holdsSender hsender] at h
      cases h

theorem not_holdsTicket_of_isGone {worker : Worker} (h : worker.isGone = true) :
    worker.holdsTicket = false := by
  unfold isGone at h
  split at h
  · rename_i hphase
    simp only [holdsTicket, hphase]
  · rename_i hphase
    simp only [holdsTicket, hphase]
  · cases h

theorem isGone_of_isJoined {worker : Worker} (h : worker.isJoined = true) : worker.isGone = true := by
  unfold isJoined at h
  split at h
  · rename_i hphase
    simp only [isGone, hphase]
  · cases h

theorem ending?_of_isJoined {worker : Worker} (h : worker.isJoined = true) :
    ∃ ending, worker.ending? = some ending := by
  unfold isJoined at h
  split at h
  · rename_i ending hphase
    exact ⟨ending, by simp only [ending?, hphase]⟩
  · cases h

theorem ending?_of_not_holdsTicket {worker : Worker} (h : worker.holdsTicket = false) :
    worker.ending?.isSome = true := by
  obtain ⟨id, range, evaluated, accepted, phase⟩ := worker
  cases phase with
  | stopped ending remains => rfl
  | _ => cases h

theorem holdsSender_of_inHand? {worker : Worker} {value : Nat} (h : worker.inHand? = some value) :
    worker.holdsSender = true := by
  rcases phase_of_inHand? h with h | h <;> simp only [holdsSender, h]

theorem ending?_of_inHand? {worker : Worker} {value : Nat} (h : worker.inHand? = some value) :
    worker.ending? = none := by
  rcases phase_of_inHand? h with h | h <;> simp only [ending?, h]

theorem inHand?_of_ending? {worker : Worker} {ending : Ending} (h : worker.ending? = some ending) :
    worker.inHand? = none := by
  unfold ending? at h
  split at h
  · rename_i hphase
    simp only [inHand?, hphase]
  · cases h

theorem holdsSender_of_isWaiting {worker : Worker} (h : worker.isWaiting = true) :
    worker.holdsSender = true := by
  unfold isWaiting at h
  split at h
  · rename_i hphase
    simp only [holdsSender, hphase]
  · cases h

/-- What a stopped worker leaves. -/
def outcome? (worker : Worker) : Option WorkerOutcome :=
  worker.report?.map fun summary => ⟨summary, worker.fault?⟩

/-- A worker is joined once it has given up all but its outcome, and leaves nothing but its counts. -/
theorem join?_eq_some {worker next : Worker} {outcome : WorkerOutcome}
    (h : worker.join? = some (outcome, next)) :
    ∃ ending, worker.phase = .stopped ending .outcome ∧
      next = { worker with phase := .stopped ending .nothing } ∧ next.outcome? = some outcome := by
  unfold join? at h
  split at h
  · rename_i ending hphase
    simp only [report?, ending?, hphase, fault?, Option.map_some, Option.some.injEq, Prod.mk.injEq] at h
    obtain ⟨rfl, rfl⟩ := h
    exact ⟨ending, hphase, rfl, rfl⟩
  · cases h

theorem ending?_of_join? {worker next : Worker} {outcome : WorkerOutcome}
    (h : worker.join? = some (outcome, next)) : next.ending? = worker.ending? := by
  obtain ⟨ending, hphase, rfl, -⟩ := join?_eq_some h
  simp only [ending?, hphase]

theorem join?_of_isGone {worker : Worker} (hgone : worker.isGone = true)
    (hjoined : worker.isJoined = false) : ∃ outcome next, worker.join? = some (outcome, next) := by
  unfold isGone at hgone
  split at hgone
  · rename_i hphase
    simp only [join?, hphase, report?, ending?, Option.map_some, Option.some.injEq, Prod.mk.injEq]
    exact ⟨_, _, rfl, rfl⟩
  · rename_i hphase
    simp only [isJoined, hphase] at hjoined
    cases hjoined
  · cases hgone

end Worker

namespace Station

/-- The value that the worker's next move puts into the channel, if that is what the move does. -/
def sends? (rules : Rules) (station : Station) : Option Nat :=
  if (station.step rules).worker.accepted = station.worker.accepted then none
  else station.worker.inHand?

/-- `Moves rules kept before sent after`: a move of the worker leads from `before` to `after` and puts
`sent` into the channel. Of the free places `kept` are not for this worker. -/
inductive Moves (rules : Rules) (kept : Nat) : Station → Option Nat → Station → Prop where
  | enter {worker link token} (hphase : worker.phase = .ready)
      (hlt : worker.evaluated < worker.range.length) (htoken : token.isCancelled = false) :
      Moves rules kept ⟨worker, link, token⟩ none ⟨{ worker with phase := .evaluating }, link, token⟩
  | complete {worker link token} (hphase : worker.phase = .ready)
      (hend : worker.range.length ≤ worker.evaluated) :
      Moves rules kept ⟨worker, link, token⟩ none
        ⟨{ worker with phase := .stopped .completed .sender }, link, token⟩
  | quit {worker link token} (hphase : worker.phase = .ready)
      (hlt : worker.evaluated < worker.range.length) (htoken : token.isCancelled = true) :
      Moves rules kept ⟨worker, link, token⟩ none
        ⟨{ worker with phase := .stopped .cancelled .sender }, link, token⟩
  | fail {worker link token} (reason : String) (hphase : worker.phase = .evaluating)
      (hcall : rules.predicate worker.next = .failed reason) :
      Moves rules kept ⟨worker, link, token⟩ none
        ⟨{ worker with phase := .stopped (.failed reason) .sender }, link,
          if rules.failFast then token.cancel .job else token⟩
  | panic {worker link token} (payload : PanicPayload) (hphase : worker.phase = .evaluating)
      (hcall : rules.predicate worker.next = .panicked payload) :
      Moves rules kept ⟨worker, link, token⟩ none
        ⟨{ worker with phase := .stopped (.panicked payload) .sender }, link, token⟩
  | reject {worker link token} (cancels : Option Scope) (hphase : worker.phase = .evaluating)
      (hcall : rules.predicate worker.next = .decided false cancels) :
      Moves rules kept ⟨worker, link, token⟩ none
        ⟨{ worker with
            evaluated := worker.evaluated + 1
            phase := afterValue rules (worker.evaluated + 1) }, link, token.cancel? cancels⟩
  | accept {worker link token} (cancels : Option Scope) (hphase : worker.phase = .evaluating)
      (hcall : rules.predicate worker.next = .decided true cancels) :
      Moves rules kept ⟨worker, link, token⟩ none
        ⟨{ worker with evaluated := worker.evaluated + 1, phase := .offering worker.next }, link,
          token.cancel? cancels⟩
  | send {worker link token} (value : Nat)
      (hhand : worker.inHand? = some value)
      (htoken : worker.isWaiting = true → token.isCancelled = false)
      (hopen : link.channel.receiving = true)
      (hroom : link.channel.buffer.size < link.channel.capacity) :
      Moves rules kept ⟨worker, link, token⟩ (some value)
        ⟨{ worker with
            accepted := worker.accepted + 1
            phase := afterValue rules worker.evaluated }, link.put value, token⟩
  | disconnect {worker link token} (value : Nat)
      (hhand : worker.inHand? = some value)
      (htoken : worker.isWaiting = true → token.isCancelled = false)
      (hclosed : link.channel.receiving = false) :
      Moves rules kept ⟨worker, link, token⟩ none
        ⟨{ worker with phase := .stopped .disconnected .sender }, link, token⟩
  | giveUp {worker link token} (value : Nat)
      (hhand : worker.inHand? = some value)
      (hblocked : worker.isWaiting = true ∨ link.channel.receiving = true ∧
        link.channel.capacity ≤ link.channel.buffer.size + kept)
      (htoken : token.isCancelled = true) :
      Moves rules kept ⟨worker, link, token⟩ none
        ⟨{ worker with phase := .stopped .cancelled .sender }, link, token⟩
  | suspend {worker link token} (value : Nat) (hphase : worker.phase = .offering value)
      (hopen : link.channel.receiving = true)
      (hcrowded : link.channel.capacity ≤ link.channel.buffer.size + kept)
      (htoken : token.isCancelled = false) :
      Moves rules kept ⟨worker, link, token⟩ none
        ⟨{ worker with phase := .waiting value }, link, token⟩
  | goOn {worker link token} (hphase : worker.phase = .yielding) :
      Moves rules kept ⟨worker, link, token⟩ none ⟨{ worker with phase := .ready }, link, token⟩
  | dropSender {worker link token} (ending : Ending) (hphase : worker.phase = .stopped ending .sender) :
      Moves rules kept ⟨worker, link, token⟩ none
        ⟨{ worker with phase := .stopped ending .ticket }, link.dropSender, token⟩
  | dropTicket {worker link token} (ending : Ending) (hphase : worker.phase = .stopped ending .ticket) :
      Moves rules kept ⟨worker, link, token⟩ none
        ⟨{ worker with phase := .stopped ending (ending.afterTicket rules) }, link.dropTicket, token⟩
  | alarm {worker link token} (ending : Ending) (hphase : worker.phase = .stopped ending .alarm) :
      Moves rules kept ⟨worker, link, token⟩ none
        ⟨{ worker with phase := .stopped ending .outcome }, link, token.cancel .job⟩

theorem afterTicket_cases (rules : Rules) (ending : Ending) :
    ending.afterTicket rules = .alarm ∨ ending.afterTicket rules = .outcome := by
  unfold Ending.afterTicket
  split
  · exact (Bool.eq_false_or_eq_true rules.failFast).imp (fun h => if_pos h) fun h =>
      if_neg (by simp [h])
  · exact .inr rfl

theorem afterValue_cases (rules : Rules) (evaluated : Nat) :
    afterValue rules evaluated = .yielding ∨ afterValue rules evaluated = .ready := by
  unfold afterValue
  split
  · exact .inl rfl
  · exact .inr rfl

theorem ending?_afterValue (rules : Rules) (worker : Worker) (evaluated accepted count : Nat) :
    ({ worker with evaluated, accepted, phase := afterValue rules count } : Worker).ending? = none := by
  rcases afterValue_cases rules count with h | h <;> simp only [Worker.ending?, h]

variable {rules : Rules} {worker : Worker} {link : ResultChannel} {token : Token} {value : Nat}

theorem sends?_of_step_eq {after : Station} (h : step rules ⟨worker, link, token⟩ = after)
    (haccepted : after.worker.accepted = worker.accepted) :
    sends? rules ⟨worker, link, token⟩ = none := by
  rw [sends?, h, if_pos haccepted]

theorem send_of_closed (blocked : Station → Station) (hclosed : link.channel.receiving = false) :
    send rules ⟨worker, link, token⟩ value blocked =
      ⟨{ worker with phase := .stopped .disconnected .sender }, link, token⟩ := by
  obtain ⟨⟨capacity, buffer, senders, receiving⟩, barrier, received, finished⟩ := link
  subst hclosed
  rfl

theorem send_of_room (blocked : Station → Station) (hopen : link.channel.receiving = true)
    (hroom : link.channel.buffer.size < link.channel.capacity) :
    send rules ⟨worker, link, token⟩ value blocked =
      ⟨{ worker with
          accepted := worker.accepted + 1
          phase := afterValue rules worker.evaluated }, link.put value, token⟩ := by
  obtain ⟨⟨capacity, buffer, senders, receiving⟩, barrier, received, finished⟩ := link
  subst hopen
  simp only [send, Channel.offer, Bool.not_true, Bool.false_eq_true, if_false, if_pos hroom]
  rfl

theorem send_of_full (blocked : Station → Station) (hopen : link.channel.receiving = true)
    (hfull : link.channel.capacity ≤ link.channel.buffer.size) :
    send rules ⟨worker, link, token⟩ value blocked = blocked ⟨worker, link, token⟩ := by
  obtain ⟨⟨capacity, buffer, senders, receiving⟩, barrier, received, finished⟩ := link
  subst hopen
  simp only [send, Channel.offer, Bool.not_true, Bool.false_eq_true, if_false,
    if_neg (Nat.not_lt.mpr hfull)]

theorem link_await : (await value ⟨worker, link, token⟩).link = link := by
  simp only [await]
  split <;> rfl

theorem token_await : (await value ⟨worker, link, token⟩).token = token := by
  simp only [await]
  split <;> rfl

theorem accepted_await : (await value ⟨worker, link, token⟩).worker.accepted = worker.accepted := by
  simp only [await]
  split <;> rfl

/-- A value that is not sent at once: the worker is suspended with it, or gives up. -/
theorem await_moves {kept : Nat} (hphase : worker.phase = .offering value)
    (hopen : link.channel.receiving = true)
    (hcrowded : link.channel.capacity ≤ link.channel.buffer.size + kept) :
    Moves rules kept ⟨worker, link, token⟩ none (await value ⟨worker, link, token⟩) := by
  cases htoken : token.isCancelled with
  | true =>
      simp only [await, htoken, if_true]
      exact .giveUp value (by simp only [Worker.inHand?, hphase]) (.inr ⟨hopen, hcrowded⟩) htoken
  | false =>
      simp only [await, htoken, Bool.false_eq_true, if_false]
      exact .suspend value hphase hopen hcrowded htoken

theorem evaluate_moves (hphase : worker.phase = .evaluating) :
    Moves rules 0 ⟨worker, link, token⟩ none (evaluate rules ⟨worker, link, token⟩) := by
  simp only [evaluate]
  cases hcall : rules.predicate worker.next with
  | decided accepted cancels =>
      cases accepted with
      | true => exact .accept cancels hphase hcall
      | false => exact .reject cancels hphase hcall
  | failed reason => exact .fail reason hphase hcall
  | panicked payload => exact .panic payload hphase hcall

/-- Sending, from a state in which the token does not stand in the way. -/
theorem send_moves (blocked : Station → Station)
    (hhand : worker.inHand? = some value)
    (htoken : worker.isWaiting = true → token.isCancelled = false)
    (hstep : step rules ⟨worker, link, token⟩ = send rules ⟨worker, link, token⟩ value blocked)
    (hblocked : link.channel.receiving = true → link.channel.capacity ≤ link.channel.buffer.size →
      (blocked ⟨worker, link, token⟩).worker.accepted = worker.accepted ∧
        Moves rules 0 ⟨worker, link, token⟩ none (blocked ⟨worker, link, token⟩)) :
    Moves rules 0 ⟨worker, link, token⟩ (sends? rules ⟨worker, link, token⟩)
      (step rules ⟨worker, link, token⟩) := by
  cases hopen : link.channel.receiving with
  | false =>
      rw [send_of_closed blocked hopen] at hstep
      rw [sends?_of_step_eq hstep rfl, hstep]
      exact .disconnect value hhand htoken hopen
  | true =>
      by_cases hroom : link.channel.buffer.size < link.channel.capacity
      · rw [send_of_room blocked hopen hroom] at hstep
        have hsends : sends? rules ⟨worker, link, token⟩ = some value := by
          rw [sends?, hstep, if_neg (Nat.succ_ne_self _), hhand]
        rw [hsends, hstep]
        exact .send value hhand htoken hopen hroom
      · rw [send_of_full blocked hopen (Nat.not_lt.mp hroom)] at hstep
        obtain ⟨haccepted, hmoves⟩ := hblocked hopen (Nat.not_lt.mp hroom)
        rw [sends?_of_step_eq hstep haccepted, hstep]
        exact hmoves

theorem accepted_evaluate :
    (evaluate rules ⟨worker, link, token⟩).worker.accepted = worker.accepted := by
  simp only [evaluate]
  split <;> rfl

/-- Every move that is offered is of one of the kinds. -/
theorem step_moves (station : Station) (h : station.isBlocked = false) :
    Moves rules 0 station (station.sends? rules) (station.step rules) := by
  obtain ⟨worker, link, token⟩ := station
  -- all moves but a send leave the count of sent values alone
  have close {after : Station} (hmoves : Moves rules 0 ⟨worker, link, token⟩ none after)
      (hstep : step rules ⟨worker, link, token⟩ = after)
      (haccepted : after.worker.accepted = worker.accepted) :
      Moves rules 0 ⟨worker, link, token⟩ (sends? rules ⟨worker, link, token⟩)
        (step rules ⟨worker, link, token⟩) := by
    rw [sends?_of_step_eq hstep haccepted, hstep]
    exact hmoves
  cases hphase : worker.phase with
  | ready =>
      by_cases hlt : worker.evaluated < worker.range.length
      · cases htoken : token.isCancelled with
        | true =>
            refine close (.quit hphase hlt htoken) ?_ rfl
            simp only [step, hphase, if_pos hlt, htoken, if_true, stop]
        | false =>
            refine close (.enter hphase hlt htoken) ?_ rfl
            simp only [step, hphase, if_pos hlt, htoken, Bool.false_eq_true, if_false]
      · refine close (.complete hphase (Nat.not_lt.mp hlt)) ?_ rfl
        simp only [step, hphase, if_neg hlt, stop]
  | evaluating => exact close (evaluate_moves hphase) (by simp only [step, hphase]) accepted_evaluate
  | offering value =>
      have hhand : worker.inHand? = some value := by simp only [Worker.inHand?, hphase]
      exact send_moves (await value) hhand (fun h => by simp [Worker.isWaiting, hphase] at h)
        (by simp only [step, hphase])
        fun hopen hfull => ⟨accepted_await, await_moves hphase hopen hfull⟩
  | waiting value =>
      simp only [isBlocked, hphase] at h
      have hhand : worker.inHand? = some value := by simp only [Worker.inHand?, hphase]
      cases htoken : token.isCancelled with
      | true =>
          refine close (.giveUp value hhand (.inl (by simp only [Worker.isWaiting, hphase])) htoken)
            ?_ rfl
          simp only [step, hphase, htoken, if_true, stop]
      | false =>
          refine send_moves id hhand (fun _ => htoken)
            (by simp only [step, hphase, htoken, Bool.false_eq_true, if_false]) fun hopen hfull => ?_
          -- a worker that finds no room makes no move
          rw [htoken, Channel.isFull, hopen, decide_eq_true hfull] at h
          simp at h
  | yielding => exact close (.goOn hphase) (by simp only [step, hphase]) rfl
  | stopped ending remains =>
      cases remains with
      | sender => exact close (.dropSender ending hphase) (by simp only [step, hphase]) rfl
      | ticket => exact close (.dropTicket ending hphase) (by simp only [step, hphase]) rfl
      | alarm => exact close (.alarm ending hphase) (by simp only [step, hphase]) rfl
      | outcome => simp [isBlocked, hphase] at h
      | nothing => simp [isBlocked, hphase] at h

theorem holds_afterValue (rules : Rules) (evaluated accepted count : Nat) :
    ({ worker with evaluated, accepted, phase := afterValue rules count } : Worker).holdsSender =
      true := by
  rcases afterValue_cases rules count with h | h <;> simp only [Worker.holdsSender, h]

theorem not_holds_afterTicket (rules : Rules) (worker : Worker) (ending : Ending) :
    ({ worker with phase := .stopped ending (ending.afterTicket rules) } : Worker).holdsTicket =
      false := by
  rcases afterTicket_cases rules ending with h | h <;> simp only [Worker.holdsTicket, h]

/-- What a move does to the result channel, and to what the worker holds of it. -/
inductive Touches (before : Station) : Option Nat → Station → Prop where
  | nothing {after} (hlink : after.link = before.link)
      (hsender : after.worker.holdsSender = before.worker.holdsSender)
      (hticket : after.worker.holdsTicket = before.worker.holdsTicket) : Touches before none after
  | put {after} (value : Nat) (hlink : after.link = before.link.put value)
      (hopen : before.link.channel.receiving = true)
      (hroom : before.link.channel.buffer.size < before.link.channel.capacity)
      (hbefore : before.worker.holdsSender = true) (hafter : after.worker.holdsSender = true) :
      Touches before (some value) after
  | loseSender {after} (hlink : after.link = before.link.dropSender)
      (hbefore : before.worker.holdsSender = true) (hafter : after.worker.holdsSender = false)
      (hticket : after.worker.holdsTicket = true) : Touches before none after
  | loseTicket {after} (hlink : after.link = before.link.dropTicket)
      (hbefore : before.worker.holdsSender = false) (hafter : after.worker.holdsSender = false)
      (hticket : before.worker.holdsTicket = true) (hgone : after.worker.holdsTicket = false) :
      Touches before none after

namespace Moves

variable {kept : Nat} {before after : Station} {sent : Option Nat}

/-- A worker keeps its id and its range. -/
theorem id_range (h : Moves rules kept before sent after) :
    after.worker.id = before.worker.id ∧ after.worker.range = before.worker.range := by
  cases h <;> exact ⟨rfl, rfl⟩

/-- No move of a worker takes a cancellation back. -/
theorem token_cancelled (h : Moves rules kept before sent after)
    (htoken : before.token.isCancelled = true) : after.token.isCancelled = true := by
  cases h with
  | fail =>
      dsimp only
      split
      · exact Token.isCancelled_cancel _ _
      · exact htoken
  | reject cancels _ _ | accept cancels _ _ => exact Token.isCancelled_cancel? htoken cancels
  | alarm => exact Token.isCancelled_cancel _ _
  | _ => exact htoken

/-- A worker is cancelled by its token only, and cut off by the loss of the drain only, while it can
send. -/
theorem ending_cases (h : Moves rules kept before sent after) {ending : Ending}
    (hending : after.worker.ending? = some ending) :
    before.worker.ending? = some ending ∨
      (ending = .cancelled → before.token.isCancelled = true) ∧
        (ending = .disconnected →
          before.link.channel.receiving = false ∧ before.worker.holdsSender = true) := by
  cases h with
  | reject _ _ _ | send _ _ _ _ _ =>
      rw [ending?_afterValue] at hending
      cases hending
  | enter _ _ _ | accept _ _ _ | suspend _ _ _ _ _ | goOn _ => cases hending
  | complete _ _ | fail _ _ _ | panic _ _ _ =>
      cases hending
      exact .inr ⟨nofun, nofun⟩
  | quit _ _ htoken =>
      cases hending
      exact .inr ⟨fun _ => htoken, nofun⟩
  | disconnect _ hhand _ hclosed =>
      cases hending
      exact .inr ⟨nofun, fun _ => ⟨hclosed, Worker.holdsSender_of_inHand? hhand⟩⟩
  | giveUp _ _ _ htoken =>
      cases hending
      exact .inr ⟨fun _ => htoken, nofun⟩
  | dropSender _ hphase | dropTicket _ hphase | alarm _ hphase =>
      cases hending
      exact .inl (by simp only [Worker.ending?, hphase])

theorem touches (h : Moves rules kept before sent after) : Touches before sent after := by
  have keep {worker next : Worker} {link : ResultChannel} {token other : Token}
      (hbefore : worker.holdsSender = true) (hafter : next.holdsSender = true) :
      Touches ⟨worker, link, token⟩ none ⟨next, link, other⟩ := by
    refine .nothing rfl (hafter.trans hbefore.symm) ?_
    exact (Worker.holdsTicket_of_holdsSender hafter).trans
      (Worker.holdsTicket_of_holdsSender hbefore).symm
  cases h with
  | enter hphase _ _ | complete hphase _ | quit hphase _ _ | fail _ hphase _ | panic _ hphase _
  | accept _ hphase _ | suspend _ hphase _ _ _ | goOn hphase =>
      exact keep (by simp only [Worker.holdsSender, hphase]) rfl
  | reject _ hphase _ =>
      exact keep (by simp only [Worker.holdsSender, hphase]) (holds_afterValue rules _ _ _)
  | disconnect _ hhand _ _ | giveUp _ hhand _ _ => exact keep (Worker.holdsSender_of_inHand? hhand) rfl
  | send value hhand _ hopen hroom =>
      exact .put value rfl hopen hroom (Worker.holdsSender_of_inHand? hhand)
        (holds_afterValue rules _ _ _)
  | dropSender _ hphase => exact .loseSender rfl (by simp only [Worker.holdsSender, hphase]) rfl rfl
  | dropTicket ending hphase =>
      exact .loseTicket rfl (by simp only [Worker.holdsSender, hphase])
        (Worker.not_holdsSender_of_not_holdsTicket (not_holds_afterTicket rules _ ending))
        (by simp only [Worker.holdsTicket, hphase]) (not_holds_afterTicket rules _ ending)
  | alarm _ hphase =>
      exact .nothing rfl (by simp only [Worker.holdsSender, hphase])
        (by simp only [Worker.holdsTicket, hphase])

/-- A worker cannot drop the drain or end it. -/
theorem drain_eq (h : Moves rules kept before sent after) :
    after.link.channel.receiving = before.link.channel.receiving ∧
      after.link.finished = before.link.finished := by
  cases h.touches with
  | nothing hlink _ _ | put _ hlink _ _ _ _ | loseSender hlink _ _ _ | loseTicket hlink _ _ _ _ =>
      rw [hlink]
      exact ⟨rfl, rfl⟩

end Moves

end Station

end ParallelFilter
