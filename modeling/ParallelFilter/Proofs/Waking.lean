import ParallelFilter.Barrier.Gathering
import ParallelFilter.Proofs.Arrays
import ParallelFilter.Proofs.Channels
import ParallelFilter.Proofs.Runs
import Mathlib.Logic.Function.Iterate
import Mathlib.Tactic.IntervalCases

/-! Why a barrier loses no wake-up. A guest that fell asleep had registered before it found a ticket
held, so before the only notification there is, and that one comes after the count has reached zero.
So whoever sleeps hears of it, and nobody hears of it early. Where each guest stands in its loop, as
against the count and the notifications, is the invariant; there is one case for each place. -/

namespace ParallelFilter

variable {barrier : Barrier} {guest : Guest}

/-- Where a guest can stand, as the barrier is. -/
inductive Guest.Placed (barrier : Barrier) : Guest → Prop where
  | unstarted : Placed barrier ⟨.fresh, .unstarted⟩
  | fresh : Placed barrier ⟨.fresh, .running⟩
  | registered (seen : Nat) (hseen : seen ≤ barrier.notifications) :
      Placed barrier ⟨.registered seen, .running⟩
  /-- It has found a ticket held, so it has registered before the notification. -/
  | dozing (hexpected : 0 < barrier.expected) : Placed barrier ⟨.asleep 0, .running⟩
  | pending (hexpected : 0 < barrier.expected) : Placed barrier ⟨.asleep 0, .pending⟩
  | ready (hcomplete : barrier.remaining = 0) : Placed barrier ⟨.released, .ready⟩

/-- How many moves a poll makes at most, once the barrier is complete and its waiters are notified. -/
def Waiter.movesLeft : Waiter → Nat
  | .released => 0
  | .registered _ => 1
  | .fresh => 2
  | .asleep _ => 3

namespace Guest.Placed

/-- A guest stays where it is as long as the barrier only goes on. -/
theorem mono {later : Barrier} (h : guest.Placed barrier)
    (hexpected : later.expected = barrier.expected)
    (hremaining : barrier.remaining = 0 → later.remaining = 0)
    (hnotifications : barrier.notifications ≤ later.notifications) : guest.Placed later := by
  cases h with
  | unstarted => exact .unstarted
  | fresh => exact .fresh
  | registered seen hseen => exact .registered seen (Nat.le_trans hseen hnotifications)
  | dozing hpos => exact .dozing (hexpected ▸ hpos)
  | pending hpos => exact .pending (hexpected ▸ hpos)
  | ready hcomplete => exact .ready (hremaining hcomplete)

/-- What a move of a poll leads to. Nobody is notified while a ticket is held. -/
theorem proceed (h : guest.Placed barrier) (hrunning : guest.poll = .running)
    (hquiet : barrier.remaining ≠ 0 → barrier.notifications = 0 ∧ 0 < barrier.expected) :
    (guest.proceed barrier).Placed barrier := by
  cases h with
  | unstarted | pending _ | ready _ => cases hrunning
  | fresh => exact .registered barrier.notifications (Nat.le_refl _)
  | registered seen hseen =>
      by_cases hcomplete : barrier.isComplete = true
      · have hmoved : Guest.proceed ⟨.registered seen, .running⟩ barrier = ⟨.released, .ready⟩ := by
          simp [Guest.proceed, Waiter.step, hcomplete]
        rw [hmoved]
        exact .ready ((Barrier.isComplete_iff barrier).1 hcomplete)
      · have hmoved : Guest.proceed ⟨.registered seen, .running⟩ barrier =
            ⟨.asleep seen, .running⟩ := by
          simp [Guest.proceed, Waiter.step, Waiter.isParked, hcomplete]
        obtain ⟨hnone, hpos⟩ := hquiet fun hzero => hcomplete ((Barrier.isComplete_iff barrier).2 hzero)
        obtain rfl : seen = 0 := Nat.le_zero.1 (hnone ▸ hseen)
        rw [hmoved]
        exact .dozing hpos
  | dozing hpos =>
      by_cases hnone : barrier.notifications = 0
      · have hmoved : Guest.proceed ⟨.asleep 0, .running⟩ barrier = ⟨.asleep 0, .pending⟩ := by
          simp [Guest.proceed, Waiter.step, Waiter.isParked, hnone]
        rw [hmoved]
        exact .pending hpos
      · have hmoved : Guest.proceed ⟨.asleep 0, .running⟩ barrier = ⟨.fresh, .running⟩ := by
          simp [Guest.proceed, Waiter.step, Waiter.isParked, hnone]
        rw [hmoved]
        exact .fresh

/-- Once all is over a poll comes closer to its end with each move, and is ready there. -/
theorem movesLeft_proceed (h : guest.Placed barrier) (hrunning : guest.poll = .running)
    (hcomplete : barrier.remaining = 0) (hnotified : 0 < barrier.expected → barrier.notifications ≠ 0) :
    (guest.proceed barrier).waiter.movesLeft + 1 = guest.waiter.movesLeft ∧
      ((guest.proceed barrier).poll = .running ∨ (guest.proceed barrier).poll = .ready) := by
  have hover := (Barrier.isComplete_iff barrier).2 hcomplete
  cases h with
  | unstarted | pending _ | ready _ => cases hrunning
  | fresh => exact ⟨rfl, .inl rfl⟩
  | registered seen hseen => simp [Guest.proceed, Waiter.step, Waiter.movesLeft, hover]
  | dozing hpos => simp [Guest.proceed, Waiter.step, Waiter.isParked, Waiter.movesLeft, hnotified hpos]

theorem movesLeft_pos (h : guest.Placed barrier) (hrunning : guest.poll = .running) :
    0 < guest.waiter.movesLeft ∧ guest.waiter.movesLeft ≤ 3 := by
  cases h with
  | unstarted | pending _ | ready _ => cases hrunning
  | fresh | registered _ _ | dozing _ => simp [Waiter.movesLeft]

/-- The moves of a poll that nobody comes between are those of `Waiter.poll`, up to its release or
back to sleep. -/
theorem exists_count (h : guest.Placed barrier)
    (hidle : guest.poll = .unstarted ∨ guest.poll = .pending) :
    ∃ count, (∀ earlier < count,
        ((Guest.proceed · barrier)^[earlier] { guest with poll := .running }).poll = .running) ∧
      (Guest.proceed · barrier)^[count] { guest with poll := .running } =
        ⟨guest.waiter.poll barrier, if guest.waiter.poll barrier = .released then .ready
          else .pending⟩ := by
  cases h with
  | fresh | registered _ _ | dozing _ | ready _ => rcases hidle with hidle | hidle <;> cases hidle
  | unstarted =>
      by_cases hcomplete : barrier.isComplete = true
      · refine ⟨2, fun earlier hearlier => ?_, ?_⟩
        · interval_cases earlier <;> rfl
        · simp [Guest.proceed, Waiter.poll, Waiter.step, hcomplete]
      · refine ⟨3, fun earlier hearlier => ?_, ?_⟩
        · interval_cases earlier <;> simp [Guest.proceed, Waiter.step, Waiter.isParked, hcomplete]
        · simp [Guest.proceed, Waiter.poll, Waiter.step, Waiter.isParked, hcomplete]
  | pending hpos =>
      by_cases hnone : barrier.notifications = 0
      · refine ⟨1, fun earlier hearlier => ?_, ?_⟩
        · obtain rfl := Nat.lt_one_iff.1 hearlier
          rfl
        · simp [Guest.proceed, Waiter.poll, Waiter.step, Waiter.isParked, hnone]
      · by_cases hcomplete : barrier.isComplete = true
        · refine ⟨3, fun earlier hearlier => ?_, ?_⟩
          · interval_cases earlier <;> simp [Guest.proceed, Waiter.step, Waiter.isParked, hnone]
          · simp [Guest.proceed, Waiter.poll, Waiter.step, Waiter.isParked, hnone, hcomplete]
        · refine ⟨4, fun earlier hearlier => ?_, ?_⟩
          · interval_cases earlier <;>
              simp [Guest.proceed, Waiter.step, Waiter.isParked, hnone, hcomplete]
          · simp [Guest.proceed, Waiter.poll, Waiter.step, Waiter.isParked, hnone, hcomplete]

end Guest.Placed

namespace Gathering

variable {expected index : Nat} {gathering next last : Gathering} {event : Event} {events : List Event}

/-- What each event needs, and what it does. -/
inductive Moves (gathering : Gathering) : Event → Gathering → Prop where
  | lower {ticket : Nat} (hticket : ticket < gathering.tickets.size)
      (hheld : gathering.tickets[ticket] = .held) :
      Moves gathering (.lower ticket) { gathering with
        barrier := gathering.barrier.lower
        tickets := gathering.tickets.set ticket (if gathering.barrier.remaining = 1 then .notifying
          else .gone) }
  | notify {ticket : Nat} (hticket : ticket < gathering.tickets.size)
      (hnotifying : gathering.tickets[ticket] = .notifying) :
      Moves gathering (.notify ticket) { gathering with
        barrier := gathering.barrier.notify
        tickets := gathering.tickets.set ticket .gone }
  | join : Moves gathering .join { gathering with guests := gathering.guests.push ⟨.fresh, .unstarted⟩ }
  | poll {guest : Nat} (hguest : guest < gathering.guests.size)
      (hidle : gathering.guests[guest].poll = .unstarted ∨ gathering.guests[guest].poll = .pending) :
      Moves gathering (.poll guest) { gathering with
        guests := gathering.guests.set guest { gathering.guests[guest] with poll := .running } }
  | proceed {guest : Nat} (hguest : guest < gathering.guests.size)
      (hrunning : gathering.guests[guest].poll = .running) :
      Moves gathering (.proceed guest) { gathering with
        guests := gathering.guests.set guest (gathering.guests[guest].proceed gathering.barrier) }

theorem step_eq_some : gathering.step event = some next ↔ gathering.Moves event next := by
  constructor
  · intro hstep
    cases event with
    | lower ticket =>
        obtain ⟨hticket, hstep⟩ := Option.dite_none_right_eq_some.1 hstep
        obtain ⟨hheld, hnext⟩ := Option.ite_none_right_eq_some.1 hstep
        cases hnext
        exact .lower hticket hheld
    | notify ticket =>
        obtain ⟨hticket, hstep⟩ := Option.dite_none_right_eq_some.1 hstep
        obtain ⟨hnotifying, hnext⟩ := Option.ite_none_right_eq_some.1 hstep
        cases hnext
        exact .notify hticket hnotifying
    | join =>
        cases hstep
        exact .join
    | poll guest =>
        obtain ⟨hguest, hstep⟩ := Option.dite_none_right_eq_some.1 hstep
        split at hstep
        · rename_i hidle
          cases hstep
          exact .poll hguest (.inl hidle)
        · rename_i hidle
          cases hstep
          exact .poll hguest (.inr hidle)
        · cases hstep
        · cases hstep
    | proceed guest =>
        obtain ⟨hguest, hstep⟩ := Option.dite_none_right_eq_some.1 hstep
        obtain ⟨hrunning, hnext⟩ := Option.ite_none_right_eq_some.1 hstep
        cases hnext
        exact .proceed hguest hrunning
  · intro hmoves
    cases hmoves with
    | lower hticket hheld => rw [step, dif_pos hticket, if_pos hheld]
    | notify hticket hnotifying => rw [step, dif_pos hticket, if_pos hnotifying]
    | join => rfl
    | poll hguest hidle =>
        rw [step, dif_pos hguest]
        rcases hidle with hidle | hidle <;> rw [hidle]
    | proceed hguest hrunning => rw [step, dif_pos hguest, if_pos hrunning]

/-- The count is that of the tickets held, the notification comes after the last of them, and every
guest stands where it can. -/
structure Orderly (expected : Nat) (gathering : Gathering) : Prop where
  size : gathering.tickets.size = expected
  expected_eq : gathering.barrier.expected = expected
  remaining : gathering.barrier.remaining = gathering.tickets.countP (· == .held)
  /-- There is one notification in all, and it is due when the count reaches zero. -/
  early : gathering.barrier.remaining ≠ 0 →
    gathering.barrier.notifications + gathering.tickets.countP (· == .notifying) = 0
  due : gathering.barrier.remaining = 0 → 0 < expected →
    gathering.barrier.notifications + gathering.tickets.countP (· == .notifying) = 1
  guests : ∀ guest ∈ gathering.guests, guest.Placed gathering.barrier

namespace Orderly

theorem ofExpected (expected : Nat) : (ofExpected expected).Orderly expected where
  size := Array.size_replicate
  expected_eq := rfl
  remaining := by
    rw [Gathering.ofExpected, Array.countP_replicate]
    rfl
  early _ := by
    rw [Gathering.ofExpected, Array.countP_replicate]
    rfl
  due hzero hpos := absurd hzero (Nat.ne_of_gt hpos)
  guests := nofun

variable (h : gathering.Orderly expected)

include h

/-- While a ticket is held there was no notification. -/
theorem quiet (hheld : gathering.barrier.remaining ≠ 0) :
    gathering.barrier.notifications = 0 ∧ 0 < gathering.barrier.expected := by
  have hnone := h.early hheld
  have hle : gathering.tickets.countP (· == .held) ≤ gathering.tickets.size := Array.countP_le_size
  rw [← h.remaining, h.size, ← h.expected_eq] at hle
  exact ⟨by omega, by omega⟩

theorem remaining_eq_zero :
    gathering.barrier.remaining = 0 ↔ ∀ ticket ∈ gathering.tickets, ticket ≠ .held := by
  rw [h.remaining, Array.countP_eq_zero]
  simp only [beq_iff_eq]

/-- When no ticket has anything left to do, the count is zero and the guests are notified, if there
were any tickets. -/
theorem settled (hgone : ∀ ticket ∈ gathering.tickets, ticket = .gone) :
    gathering.barrier.remaining = 0 ∧
      (0 < gathering.barrier.expected → gathering.barrier.notifications ≠ 0) := by
  have hzero : gathering.barrier.remaining = 0 := h.remaining_eq_zero.2 fun ticket hticket => by
    rw [hgone ticket hticket]
    decide
  have hnone : gathering.tickets.countP (· == .notifying) = 0 := by
    rw [Array.countP_eq_zero]
    intro ticket hticket
    rw [hgone ticket hticket]
    decide
  refine ⟨hzero, fun hpos => ?_⟩
  have hdue := h.due hzero (h.expected_eq ▸ hpos)
  omega

theorem lower {ticket : Nat} (hticket : ticket < gathering.tickets.size)
    (hheld : gathering.tickets[ticket] = .held) : Orderly expected { gathering with
      barrier := gathering.barrier.lower
      tickets := gathering.tickets.set ticket (if gathering.barrier.remaining = 1 then .notifying
        else .gone) } := by
  have hlost : (gathering.tickets.set ticket
      (if gathering.barrier.remaining = 1 then .notifying else .gone)).countP (· == .held) + 1 =
        gathering.tickets.countP (· == .held) := by
    apply countP_set_of_lost hticket
    · rw [hheld]
      rfl
    · split <;> rfl
  have hremaining := h.remaining
  have hheldPos : gathering.barrier.remaining ≠ 0 := by omega
  have hnone := h.early hheldPos
  refine ⟨?_, h.expected_eq, ?_, fun hmore => ?_, fun hzero _ => ?_,
    fun guest hguest => (h.guests guest hguest).mono rfl (fun hzero => absurd hzero hheldPos)
      (Nat.le_refl _)⟩
  · rw [Array.size_set]
    exact h.size
  · dsimp only [Barrier.lower]
    omega
  · dsimp only [Barrier.lower] at hmore ⊢
    rw [if_neg (by omega), countP_set_of_eq hticket (by rw [hheld]; rfl)]
    exact hnone
  · dsimp only [Barrier.lower] at hzero ⊢
    rw [if_pos (by omega), countP_set_of_gained hticket (by rw [hheld]; rfl) rfl]
    exact congrArg Nat.succ hnone

theorem notify {ticket : Nat} (hticket : ticket < gathering.tickets.size)
    (hnotifying : gathering.tickets[ticket] = .notifying) : Orderly expected { gathering with
      barrier := gathering.barrier.notify
      tickets := gathering.tickets.set ticket .gone } := by
  have hlost : (gathering.tickets.set ticket .gone).countP (· == .notifying) + 1 =
      gathering.tickets.countP (· == .notifying) := by
    apply countP_set_of_lost hticket
    · rw [hnotifying]
      rfl
    · rfl
  have hheld : (gathering.tickets.set ticket .gone).countP (· == .held) =
      gathering.tickets.countP (· == .held) := by
    apply countP_set_of_eq hticket
    rw [hnotifying]
    rfl
  refine ⟨?_, h.expected_eq, h.remaining.trans hheld.symm, fun hmore => ?_, fun hzero hpos => ?_,
    fun guest hguest => ?_⟩
  · rw [Array.size_set]
    exact h.size
  · -- a ticket that notifies has brought the count to zero
    have hnone := h.early hmore
    omega
  · have hdue := h.due hzero hpos
    dsimp only [Barrier.notify]
    omega
  · exact (h.guests guest hguest).mono rfl id (Nat.le_succ _)

theorem moves (hmoves : gathering.Moves event next) : next.Orderly expected := by
  cases hmoves with
  | lower hticket hheld => exact h.lower hticket hheld
  | notify hticket hnotifying => exact h.notify hticket hnotifying
  | join =>
      refine ⟨h.size, h.expected_eq, h.remaining, h.early, h.due, fun guest hguest => ?_⟩
      rcases Array.mem_push.1 hguest with hguest | rfl
      · exact h.guests guest hguest
      · exact .unstarted
  | @poll index hguest hidle =>
      refine ⟨h.size, h.expected_eq, h.remaining, h.early, h.due, forall_mem_set hguest h.guests ?_⟩
      have hplaced := h.guests _ (Array.getElem_mem hguest)
      generalize gathering.guests[index] = guest at hplaced hidle ⊢
      cases hplaced with
      | unstarted => exact .fresh
      | pending hpos => exact .dozing hpos
      | fresh | registered _ _ | dozing _ | ready _ => rcases hidle with hidle | hidle <;> cases hidle
  | proceed hguest hrunning =>
      refine ⟨h.size, h.expected_eq, h.remaining, h.early, h.due, forall_mem_set hguest h.guests ?_⟩
      exact (h.guests _ (Array.getElem_mem hguest)).proceed hrunning h.quiet

theorem follow (hrun : gathering.follow events = some last) : last.Orderly expected :=
  foldlM_induction (P := Orderly expected)
    (fun _ _ _ _ hkept hstep => hkept.moves (step_eq_some.1 hstep)) h hrun

end Orderly

section Alone

/-! A drop and a poll that nobody comes between. -/

/-- A ticket that goes in one go. -/
theorem follow_drop {ticket : Nat} (hticket : ticket < gathering.tickets.size)
    (hheld : gathering.tickets[ticket] = .held) : ∃ events, (∀ event ∈ events, event = .notify ticket) ∧
      gathering.follow (.lower ticket :: events) = some { gathering with
        barrier := gathering.barrier.arrive
        tickets := gathering.tickets.set ticket .gone } := by
  have hlower := step_eq_some.2 (Moves.lower hticket hheld)
  by_cases hlast : gathering.barrier.remaining = 1
  · refine ⟨[.notify ticket], fun event hevent => List.mem_singleton.1 hevent, ?_⟩
    rw [follow, foldlM_cons_eq_some]
    refine ⟨_, hlower, ?_⟩
    rw [foldlM_cons_eq_some]
    refine ⟨_, step_eq_some.2 (.notify (by rwa [Array.size_set]) ?_), ?_⟩
    · rw [Array.getElem_set_self, if_pos hlast]
    · simp only [Array.set_set, Barrier.arrive, if_pos hlast]
      rfl
  · refine ⟨[], nofun, ?_⟩
    rw [follow, foldlM_cons_eq_some]
    refine ⟨_, hlower, ?_⟩
    rw [if_neg hlast, Barrier.arrive, if_neg hlast]
    rfl

theorem exists_step_poll {guest : Guest} (hguest : gathering.guests[index]? = some guest)
    (hidle : guest.poll = .unstarted ∨ guest.poll = .pending) : ∃ next,
    gathering.step (.poll index) = some next ∧
      next.guests[index]? = some { guest with poll := .running } ∧
      next.barrier = gathering.barrier ∧ next.tickets = gathering.tickets := by
  obtain ⟨hindex, rfl⟩ := Array.getElem?_eq_some_iff.1 hguest
  exact ⟨_, step_eq_some.2 (.poll hindex hidle), Array.getElem?_set_self hindex, rfl, rfl⟩

theorem exists_step_proceed {guest : Guest} (hguest : gathering.guests[index]? = some guest)
    (hrunning : guest.poll = .running) : ∃ next,
    gathering.step (.proceed index) = some next ∧
      next.guests[index]? = some (guest.proceed gathering.barrier) ∧
      next.barrier = gathering.barrier ∧ next.tickets = gathering.tickets := by
  obtain ⟨hindex, rfl⟩ := Array.getElem?_eq_some_iff.1 hguest
  exact ⟨_, step_eq_some.2 (.proceed hindex hrunning), Array.getElem?_set_self hindex, rfl, rfl⟩

/-- Several moves of a poll, one right after the other. -/
theorem follow_proceed (count : Nat) {guest : Guest}
    (hguest : gathering.guests[index]? = some guest)
    (hrunning : ∀ earlier < count, ((Guest.proceed · gathering.barrier)^[earlier] guest).poll =
      .running) :
    ∃ next, gathering.follow (List.replicate count (.proceed index)) = some next ∧
      next.guests[index]? = some ((Guest.proceed · gathering.barrier)^[count] guest) ∧
      next.barrier = gathering.barrier ∧ next.tickets = gathering.tickets := by
  induction count generalizing gathering guest with
  | zero => exact ⟨gathering, rfl, hguest, rfl, rfl⟩
  | succ count ih =>
      obtain ⟨moved, hmoved, hthere, hbarrier, htickets⟩ :=
        exists_step_proceed hguest (hrunning 0 (Nat.succ_pos count))
      obtain ⟨next, hnext, hlater, hkept⟩ := ih hthere fun earlier hearlier => by
        rw [hbarrier]
        exact hrunning (earlier + 1) (Nat.succ_lt_succ hearlier)
      rw [hbarrier] at hlater
      rw [hbarrier, htickets] at hkept
      exact ⟨next, foldlM_cons_eq_some.2 ⟨moved, hmoved, hnext⟩, hlater, hkept⟩

/-- A poll that is made in one go is the same as `Waiter.poll`. -/
theorem follow_poll {guest : Guest} (hguest : gathering.guests[index]? = some guest)
    (hplaced : guest.Placed gathering.barrier)
    (hidle : guest.poll = .unstarted ∨ guest.poll = .pending) :
    ∃ count next, gathering.follow (.poll index :: List.replicate count (.proceed index)) = some next ∧
      next.guests[index]? = some ⟨guest.waiter.poll gathering.barrier,
        if guest.waiter.poll gathering.barrier = .released then .ready else .pending⟩ ∧
      next.barrier = gathering.barrier ∧ next.tickets = gathering.tickets := by
  obtain ⟨count, hrunning, hends⟩ := hplaced.exists_count hidle
  obtain ⟨begun, hbegun, hthere, hbarrier, htickets⟩ := exists_step_poll hguest hidle
  rw [← hbarrier] at hrunning
  obtain ⟨next, hnext, hlater, hkept⟩ := follow_proceed count hthere hrunning
  rw [hbarrier, hends] at hlater
  rw [hbarrier, htickets] at hkept
  exact ⟨count, next, foldlM_cons_eq_some.2 ⟨begun, hbegun, hnext⟩, hlater, hkept⟩

end Alone

/-- Once the tickets are gone, nothing becomes of them, and a guest is moved by its own poll only. -/
theorem Moves.of_gone (hgone : ∀ ticket ∈ gathering.tickets, ticket = .gone) {guest : Guest}
    (hguest : gathering.guests[index]? = some guest)
    (hbusy : guest.poll = .running ∨ guest.poll = .ready) (hmoves : gathering.Moves event next) :
    next.tickets = gathering.tickets ∧
      (event = .proceed index ∧ guest.poll = .running ∧
          next.guests[index]? = some (guest.proceed gathering.barrier) ∨
        event ≠ .proceed index ∧ next.guests[index]? = some guest) := by
  obtain ⟨hindex, rfl⟩ := Array.getElem?_eq_some_iff.1 hguest
  cases hmoves with
  | lower hticket hheld =>
      exact absurd (hheld.symm.trans (hgone _ (Array.getElem_mem hticket))) (by decide)
  | notify hticket hnotifying =>
      exact absurd (hnotifying.symm.trans (hgone _ (Array.getElem_mem hticket))) (by decide)
  | join =>
      refine ⟨rfl, .inr ⟨nofun, ?_⟩⟩
      rw [Array.getElem?_push_lt hindex]
  | @poll other hother hidle =>
      refine ⟨rfl, .inr ⟨nofun, ?_⟩⟩
      have hne : other ≠ index := by
        rintro rfl
        rcases hbusy with hbusy | hbusy <;> rw [hbusy] at hidle <;> exact absurd hidle (by decide)
      rw [Array.getElem?_set_ne hother hne, hguest]
  | @proceed other hother hrunning =>
      refine ⟨rfl, ?_⟩
      by_cases hsame : other = index
      · subst hsame
        exact .inl ⟨rfl, hrunning, Array.getElem?_set_self hother⟩
      · refine .inr ⟨fun hevent => hsame (Event.proceed.inj hevent), ?_⟩
        rw [Array.getElem?_set_ne hother hsame, hguest]

/-- After the last drop a poll that runs comes closer to its end with each of its moves, whatever
else happens. -/
theorem Orderly.follow_of_gone (h : gathering.Orderly expected)
    (hgone : ∀ ticket ∈ gathering.tickets, ticket = .gone) {guest : Guest}
    (hguest : gathering.guests[index]? = some guest)
    (hbusy : guest.poll = .running ∨ guest.poll = .ready)
    (hrun : gathering.follow events = some last) : ∃ later, last.guests[index]? = some later ∧
      (later.poll = .ready ∨ later.poll = .running ∧
        events.count (.proceed index) + later.waiter.movesLeft ≤ guest.waiter.movesLeft) := by
  induction events generalizing gathering guest with
  | nil =>
      cases hrun
      refine ⟨guest, hguest, hbusy.symm.imp_right fun hrunning => ⟨hrunning, ?_⟩⟩
      rw [List.count_nil, Nat.zero_add]
  | cons event events ih =>
      obtain ⟨next, hstep, hrest⟩ := foldlM_cons_eq_some.1 hrun
      have hmoves := step_eq_some.1 hstep
      obtain ⟨htickets, ⟨rfl, hrunning, hnext⟩ | ⟨hother, hnext⟩⟩ := hmoves.of_gone hgone hguest hbusy
      · obtain ⟨hcomplete, hnotified⟩ := h.settled hgone
        obtain ⟨hcloser, hmoved⟩ :=
          (h.guests guest (Array.mem_of_getElem? hguest)).movesLeft_proceed hrunning
          hcomplete hnotified
        obtain ⟨later, hlater, hends⟩ := ih (h.moves hmoves) (htickets ▸ hgone) hnext hmoved hrest
        refine ⟨later, hlater, hends.imp_right fun hmore => ⟨hmore.1, ?_⟩⟩
        rw [List.count_cons_self]
        omega
      · obtain ⟨later, hlater, hends⟩ := ih (h.moves hmoves) (htickets ▸ hgone) hnext hbusy hrest
        rw [List.count_cons_of_ne hother]
        exact ⟨later, hlater, hends⟩

/-- What holds from the end of the last drop on. -/
structure Over (gathering : Gathering) : Prop where
  woken : ∀ guest ∈ gathering.guests, guest.poll = .pending →
    guest.waiter.isWoken gathering.barrier = true
  /-- Whatever else happens, a poll is ready after three moves of its own, and can make them. -/
  answers : ∀ index guest, gathering.guests[index]? = some guest → guest.poll = .running →
    ∀ events last, gathering.follow events = some last → ∃ later, last.guests[index]? = some later ∧
      (later.poll = .ready ∨ later.poll = .running ∧ events.count (.proceed index) < 3 ∧
        ∃ next, last.step (.proceed index) = some next)

/-- What can be relied on in a gathering around a barrier with so many tickets. -/
structure Dependable (expected : Nat) (gathering : Gathering) : Prop where
  arrived : gathering.barrier.arrived = gathering.tickets.countP (· != .held)
  balance : gathering.barrier.arrived + gathering.barrier.remaining = expected
  lowered : ∀ ticket next, gathering.step (.lower ticket) = some next →
    next.barrier.remaining + 1 = gathering.barrier.remaining
  ready : ∀ guest ∈ gathering.guests, guest.poll = .ready → ∀ ticket ∈ gathering.tickets, ticket ≠ .held
  woken : ∀ guest ∈ gathering.guests, guest.poll = .pending →
    guest.waiter.isWoken gathering.barrier = true →
    ∀ ticket ∈ gathering.tickets, ticket ≠ .held
  /-- Whoever is pending and not woken waits for a ticket that is held, or the notification is still
  to come. -/
  parked : ∀ guest ∈ gathering.guests, guest.poll = .pending →
    guest.waiter.isParked gathering.barrier = true →
    .held ∈ gathering.tickets ∨ ∃ ticket next, gathering.step (.notify ticket) = some next ∧
      ∀ guest ∈ next.guests, guest.poll = .pending → guest.waiter.isWoken next.barrier = true
  settled : (∀ ticket ∈ gathering.tickets, ticket = .gone) → gathering.Over
  /-- A ticket that goes in one go. -/
  drop : ∀ ticket, gathering.tickets[ticket]? = some .held → ∃ events next,
    gathering.follow (.lower ticket :: events) = some next ∧
      (∀ event ∈ events, event = .notify ticket) ∧
      next.barrier = gathering.barrier.arrive ∧ next.tickets[ticket]? = some .gone
  /-- A poll that is made in one go. -/
  poll : ∀ index guest, gathering.guests[index]? = some guest → guest.poll = .unstarted ∨
    guest.poll = .pending →
    ∃ count next, gathering.follow (.poll index :: List.replicate count (.proceed index)) = some next ∧
      next.guests[index]? = some ⟨guest.waiter.poll gathering.barrier,
        if guest.waiter.poll gathering.barrier = .released then .ready else .pending⟩ ∧
      next.barrier = gathering.barrier ∧ next.tickets = gathering.tickets

namespace Orderly

variable (h : gathering.Orderly expected)

include h

theorem arrived_eq : gathering.barrier.arrived = gathering.tickets.countP (· != .held) ∧
    gathering.barrier.arrived + gathering.barrier.remaining = expected := by
  have hsplit : gathering.tickets.size = gathering.tickets.countP (· == .held) +
      gathering.tickets.countP fun ticket => ¬(ticket == .held) = true :=
    Array.size_eq_countP_add_countP
  have hothers : gathering.tickets.countP (fun ticket => ¬(ticket == .held) = true) =
      gathering.tickets.countP (· != .held) := by
    congr 1
    funext ticket
    cases ticket <;> rfl
  rw [hothers, ← h.remaining, h.size, ← h.expected_eq] at hsplit
  rw [Barrier.arrived, ← h.expected_eq]
  omega

/-- A guest that sleeps is woken just if there was the notification. -/
theorem pending_cases {guest : Guest} (hguest : guest ∈ gathering.guests)
    (hpending : guest.poll = .pending) :
    guest.waiter = .asleep 0 ∧ 0 < expected := by
  have hplaced := h.guests guest hguest
  cases hplaced with
  | unstarted | fresh | registered _ _ | dozing _ | ready _ => cases hpending
  | pending hpos => exact ⟨rfl, h.expected_eq ▸ hpos⟩

theorem isWoken_iff {guest : Guest} (hguest : guest ∈ gathering.guests)
    (hpending : guest.poll = .pending) :
    guest.waiter.isWoken gathering.barrier = true ↔ gathering.barrier.notifications ≠ 0 := by
  rw [(h.pending_cases hguest hpending).1, Waiter.isWoken, bne_iff_ne]

theorem parked {guest : Guest} (hguest : guest ∈ gathering.guests) (hpending : guest.poll = .pending)
    (hparked : guest.waiter.isParked gathering.barrier = true) :
    .held ∈ gathering.tickets ∨ ∃ ticket next, gathering.step (.notify ticket) = some next ∧
      ∀ guest ∈ next.guests, guest.poll = .pending → guest.waiter.isWoken next.barrier = true := by
  obtain ⟨hasleep, hpos⟩ := h.pending_cases hguest hpending
  rw [hasleep, Waiter.isParked, beq_iff_eq] at hparked
  by_cases hzero : gathering.barrier.remaining = 0
  · -- the count is zero and nobody was notified, so the last ticket is about to do it
    have hdue := h.due hzero hpos
    rw [hparked, Nat.zero_add] at hdue
    obtain ⟨ticket, hmem, hnotifying⟩ := Array.countP_pos_iff.1 (hdue ▸ Nat.one_pos)
    obtain ⟨index, hindex, rfl⟩ := Array.mem_iff_getElem.1 hmem
    have hmoves := Moves.notify hindex (beq_iff_eq.1 hnotifying)
    refine .inr ⟨index, _, step_eq_some.2 hmoves, fun other hother hwaits => ?_⟩
    exact ((h.moves hmoves).isWoken_iff hother hwaits).2 (Nat.succ_ne_zero _)
  · rw [h.remaining] at hzero
    obtain ⟨ticket, hmem, hheld⟩ := Array.countP_pos_iff.1 (Nat.pos_of_ne_zero hzero)
    exact .inl (beq_iff_eq.1 hheld ▸ hmem)

theorem over_of_gone (hgone : ∀ ticket ∈ gathering.tickets, ticket = .gone) : gathering.Over where
  woken guest hguest hpending :=
    (h.isWoken_iff hguest hpending).2
      ((h.settled hgone).2 (h.expected_eq ▸ (h.pending_cases hguest hpending).2))
  answers index guest hguest hrunning events last hrun := by
    obtain ⟨later, hlater, hends⟩ := h.follow_of_gone hgone hguest (.inl hrunning) hrun
    refine ⟨later, hlater, hends.imp_right fun ⟨hstill, hcount⟩ => ⟨hstill, ?_, ?_⟩⟩
    · have hfirst := (h.guests guest (Array.mem_of_getElem? hguest)).movesLeft_pos hrunning
      have hlast := ((h.follow hrun).guests later (Array.mem_of_getElem? hlater)).movesLeft_pos hstill
      omega
    · obtain ⟨next, hnext, -⟩ := exists_step_proceed hlater hstill
      exact ⟨next, hnext⟩

theorem dependable : gathering.Dependable expected where
  arrived := h.arrived_eq.1
  balance := h.arrived_eq.2
  lowered ticket next hstep := by
    cases step_eq_some.1 hstep with
    | lower hticket hheld =>
        have hpos : 0 < gathering.tickets.countP (· == .held) :=
          Array.countP_pos_iff.2 ⟨_, Array.getElem_mem hticket, beq_iff_eq.2 hheld⟩
        rw [← h.remaining] at hpos
        exact Nat.succ_pred_eq_of_pos hpos
  ready guest hguest hready := by
    have hplaced := h.guests guest hguest
    cases hplaced with
    | unstarted | fresh | registered _ _ | dozing _ | pending _ => cases hready
    | ready hcomplete => exact h.remaining_eq_zero.1 hcomplete
  woken guest hguest hpending hwoken := by
    refine h.remaining_eq_zero.1 (Decidable.byContradiction fun hheld => ?_)
    exact (h.isWoken_iff hguest hpending).1 hwoken (h.quiet hheld).1
  parked _ := h.parked
  settled := h.over_of_gone
  drop ticket hheld := by
    obtain ⟨hticket, hheld⟩ := Array.getElem?_eq_some_iff.1 hheld
    obtain ⟨events, hevents, hrun⟩ := follow_drop hticket hheld
    exact ⟨events, _, hrun, hevents, rfl, Array.getElem?_set_self hticket⟩
  poll _ guest hguest := follow_poll hguest (h.guests guest (Array.mem_of_getElem? hguest))

end Orderly

/-- **A completion barrier loses no wake-up and releases nobody early.** However drops and polls of
so many tickets and any guests are interleaved, move by move, the count is that of the tickets held;
a poll is ready, and a guest is woken, only when none is; after the last drop every guest that is
pending was woken, and every poll is ready; and until then one that is pending has a ticket to wait
for, or the notification. -/
theorem wakes_all_and_none_early (hrun : (ofExpected expected).follow events = some last) :
    last.Dependable expected :=
  ((Orderly.ofExpected expected).follow hrun).dependable

/-- Two tickets and two guests. The last ticket goes between the look of the first guest and its
sleep, and before it notifies it, the second guest is ready. Then the first one is woken, and ready
when it is polled again. -/
theorem wakes_all_and_none_early_two_guests : ∃ dozed woken last : Gathering,
    (ofExpected 2).follow [.join, .join, .poll 0, .proceed 0, .lower 0, .proceed 0, .lower 1,
      .proceed 0, .poll 1, .proceed 1, .proceed 1] = some dozed ∧ dozed.Dependable 2 ∧
    dozed.tickets = #[.gone, .notifying] ∧
      dozed.guests = #[⟨.asleep 0, .pending⟩, ⟨.released, .ready⟩] ∧
    dozed.step (.notify 1) = some woken ∧ woken.Over ∧
    woken.follow [.poll 0, .proceed 0, .proceed 0, .proceed 0] = some last ∧
    last.guests = #[⟨.released, .ready⟩, ⟨.released, .ready⟩] := by
  have hdozed : (ofExpected 2).follow [.join, .join, .poll 0, .proceed 0, .lower 0,
      .proceed 0, .lower 1, .proceed 0, .poll 1, .proceed 1, .proceed 1] =
        some ⟨⟨2, 0, 0⟩, #[.gone, .notifying], #[⟨.asleep 0, .pending⟩, ⟨.released, .ready⟩]⟩ := by
    decide
  have hwoken : (ofExpected 2).follow [.join, .join, .poll 0, .proceed 0, .lower 0,
      .proceed 0, .lower 1, .proceed 0, .poll 1, .proceed 1, .proceed 1, .notify 1] =
        some ⟨⟨2, 0, 1⟩, #[.gone, .gone], #[⟨.asleep 0, .pending⟩, ⟨.released, .ready⟩]⟩ := by
    decide
  exact ⟨_, _, ⟨⟨2, 0, 1⟩, #[.gone, .gone], #[⟨.released, .ready⟩, ⟨.released, .ready⟩]⟩, hdozed,
    wakes_all_and_none_early hdozed, rfl, rfl, by decide,
    (wakes_all_and_none_early hwoken).settled (by decide), by decide, rfl⟩

end Gathering

end ParallelFilter
