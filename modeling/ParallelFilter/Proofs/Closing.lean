import ParallelFilter.Proofs.Arrays
import ParallelFilter.Proofs.History

/-! Who holds what of the result channel. The senders that are out are those of the workers and of the
closer, the tickets those of the workers, and the closer keeps its sender until the last ticket is gone.
So the last sender goes after all tickets, and a sleeping closer that nobody is going to wake has a
ticket to wait for. -/

namespace ParallelFilter

/-- How many senders the closer holds. -/
def Waiter.senders : Waiter → Nat
  | .released => 0
  | _ => 1

namespace Pool

structure Closing (pool : Pool) : Prop where
  senders : pool.link.channel.senders = pool.workers.countP Worker.holdsSender + pool.closer.senders
  tickets : pool.link.barrier.remaining = pool.workers.countP Worker.holdsTicket
  released : pool.closer = .released → pool.link.barrier.remaining = 0
  /-- The closer cannot have seen more notifications than there were. -/
  seen : ∀ {seen : Nat}, pool.closer = .registered seen ∨ pool.closer = .asleep seen →
    seen ≤ pool.link.barrier.notifications
  /-- No wake-up is lost. -/
  asleep : ∀ {seen : Nat}, pool.closer = .asleep seen → pool.link.barrier.notifications = seen →
    pool.link.barrier.remaining ≠ 0
  notified : pool.link.barrier.notifications ≠ 0 → pool.link.barrier.remaining = 0
  finished : pool.link.finished = true → pool.link.channel.senders = 0

namespace Closing

/-- A fresh pool over a fresh channel, which holds one sender: the one that the closer keeps. -/
theorem ofStart {ranges : List Span} {capacity : Nat} {link : ResultChannel} {token : Token}
    {pool : Pool} (hlink : ResultChannel.make capacity ranges.length = .ok link)
    (hstart : Pool.start ranges link token = .ok pool) : pool.Closing := by
  obtain ⟨-, -, rfl⟩ := ResultChannel.make_eq_ok.1 hlink
  obtain ⟨-, rfl⟩ := Pool.start_eq_ok.1 hstart
  have hcount {p : Worker → Bool} (hp : ∀ index range, p (.ofRange index range) = true) :
      (ranges.mapIdx Worker.ofRange).countP p = ranges.length := by
    rw [List.countP_eq_length.2, List.length_mapIdx]
    intro worker hworker
    obtain ⟨index, hindex, rfl⟩ := List.mem_mapIdx.1 hworker
    exact hp index _
  refine ⟨?_, ?_, ?_, ?_, ?_, ?_, ?_⟩
  · rw [List.countP_toArray, hcount fun _ _ => rfl]
    exact Nat.add_comm 1 _
  · rw [List.countP_toArray, hcount fun _ _ => rfl]
    rfl
  · intro hreleased
    cases hreleased
  · rintro seen (hseen | hseen) <;> cases hseen
  · intro seen hasleep
    cases hasleep
  · intro hnotified
    exact absurd rfl hnotified
  · intro hfinished
    cases hfinished

variable {rules : Rules} {pool after : Pool} {event : Event} {published : Option (Nat × Nat)}
  {answer : Option Polled}

/-- The last sender is gone only when all tickets are. -/
theorem remaining_eq_zero (h : pool.Closing) (hsenders : pool.link.channel.senders = 0) :
    pool.link.barrier.remaining = 0 := by
  apply h.released
  have hzero : pool.closer.senders = 0 := by
    have := h.senders
    omega
  cases hcloser : pool.closer with
  | released => rfl
  | fresh | registered _ | asleep _ =>
      rw [hcloser] at hzero
      cases hzero

theorem not_holdsTicket (h : pool.Closing) (hcomplete : pool.link.barrier.remaining = 0)
    {worker : Worker} (hworker : worker ∈ pool.workers) : worker.holdsTicket = false := by
  have hzero := h.tickets.symm.trans hcomplete
  rw [Array.countP_eq_zero] at hzero
  exact Bool.eq_false_iff.mpr (hzero worker hworker)

theorem senders_pos (h : pool.Closing) {index : Nat} (hindex : index < pool.workers.size)
    (hholds : pool.workers[index].holdsSender = true) : 0 < pool.link.channel.senders := by
  have hpos : 0 < pool.workers.countP Worker.holdsSender :=
    Array.countP_pos_iff.2 ⟨_, Array.getElem_mem hindex, hholds⟩
  have := h.senders
  omega

/-- What the closing depends on. -/
theorem congr (h : pool.Closing)
    (hsender : after.workers.countP Worker.holdsSender = pool.workers.countP Worker.holdsSender)
    (hticket : after.workers.countP Worker.holdsTicket = pool.workers.countP Worker.holdsTicket)
    (hsenders : after.link.channel.senders = pool.link.channel.senders)
    (hbarrier : after.link.barrier = pool.link.barrier)
    (hfinished : after.link.finished = true → pool.link.finished = true)
    (hcloser : after.closer = pool.closer) : after.Closing where
  senders := by
    rw [hsender, hsenders, hcloser]
    exact h.senders
  tickets := by
    rw [hticket, hbarrier]
    exact h.tickets
  released := by
    rw [hcloser, hbarrier]
    exact h.released
  seen := by
    rw [hcloser, hbarrier]
    exact h.seen
  asleep := by
    rw [hcloser, hbarrier]
    exact h.asleep
  notified := by
    rw [hbarrier]
    exact h.notified
  finished := by
    rw [hsenders]
    exact fun h' => h.finished (hfinished h')

section Worker

variable {index : Nat} (hindex : index < pool.workers.size)

theorem loseSender (h : pool.Closing) {next : Worker} (token : Token)
    (hbefore : pool.workers[index].holdsSender = true) (hafter : next.holdsSender = false)
    (hticket : next.holdsTicket = true) : Closing { pool with
      workers := pool.workers.set index next
      link := pool.link.dropSender
      token } where
  senders := by
    have hlost := countP_set_of_lost hindex hbefore hafter
    have hsenders := h.senders
    simp only [ResultChannel.dropSender, Channel.dropSender]
    omega
  tickets := by
    have hsame := hticket.trans (Worker.holdsTicket_of_holdsSender hbefore).symm
    exact h.tickets.trans (countP_set_of_eq hindex hsame).symm
  released := h.released
  seen := h.seen
  asleep := h.asleep
  notified := h.notified
  finished := by
    intro hfinished
    have hzero := h.finished hfinished
    simp only [ResultChannel.dropSender, Channel.dropSender]
    omega

/-- The last ticket to go notifies the closer. -/
theorem loseTicket (h : pool.Closing) {next : Worker} (token : Token)
    (hbefore : pool.workers[index].holdsSender = false) (hafter : next.holdsSender = false)
    (hticket : pool.workers[index].holdsTicket = true) (hgone : next.holdsTicket = false) :
    Closing { pool with
      workers := pool.workers.set index next
      link := pool.link.dropTicket
      token } where
  senders := by
    have hsame := countP_set_of_eq hindex (hafter.trans hbefore.symm)
    have hsenders := h.senders
    simp only [ResultChannel.dropTicket]
    omega
  tickets := by
    have hlost := countP_set_of_lost hindex hticket hgone
    have htickets := h.tickets
    simp only [ResultChannel.dropTicket, Barrier.arrive_remaining]
    omega
  released := by
    intro hreleased
    have hzero := h.released hreleased
    simp only [ResultChannel.dropTicket, Barrier.arrive_remaining]
    omega
  seen := by
    intro seen hseen
    have hle := h.seen hseen
    simp only [ResultChannel.dropTicket, Barrier.arrive_notifications]
    split <;> omega
  asleep := by
    intro seen hasleep hnotifications
    have hle := h.seen (.inr hasleep)
    have hheld := h.asleep hasleep
    simp only [ResultChannel.dropTicket, Barrier.arrive_notifications, Barrier.arrive_remaining]
      at hnotifications ⊢
    split at hnotifications <;> omega
  notified := by
    have hnotified := h.notified
    simp only [ResultChannel.dropTicket, Barrier.arrive_notifications, Barrier.arrive_remaining]
    split <;> omega
  finished := h.finished

theorem work (h : pool.Closing) {kept : Nat} {sent : Option Nat} {moved : Station}
    (hmoves : Station.Moves rules kept (pool.station pool.workers[index]) sent moved) :
    Closing { pool with
      workers := pool.workers.set index moved.worker
      link := moved.link
      token := moved.token } := by
  cases hmoves.touches with
  | nothing hlink hsender hticket =>
      exact h.congr (countP_set_of_eq hindex hsender) (countP_set_of_eq hindex hticket)
        (by rw [hlink]; rfl) (by rw [hlink]; rfl) (by rw [hlink]; exact id) rfl
  | put value hlink _ _ hbefore hafter =>
      have hticket := (Worker.holdsTicket_of_holdsSender hafter).trans
        (Worker.holdsTicket_of_holdsSender hbefore).symm
      exact h.congr (countP_set_of_eq hindex (hafter.trans hbefore.symm))
        (countP_set_of_eq hindex hticket) (by rw [hlink]; rfl) (by rw [hlink]; rfl)
        (by rw [hlink]; exact id) rfl
  | loseSender hlink hbefore hafter hticket =>
      rw [hlink]
      exact h.loseSender hindex moved.token hbefore hafter hticket
  | loseTicket hlink hbefore hafter hticket hgone =>
      rw [hlink]
      exact h.loseTicket hindex moved.token hbefore hafter hticket hgone

end Worker

theorem moves (h : pool.Closing) (hmoves : Moves rules pool event published answer after) :
    after.Closing := by
  cases hmoves with
  | work index kept hindex _ moved hmoves => exact h.work hindex hmoves
  | register hcloser =>
      have hsenders := h.senders
      rw [hcloser] at hsenders
      refine ⟨hsenders, h.tickets, ?_, ?_, ?_, h.notified, h.finished⟩
      · intro hreleased
        cases hreleased
      · rintro seen (hseen | hseen) <;> cases hseen
        exact Nat.le_refl _
      · intro seen hasleep
        cases hasleep
  | sleep seen hcloser hheld =>
      have hsenders := h.senders
      rw [hcloser] at hsenders
      refine ⟨hsenders, h.tickets, ?_, ?_, ?_, h.notified, h.finished⟩
      · intro hreleased
        cases hreleased
      · rintro seen (hseen | hseen) <;> cases hseen
        exact h.seen (.inl hcloser)
      · intro _ _ _
        exact hheld
  | wake seen hcloser _ =>
      have hsenders := h.senders
      rw [hcloser] at hsenders
      refine ⟨hsenders, h.tickets, ?_, ?_, ?_, h.notified, h.finished⟩
      · intro hreleased
        cases hreleased
      · rintro seen (hseen | hseen) <;> cases hseen
      · intro seen hasleep
        cases hasleep
  | release seen hcloser hcomplete =>
      have hsenders := h.senders
      rw [hcloser] at hsenders
      refine ⟨?_, h.tickets, fun _ => hcomplete, ?_, ?_, h.notified, ?_⟩
      · simp only [ResultChannel.dropSender, Channel.dropSender, hsenders, Waiter.senders]
        omega
      · rintro seen (hseen | hseen) <;> cases hseen
      · intro seen hasleep
        cases hasleep
      · intro hfinished
        have := h.finished hfinished
        simp only [ResultChannel.dropSender, Channel.dropSender]
        omega
  | join index hindex worker hjoin =>
      obtain ⟨ending, hphase, rfl, -⟩ := Worker.join?_eq_some hjoin
      exact h.congr (countP_set_of_eq hindex (by simp only [Worker.holdsSender, hphase]))
        (countP_set_of_eq hindex (by simp only [Worker.holdsTicket, hphase])) rfl rfl id rfl
  | finish _ _ _ hsenders _ | violate _ _ _ hsenders _ =>
      exact ⟨h.senders, h.tickets, h.released, h.seen, h.asleep, h.notified, fun _ => hsenders⟩
  | deliver _ _ _ _ _ | dropDrain _ | cancel _ _ => exact h.congr rfl rfl rfl rfl id rfl

end Closing

end Pool

end ParallelFilter
