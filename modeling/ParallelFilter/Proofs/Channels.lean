import ParallelFilter.ResultChannel
import Mathlib.Tactic.Common

/-! Channels, barriers and drains, as those who use them see them: what becomes of a value that is
offered, what a receiver finds, what an arrival does, and the kinds of answers that a drain gives. -/

namespace ParallelFilter

namespace Channel

variable {α : Type} {channel after : Channel α} {value : α}

theorem offer_eq_sent : channel.offer value = .sent after ↔
    channel.receiving = true ∧ channel.buffer.size < channel.capacity ∧
      after = { channel with buffer := channel.buffer.push value } := by
  obtain ⟨capacity, buffer, senders, receiving⟩ := channel
  cases receiving with
  | false => simp [offer]
  | true =>
      simp only [offer, Bool.not_true, Bool.false_eq_true, if_false, true_and]
      by_cases hroom : buffer.size < capacity
      · rw [if_pos hroom, Offered.sent.injEq, and_iff_right hroom, eq_comm]
      · rw [if_neg hroom]
        exact iff_of_false nofun fun hsent => hroom hsent.1

/-- What the receiver finds. -/
theorem take_cases (channel : Channel α) :
    (∃ value rest, channel.take = .value value { channel with buffer := rest } ∧
      channel.buffer.toList = value :: rest.toList) ∨
    channel.take = .empty ∧ channel.buffer.toList = [] ∧ channel.senders ≠ 0 ∨
    channel.take = .closed ∧ channel.buffer.toList = [] ∧ channel.senders = 0 := by
  obtain ⟨capacity, buffer, senders, receiving⟩ := channel
  cases hpop : buffer.pop? with
  | some popped =>
      obtain ⟨value, rest⟩ := popped
      exact .inl ⟨value, rest, by simp only [take, hpop], Queue.toList_of_pop? hpop⟩
  | none =>
      have hbuffer := Queue.pop?_eq_none_iff.1 hpop
      by_cases hsenders : senders = 0
      · exact .inr (.inr ⟨by simp only [take, hpop, if_pos hsenders], hbuffer, hsenders⟩)
      · exact .inr (.inl ⟨by simp only [take, hpop, if_neg hsenders], hbuffer, hsenders⟩)

end Channel

namespace Barrier

@[simp] theorem arrive_remaining (barrier : Barrier) :
    barrier.arrive.remaining = barrier.remaining - 1 := by
  unfold arrive
  split <;> rfl

theorem arrive_expected (barrier : Barrier) : barrier.arrive.expected = barrier.expected := by
  unfold arrive
  split <;> rfl

theorem arrive_notifications (barrier : Barrier) : barrier.arrive.notifications =
    if barrier.remaining = 1 then barrier.notifications + 1 else barrier.notifications := by
  unfold arrive
  split <;> rfl

theorem isComplete_iff (barrier : Barrier) : barrier.isComplete = true ↔ barrier.remaining = 0 :=
  beq_iff_eq

end Barrier

namespace ResultChannel

/-- The channel with one more value in its buffer. -/
def put (link : ResultChannel) (value : Nat) : ResultChannel :=
  { link with channel.buffer := link.channel.buffer.push value }

/-- `Polls before answer after`: the drain, asked for a value, answers so and leads from `before` to
`after`. -/
inductive Polls (link : ResultChannel) : Polled → ResultChannel → Prop where
  | ended (hfinished : link.finished = true) : Polls link .finished link
  | deliver (value : Nat) (rest : Queue Nat) (hfinished : link.finished = false)
      (hbuffer : link.channel.buffer.toList = value :: rest.toList) :
      Polls link (.value value) { link with channel.buffer := rest, received := link.received + 1 }
  | wait (hfinished : link.finished = false) (hbuffer : link.channel.buffer.toList = [])
      (hsenders : link.channel.senders ≠ 0) : Polls link .pending link
  | finish (hfinished : link.finished = false) (hbuffer : link.channel.buffer.toList = [])
      (hsenders : link.channel.senders = 0) (hcomplete : link.barrier.remaining = 0) :
      Polls link .finished { link with finished := true }
  | violate (hfinished : link.finished = false) (hbuffer : link.channel.buffer.toList = [])
      (hsenders : link.channel.senders = 0) (hheld : link.barrier.remaining ≠ 0) :
      Polls link (.violation link.orderingFault) { link with finished := true }

/-- Every poll is of one of the kinds. -/
theorem polls (link : ResultChannel) : Polls link link.poll.1 link.poll.2 := by
  obtain ⟨channel, barrier, received, finished⟩ := link
  cases finished with
  | true => exact .ended rfl
  | false =>
      rcases channel.take_cases with ⟨value, rest, htake, hbuffer⟩ | ⟨htake, hbuffer, hsenders⟩ |
        ⟨htake, hbuffer, hsenders⟩
      · simp only [poll, htake, Bool.false_eq_true, if_false]
        exact .deliver value rest rfl hbuffer
      · simp only [poll, htake, Bool.false_eq_true, if_false]
        exact .wait rfl hbuffer hsenders
      · by_cases hcomplete : barrier.isComplete = true
        · simp only [poll, htake, hcomplete, Bool.false_eq_true, if_true, if_false]
          exact .finish rfl hbuffer hsenders ((Barrier.isComplete_iff _).1 hcomplete)
        · simp only [poll, htake, hcomplete, Bool.false_eq_true, if_false]
          exact .violate rfl hbuffer hsenders fun hzero =>
            hcomplete ((Barrier.isComplete_iff _).2 hzero)

/-- A poll leaves the tickets and the senders alone. -/
theorem Polls.kept {before after : ResultChannel} {answer : Polled} (h : before.Polls answer after) :
    after.barrier = before.barrier ∧ after.channel.senders = before.channel.senders := by
  cases h <;> exact ⟨rfl, rfl⟩

section Answers

variable {link : ResultChannel}

theorem poll_eq_pending : link.poll.1 = .pending ↔
    link.finished = false ∧ link.channel.buffer.toList = [] ∧ link.channel.senders ≠ 0 := by
  have hpolls := link.polls
  generalize link.poll = polled at hpolls ⊢
  obtain ⟨answer, after⟩ := polled
  cases hpolls with
  | ended hfinished => exact iff_of_false nofun fun hwaits => nomatch hfinished.symm.trans hwaits.1
  | deliver value rest _ hfull =>
      exact iff_of_false nofun fun hwaits => nomatch hfull.symm.trans hwaits.2.1
  | wait hfinished hbuffer hsenders => exact iff_of_true rfl ⟨hfinished, hbuffer, hsenders⟩
  | finish _ _ hsenders _ | violate _ _ hsenders _ =>
      exact iff_of_false nofun fun hwaits => hwaits.2.2 hsenders

theorem pending_poll (hwaits : link.poll.1 = .pending) : link.poll.2 = link := by
  have hpolls := link.polls
  generalize link.poll = polled at hpolls hwaits ⊢
  obtain ⟨answer, after⟩ := polled
  cases hpolls with
  | wait _ _ _ => rfl
  | _ => cases hwaits

/-- The drain ends at a poll that finds the channel closed and empty. -/
theorem finished_poll (hrunning : link.finished = false) : link.poll.2.finished = true ↔
    link.channel.buffer.toList = [] ∧ link.channel.senders = 0 := by
  have hpolls := link.polls
  generalize link.poll = polled at hpolls ⊢
  obtain ⟨answer, after⟩ := polled
  have hnever {link : ResultChannel} (hfalse : link.finished = false) : ¬link.finished = true :=
    Bool.eq_false_iff.1 hfalse
  cases hpolls with
  | ended hfinished => exact absurd hfinished (hnever hrunning)
  | deliver value rest _ hfull =>
      exact iff_of_false (hnever hrunning) fun hends => nomatch hfull.symm.trans hends.1
  | wait _ _ hsenders => exact iff_of_false (hnever hrunning) fun hends => hsenders hends.2
  | finish _ hbuffer hsenders _ | violate _ hbuffer hsenders _ =>
      exact iff_of_true rfl ⟨hbuffer, hsenders⟩

theorem poll_eq_violation {fault : OrderingFault} : link.poll.1 = .violation fault ↔
    link.finished = false ∧ link.channel.buffer.toList = [] ∧ link.channel.senders = 0 ∧
      link.barrier.remaining ≠ 0 ∧ fault = link.orderingFault := by
  have hpolls := link.polls
  generalize link.poll = polled at hpolls ⊢
  obtain ⟨answer, after⟩ := polled
  cases hpolls with
  | ended hfinished =>
      exact iff_of_false nofun fun hviolates => nomatch hfinished.symm.trans hviolates.1
  | deliver value rest _ hfull =>
      exact iff_of_false nofun fun hviolates => nomatch hfull.symm.trans hviolates.2.1
  | wait _ _ hsenders => exact iff_of_false nofun fun hviolates => hsenders hviolates.2.2.1
  | finish _ _ _ hcomplete => exact iff_of_false nofun fun hviolates => hviolates.2.2.2.1 hcomplete
  | violate hfinished hbuffer hsenders hheld =>
      rw [Polled.violation.injEq, eq_comm]
      exact ⟨fun hfault => ⟨hfinished, hbuffer, hsenders, hheld, hfault⟩, fun hviolates =>
        hviolates.2.2.2.2⟩

variable {stalls : Bool}

/-- A poll may be put off as long as the drain has not ended. -/
theorem ask_eq_pending : (link.ask stalls).1 = .pending ↔ link.finished = false ∧
    (stalls = true ∨ link.channel.buffer.toList = [] ∧ link.channel.senders ≠ 0) := by
  cases stalls with
  | false => rw [ask_false, poll_eq_pending, or_iff_right Bool.false_ne_true]
  | true => rw [ask_true, stalled_eq_pending, and_iff_left (.inl rfl)]

theorem pending_ask (hwaits : (link.ask stalls).1 = .pending) : (link.ask stalls).2 = link := by
  cases stalls with
  | false => exact pending_poll hwaits
  | true => rw [ask_true]

theorem finished_ask (hrunning : link.finished = false) : (link.ask stalls).2.finished = true ↔
    stalls = false ∧ link.channel.buffer.toList = [] ∧ link.channel.senders = 0 := by
  cases stalls with
  | false => rw [ask_false, finished_poll hrunning, and_iff_right rfl]
  | true =>
      rw [ask_true, hrunning]
      exact iff_of_false nofun nofun

theorem ask_eq_violation {fault : OrderingFault} : (link.ask stalls).1 = .violation fault ↔
    stalls = false ∧ link.finished = false ∧ link.channel.buffer.toList = [] ∧
      link.channel.senders = 0 ∧ link.barrier.remaining ≠ 0 ∧ fault = link.orderingFault := by
  cases stalls with
  | false => rw [ask_false, poll_eq_violation, and_iff_right rfl]
  | true =>
      rw [ask_true]
      exact iff_of_false (link.stalled_ne_violation fault) nofun

theorem ask_of_finished (hfinished : link.finished = true) : link.ask stalls = (.finished, link) := by
  cases stalls with
  | false => exact poll_of_finished hfinished
  | true => rw [ask_true, stalled, if_pos hfinished]

/-- The answer with which a drain ends as the channel stands. -/
def closing (link : ResultChannel) : Polled :=
  if link.barrier.remaining = 0 then .finished else .violation link.orderingFault

/-- The poll that finds the channel closed and empty is the last one. -/
theorem poll_of_drained (hrunning : link.finished = false)
    (hbuffer : link.channel.buffer.toList = []) (hsenders : link.channel.senders = 0) :
    link.poll = (link.closing, { link with finished := true }) := by
  have hpolls := link.polls
  generalize link.poll = polled at hpolls ⊢
  obtain ⟨answer, after⟩ := polled
  cases hpolls with
  | ended hfinished => exact absurd (hfinished.symm.trans hrunning) (by decide)
  | deliver _ _ _ hfull => exact absurd (hfull.symm.trans hbuffer) (List.cons_ne_nil _ _)
  | wait _ _ hheld => exact absurd hsenders hheld
  | finish _ _ _ hcomplete => rw [closing, if_pos hcomplete]
  | violate _ _ _ hheld => rw [closing, if_neg hheld]

end Answers

end ResultChannel

end ParallelFilter
