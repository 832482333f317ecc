import ParallelFilter.Pool.Refusal
import ParallelFilter.Proofs.Outcome

/-! The discipline of closing. Senders, tickets and the drain are dropped in an order in which the drain
can never find the channel closed while a ticket is out, neither when a pool runs nor when it is refused
before a worker is started. -/

namespace ParallelFilter

namespace Refusal

/-- What holds of a refusal at every moment. -/
structure Sound (refusal : Refusal) : Prop where
  tickets : refusal.link.barrier.remaining = refusal.tickets
  senders : refusal.link.channel.senders = refusal.sender.toNat
  order : refusal.sender = false → refusal.tickets = 0
  empty : refusal.link.channel.buffer.pop? = none
  finished : refusal.link.finished = true → refusal.sender = false
  answers : ∀ answer ∈ refusal.answers, answer = .pending ∨ answer = .finished
  ended : .finished ∈ refusal.answers → refusal.sender = false

variable {refusal next last : Refusal} {event : Event} {events : List Event}

theorem Sound.ofLink {capacity workers : Nat} {link : ResultChannel}
    (hlink : ResultChannel.make capacity workers = .ok link) : (ofLink link).Sound := by
  obtain ⟨-, -, rfl⟩ := ResultChannel.make_eq_ok.1 hlink
  exact ⟨rfl, rfl, nofun, rfl, nofun, nofun, nofun⟩

/-- An empty channel answers that it is open, or that it has ended, which it says only when nothing is
held any more. -/
theorem Sound.poll (h : refusal.Sound) :
    refusal.sender = true ∧ refusal.link.poll.1 = .pending ∧ refusal.link.poll.2 = refusal.link ∨
      refusal.sender = false ∧ refusal.link.poll.1 = .finished ∧
        refusal.link.poll.2 = { refusal.link with finished := true } := by
  have hbuffer := Queue.pop?_eq_none_iff.1 h.empty
  have hsender : refusal.link.channel.senders = 0 ↔ refusal.sender = false := by
    rw [h.senders]
    cases refusal.sender <;> decide
  have hpolls := refusal.link.polls
  generalize refusal.link.poll = polled at hpolls ⊢
  obtain ⟨answer, link⟩ := polled
  cases hpolls with
  | ended hfinished =>
      exact .inr ⟨h.finished hfinished, rfl, by rw [← hfinished]⟩
  | deliver value rest _ hfull =>
      rw [hbuffer] at hfull
      cases hfull
  | wait _ _ hsenders =>
      exact .inl ⟨eq_true_of_ne_false fun hdropped => hsenders (hsender.2 hdropped), rfl, rfl⟩
  | finish _ _ hsenders _ => exact .inr ⟨hsender.1 hsenders, rfl, rfl⟩
  | violate _ _ hsenders hheld => exact absurd (h.tickets.trans (h.order (hsender.1 hsenders))) hheld

theorem Sound.step (h : refusal.Sound) (hstep : refusal.step event = some next) : next.Sound := by
  cases event with
  | dropTicket =>
      simp only [Refusal.step] at hstep
      split at hstep
      · rename_i hheld
        cases hstep
        have hcount := h.tickets
        refine ⟨?_, h.senders, ?_, h.empty, h.finished, h.answers, h.ended⟩
        · simp only [ResultChannel.dropTicket, Barrier.arrive_remaining, hcount]
        · intro hsender
          rw [h.order hsender] at hheld
          cases hheld
      · cases hstep
  | dropSender =>
      simp only [Refusal.step] at hstep
      split at hstep
      · rename_i hready
        cases hstep
        have hcount := h.senders
        rw [hready.2] at hcount
        refine ⟨h.tickets, ?_, fun _ => hready.1, h.empty, fun _ => rfl, h.answers, fun _ => rfl⟩
        simp only [ResultChannel.dropSender, Channel.dropSender, hcount]
        rfl
      · cases hstep
  | receive =>
      simp only [Refusal.step] at hstep
      split at hstep
      · cases hstep
        rcases h.poll with ⟨-, hanswer, hlink⟩ | ⟨hsender, hanswer, hlink⟩
        · rw [hanswer, hlink]
          refine ⟨h.tickets, h.senders, h.order, h.empty, h.finished, ?_, ?_⟩
          · intro answer hmem
            rcases List.mem_append.1 hmem with hmem | hmem
            · exact h.answers answer hmem
            · exact .inl (List.mem_singleton.1 hmem)
          · intro hmem
            rcases List.mem_append.1 hmem with hmem | hmem
            · exact h.ended hmem
            · cases List.mem_singleton.1 hmem
        · rw [hanswer, hlink]
          refine ⟨h.tickets, h.senders, h.order, h.empty, fun _ => hsender, ?_, fun _ => hsender⟩
          intro answer hmem
          rcases List.mem_append.1 hmem with hmem | hmem
          · exact h.answers answer hmem
          · exact .inr (List.mem_singleton.1 hmem)
      · cases hstep
  | dropDrain =>
      simp only [Refusal.step] at hstep
      split at hstep
      · cases hstep
        exact ⟨h.tickets, h.senders, h.order, rfl, h.finished, h.answers, h.ended⟩
      · cases hstep

theorem Sound.follow (h : refusal.Sound) (hrun : refusal.follow events = some last) : last.Sound :=
  foldlM_induction (fun _ _ _ _ hsound hstep => hsound.step hstep) h hrun

/-- Dropped without a poll in between, all that was held leaves the channel as `Pool.refuse` says. -/
theorem follow_drops (link : ResultChannel) :
    ((ofLink link).follow (.replicate link.barrier.remaining .dropTicket ++ [.dropSender])).map
      Refusal.link = some (Pool.refuse link) := by
  have hdrops (count rest : Nat) :
      follow ⟨link, rest + count, true, []⟩ (.replicate count .dropTicket) =
        some ⟨Nat.repeat ResultChannel.dropTicket count link, rest, true, []⟩ := by
    induction count generalizing rest with
    | zero => rfl
    | succ count ih =>
        rw [List.replicate_succ', follow, List.foldlM_append, ← follow, ← Nat.add_assoc,
          Nat.add_right_comm, ih]
        rfl
  have htickets := hdrops link.barrier.remaining 0
  rw [follow, List.foldlM_append]
  rw [follow, Nat.zero_add] at htickets
  rw [ofLink, htickets]
  rfl

/-- How a refused pool goes down: the sender is dropped after all tickets, the drain gives no value
and no violation, it ends only when nothing is held any more, and then at its next poll. -/
structure Orderly (refusal : Refusal) : Prop where
  sender_last : refusal.link.channel.senders = 0 → refusal.link.barrier.remaining = 0
  answers : ∀ answer ∈ refusal.answers, answer = .pending ∨ answer = .finished
  ended : .finished ∈ refusal.answers → refusal.link.channel.senders = 0
  ends : refusal.link.channel.senders = 0 → refusal.link.poll.1 = .finished

theorem Sound.orderly (h : refusal.Sound) : refusal.Orderly := by
  have hsender : refusal.link.channel.senders = 0 ↔ refusal.sender = false := by
    rw [h.senders]
    cases refusal.sender <;> decide
  refine ⟨?_, h.answers, ?_, ?_⟩
  · rw [hsender, h.tickets]
    exact h.order
  · rw [hsender]
    exact h.ended
  · rw [hsender]
    intro hdropped
    rcases h.poll with ⟨hheld, -, -⟩ | ⟨-, hfinished, -⟩
    · rw [hdropped] at hheld
      cases hheld
    · exact hfinished

end Refusal

namespace Pool

/-- How a pool closes its channel. -/
structure History.Orderly (history : History) : Prop where
  /-- The last sender, which the closer holds, is dropped after all tickets. -/
  sender_last : history.pool.link.channel.senders = 0 → history.pool.link.barrier.remaining = 0
  /-- A worker drops its ticket after its sender. -/
  ticket_last : ∀ worker ∈ history.pool.workers, worker.holdsTicket = false → worker.holdsSender = false
  senders : history.pool.link.channel.senders =
    history.pool.workers.countP Worker.holdsSender + history.pool.closer.senders
  tickets : history.pool.link.barrier.remaining = history.pool.workers.countP Worker.holdsTicket
  answers : ∀ fault, .violation fault ∉ history.answers
  /-- The drain ends after all values were delivered and all workers have stopped. -/
  ended : .finished ∈ history.answers → history.delivered = history.published.map Prod.snd ∧
    ∀ worker ∈ history.pool.workers, worker.ending?.isSome = true ∧ worker.holdsTicket = false
  /-- The pool returns its report, no error, and not before the last sender was dropped. -/
  result : ∀ result, history.pool.result? = some result →
    result = .ok history.pool.report ∧ history.pool.link.channel.senders = 0

variable {predicate : Predicate} {ranges : List Span} {history : History}

theorem History.Sound.orderly (h : history.Sound predicate ranges) : history.Orderly where
  sender_last := h.closing.remaining_eq_zero
  ticket_last worker _ := Worker.not_holdsSender_of_not_holdsTicket
  senders := h.closing.senders
  tickets := h.closing.tickets
  answers := h.delivery.orderly
  ended := by
    intro hended
    have hfinished := h.delivery.ended hended
    refine ⟨h.delivery.whole hfinished, fun worker hworker => ?_⟩
    have hticket := h.closing.not_holdsTicket
      (h.closing.remaining_eq_zero (h.closing.finished hfinished)) hworker
    exact ⟨Worker.ending?_of_not_holdsTicket hticket, hticket⟩
  result := by
    intro result hresult
    obtain ⟨hreport, -, hsenders⟩ := h.result?_eq_some hresult
    exact ⟨hreport, hsenders⟩

/-- **Closing.** A pool is given ranges and a fresh channel. If there is one range for each worker
the channel was made for, every run of it closes the channel in order, whatever is cancelled and
whenever the drain is dropped. Otherwise it is refused before there is a worker, and what it was
given goes down in order too. -/
theorem closes_in_order {capacity workers : Nat} {link : ResultChannel} (ranges : List Span)
    (token : Token) (hlink : ResultChannel.make capacity workers = .ok link) :
    (ranges.length = workers → ∃ pool, Pool.start ranges link token = .ok pool ∧
      ∀ rules events last, (History.ofPool pool).follow rules events = some last → last.Orderly) ∧
    (ranges.length ≠ workers →
      Pool.start ranges link token = .error (.invalidArgument (.rangeCount ranges.length workers)) ∧
      ∀ events last, (Refusal.ofLink link).follow events = some last → last.Orderly) := by
  have hexpected : link.barrier.expected = workers := by
    obtain ⟨-, -, rfl⟩ := ResultChannel.make_eq_ok.1 hlink
    rfl
  constructor
  · intro hlength
    subst hlength
    obtain ⟨pool, hstart⟩ : ∃ pool, Pool.start ranges link token = .ok pool :=
      ⟨_, Pool.start_eq_ok.2 ⟨hexpected.symm, rfl⟩⟩
    refine ⟨pool, hstart, fun rules events last hrun => ?_⟩
    have hfresh : (History.ofPool pool).Sound rules.predicate ranges := .ofStart hlink hstart
    exact (hfresh.follow hrun).orderly
  · intro hlength
    refine ⟨?_, fun events last hrun => ((Refusal.Sound.ofLink hlink).follow hrun).orderly⟩
    rw [Pool.start, hexpected, if_neg hlength]

/-- A channel for one worker: its pool runs into a panic and closes in order, and without a range
the pool is refused while its drain is polled. -/
theorem closes_in_order_one_worker :
    (∃ pool last, Pool.start [⟨0, 1, by decide⟩] ⟨.ofCapacity 1 1, .ofExpected 1, 0, false⟩ {} =
      .ok pool ∧ (History.ofPool pool).follow ⟨fun _ => .panicked .other, 1, Nat.one_pos, true⟩
        [.work 0, .close, .work 0, .close, .work 0, .work 0, .work 0, .close, .close, .close,
          .receive, .join 0] =
        some last ∧
      last.answers = [.finished] ∧ last.Orderly) ∧
    Pool.start [] ⟨.ofCapacity 1 1, .ofExpected 1, 0, false⟩ {} =
      .error (.invalidArgument (.rangeCount 0 1)) ∧
    ∃ last, (Refusal.ofLink ⟨.ofCapacity 1 1, .ofExpected 1, 0, false⟩).follow
        [.receive, .dropTicket, .receive, .dropSender, .receive] = some last ∧
      last.answers = [.pending, .pending, .finished] ∧ last.Orderly := by
  have hlink : ResultChannel.make 1 1 = .ok ⟨.ofCapacity 1 1, .ofExpected 1, 0, false⟩ := rfl
  obtain ⟨pool, hstart, hruns⟩ := (closes_in_order [Span.mk 0 1] {} hlink).1 rfl
  obtain ⟨hrefused, hdrops⟩ := (closes_in_order [] {} hlink).2 (by decide)
  obtain ⟨last, hrun, hanswers⟩ : ∃ last, (History.ofPool pool).follow
      ⟨fun _ => .panicked .other, 1, Nat.one_pos, true⟩
      [.work 0, .close, .work 0, .close, .work 0, .work 0, .work 0, .close, .close, .close,
        .receive, .join 0] =
      some last ∧ last.answers = [.finished] := by
    cases hstart
    exact ⟨_, rfl, rfl⟩
  refine ⟨⟨pool, last, hstart, hrun, hanswers, hruns _ _ last hrun⟩, hrefused, _, rfl, rfl, ?_⟩
  exact hdrops [.receive, .dropTicket, .receive, .dropSender, .receive] _ rfl

end Pool

end ParallelFilter
