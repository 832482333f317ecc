import ParallelFilter.Proofs.Closing

/-! Where the published values are. They are delivered in the order in which they were published;
those that were not delivered yet wait in the channel, and none is lost but with the drain. The
drain ends only after it has delivered all of them, and never with a violation. -/

namespace ParallelFilter.Pool.History

structure Delivery (history : History) : Prop where
  capacity_pos : 0 < history.pool.link.channel.capacity
  room : history.pool.link.channel.buffer.size ≤ history.pool.link.channel.capacity
  empty : history.pool.link.channel.receiving = false → history.pool.link.channel.buffer.toList = []
  trace : ∃ lost, history.published.map Prod.snd =
      history.delivered ++ history.pool.link.channel.buffer.toList ++ lost ∧
    (history.pool.link.channel.receiving = true → lost = [])
  whole : history.pool.link.finished = true → history.delivered = history.published.map Prod.snd
  ended : .finished ∈ history.answers → history.pool.link.finished = true
  orderly : ∀ fault, .violation fault ∉ history.answers

namespace Delivery

variable {rules : Rules} {history : History} {pool after : Pool} {event : Event}
  {published : Option (Nat × Nat)} {answer : Option Polled}

theorem ofStart {ranges : List Span} {capacity : Nat} {link : ResultChannel} {token : Token}
    (hlink : ResultChannel.make capacity ranges.length = .ok link)
    (hstart : Pool.start ranges link token = .ok pool) : (History.ofPool pool).Delivery := by
  obtain ⟨⟨hpos, -⟩, -, rfl⟩ := ResultChannel.make_eq_ok.1 hlink
  obtain ⟨-, rfl⟩ := Pool.start_eq_ok.1 hstart
  refine ⟨hpos, Nat.zero_le _, fun _ => Queue.toList_empty, ⟨[], ?_, fun _ => rfl⟩, ?_, ?_, ?_⟩
  · rfl
  · intro hfinished
    cases hfinished
  · intro hfinished
    cases hfinished
  · intro fault hfault
    cases hfault

/-- A move that leaves the channel alone and delivers nothing. -/
theorem same (h : history.Delivery)
    (hchannel : after.link.channel.buffer = history.pool.link.channel.buffer)
    (hcapacity : after.link.channel.capacity = history.pool.link.channel.capacity)
    (hreceiving : after.link.channel.receiving = history.pool.link.channel.receiving)
    (hfinished : after.link.finished = history.pool.link.finished) :
    (history.extend none none after).Delivery := by
  obtain ⟨lost, htrace, hlost⟩ := h.trace
  constructor
  all_goals simp only [extend, Option.toList_none, List.append_nil, hchannel, hcapacity,
    hreceiving, hfinished]
  · exact h.capacity_pos
  · exact h.room
  · exact h.empty
  · exact ⟨lost, htrace, hlost⟩
  · exact h.whole
  · exact h.ended
  · exact h.orderly

/-- A published value goes to the end of the channel, and only while the drain has not ended. -/
theorem put (h : history.Delivery) (worker value : Nat)
    (hopen : history.pool.link.channel.receiving = true)
    (hroom : history.pool.link.channel.buffer.size < history.pool.link.channel.capacity)
    (hfinished : history.pool.link.finished = false)
    (hlink : after.link = history.pool.link.put value) :
    (history.extend (some (worker, value)) none after).Delivery := by
  obtain ⟨lost, htrace, hlost⟩ := h.trace
  obtain rfl := hlost hopen
  have hended : .finished ∉ history.answers := by
    intro hmem
    rw [h.ended hmem] at hfinished
    cases hfinished
  refine ⟨?_, ?_, ?_, ⟨[], ?_, fun _ => rfl⟩, ?_, ?_, ?_⟩
  all_goals simp only [extend, hlink, ResultChannel.put, Option.toList_none, List.append_nil]
  · exact h.capacity_pos
  · rw [Queue.size_eq_length, Queue.toList_push, List.length_append, List.length_singleton,
      ← Queue.size_eq_length]
    exact hroom
  · intro hclosed
    rw [hopen] at hclosed
    cases hclosed
  · rw [Option.toList_some, List.map_append, htrace, Queue.toList_push, List.append_nil,
      List.append_assoc]
    rfl
  · intro hended
    rw [hfinished] at hended
    cases hended
  · exact fun hmem => absurd hmem hended
  · exact h.orderly

/-- Every move keeps the delivery in order. -/
theorem moves (h : history.Delivery) (hclosing : history.pool.Closing)
    (hmoves : Moves rules history.pool event published answer after) :
    (history.extend published answer after).Delivery := by
  obtain ⟨pool, past, told⟩ := history
  have hlive : pool.link.channel.senders ≠ 0 → pool.link.finished = false := by
    intro hsenders
    by_contra hfinished
    exact hsenders (hclosing.finished (Bool.not_eq_false _ ▸ hfinished))
  cases hmoves with
  | work index kept hindex _ moved hmoves =>
      cases hmoves.touches with
      | put value hlink hopen hroom hholds _ =>
          exact h.put index value hopen hroom
            (hlive (Nat.ne_of_gt (hclosing.senders_pos hindex hholds))) hlink
      | nothing hlink _ _ | loseSender hlink _ _ _ | loseTicket hlink _ _ _ _ =>
          exact h.same (by rw [hlink]; rfl) (by rw [hlink]; rfl) (by rw [hlink]; rfl)
            (by rw [hlink]; rfl)
  | deliver value rest hopen hfinished hbuffer =>
      obtain ⟨lost, htrace, hlost⟩ := h.trace
      have hroom := h.room
      rw [Queue.size_eq_length] at hroom
      dsimp only at hbuffer htrace hlost hroom
      rw [hbuffer] at htrace hroom
      refine ⟨h.capacity_pos, ?_, ?_, ⟨lost, ?_, hlost⟩, ?_, ?_, ?_⟩
      · rw [Queue.size_eq_length]
        exact Nat.le_of_succ_le hroom
      · intro hclosed
        exact absurd (hopen.symm.trans hclosed) (by decide)
      · rw [delivered_extend]
        simpa [extend] using htrace
      · intro hended
        exact absurd (hfinished.symm.trans hended) (by decide)
      · intro hmem
        rcases List.mem_append.1 hmem with hmem | hmem
        · exact h.ended hmem
        · simp at hmem
      · intro fault hmem
        rcases List.mem_append.1 hmem with hmem | hmem
        · exact h.orderly fault hmem
        · simp at hmem
  | finish hopen hfinished hbuffer hsenders hcomplete =>
      obtain ⟨lost, htrace, hlost⟩ := h.trace
      obtain rfl := hlost hopen
      refine ⟨h.capacity_pos, h.room, h.empty, ⟨[], ?_, fun _ => rfl⟩, ?_, fun _ => rfl, ?_⟩
      · rw [delivered_extend]
        simpa [extend] using htrace
      · intro _
        rw [delivered_extend]
        simpa [extend, hbuffer] using htrace.symm
      · intro fault hmem
        rcases List.mem_append.1 hmem with hmem | hmem
        · exact h.orderly fault hmem
        · simp at hmem
  | violate _ _ _ hsenders hheld =>
      -- the channel is closed by the closer, after the last ticket
      exact absurd (hclosing.remaining_eq_zero hsenders) hheld
  | dropDrain hopen =>
      obtain ⟨lost, htrace, hlost⟩ := h.trace
      obtain rfl := hlost hopen
      have hlost : (pool.link.dropDrain).channel.buffer.toList = [] := rfl
      refine ⟨h.capacity_pos, Nat.zero_le _, fun _ => rfl,
        ⟨pool.link.channel.buffer.toList, ?_, ?_⟩, ?_, ?_, ?_⟩
      all_goals simp only [extend, Option.toList_none, List.append_nil, hlost]
      · rw [List.append_nil] at htrace
        exact htrace
      · intro hdropped
        cases hdropped
      · exact h.whole
      · exact h.ended
      · exact h.orderly
  | _ => exact h.same rfl rfl rfl rfl

end Delivery

end ParallelFilter.Pool.History
