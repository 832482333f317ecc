import ParallelFilter.Multiplexer.Traffic
import ParallelFilter.Proofs.Arrays
import ParallelFilter.Proofs.Channels

/-! The lanes of a multiplexer. Each lane keeps its own accounts of what was sent to it and what it
has handed on, whatever happens to the others. A value goes into the buffer at one end and comes out
at the other, and it is converted on the way out. `perform_touches` and `advance_touches` say that
whatever happens to a multiplexer is a move of one of its lanes, or of none. -/

namespace ParallelFilter

variable {α β : Type}

namespace Lane

/-- What can happen to a lane: a value is sent to it, one of its senders is dropped, it hands on its
oldest value, or it is found closed and empty. -/
inductive Moves : Lane α β → Option α → Option β → Lane α β → Prop where
  | push {lane} (value : α) (hsenders : lane.channel.senders ≠ 0) :
      Moves lane (some value) none { lane with channel.buffer := lane.channel.buffer.push value }
  | drop {lane} : Moves lane none none { lane with channel := lane.channel.dropSender }
  | pop {lane} (value : α) (rest : Queue α) (hopen : lane.closed = false)
      (hbuffer : lane.channel.buffer.toList = value :: rest.toList) :
      Moves lane none (some (lane.convert lane.delivered value))
        { lane with channel.buffer := rest, delivered := lane.delivered + 1 }
  | shut {lane} (hopen : lane.closed = false) (hbuffer : lane.channel.buffer.toList = [])
      (hsenders : lane.channel.senders = 0) : Moves lane none none { lane with closed := true }

/-- Nothing can come any more, and nothing is left. -/
def Drained (lane : Lane α β) : Prop :=
  lane.channel.senders = 0 ∧ lane.channel.buffer.toList = []

/-- Nothing is left for now, and the lane is marked if nothing can come any more. -/
def Settled (lane : Lane α β) : Prop :=
  lane.channel.buffer.toList = [] ∧ (lane.closed = true ↔ lane.channel.senders = 0)

/-- The books of a lane to which `sent` was sent and which has handed on `handed`. -/
structure Accounts (convert : Nat → α → β) (lane : Lane α β) (sent : List α) (handed : List β) :
    Prop where
  convert_eq : lane.convert = convert
  balance : ∃ taken, sent = taken ++ lane.channel.buffer.toList ∧ lane.delivered = taken.length ∧
    handed = taken.mapIdx convert
  drained : lane.closed = true → lane.Drained

variable {lane after : Lane α β} {convert : Nat → α → β} {sent : List α} {handed : List β}
  {arrived : Option α} {passed : Option β}

theorem Moves.drained (hmoves : Moves lane arrived passed after) (h : lane.closed = true → lane.Drained)
    (hclosed : after.closed = true) : after.Drained := by
  cases hmoves with
  | push value hsenders => exact absurd (h hclosed).1 hsenders
  | drop =>
      obtain ⟨hsenders, hbuffer⟩ := h hclosed
      exact ⟨by rw [Channel.dropSender, hsenders], hbuffer⟩
  | pop value rest hopen hbuffer => exact absurd (hopen.symm.trans hclosed) (by decide)
  | shut hopen hbuffer hsenders => exact ⟨hsenders, hbuffer⟩

theorem Accounts.moves (h : lane.Accounts convert sent handed)
    (hmoves : Moves lane arrived passed after) :
    after.Accounts convert (sent ++ arrived.toList) (handed ++ passed.toList) := by
  obtain ⟨taken, rfl, hdelivered, rfl⟩ := h.balance
  have hdrained := hmoves.drained h.drained
  cases hmoves with
  | push value hsenders =>
      refine ⟨h.convert_eq, ⟨taken, ?_, hdelivered, List.append_nil _⟩, hdrained⟩
      rw [Queue.toList_push, ← List.append_assoc]
      rfl
  | pop value rest hopen hbuffer =>
      refine ⟨h.convert_eq, ⟨taken ++ [value], ?_, ?_, ?_⟩, hdrained⟩
      · rw [hbuffer, Option.toList_none, List.append_nil, List.append_assoc]
        rfl
      · rw [List.length_append, List.length_singleton, hdelivered]
      · rw [List.mapIdx_append, List.mapIdx_singleton, Nat.zero_add, h.convert_eq, hdelivered]
        rfl
  | drop | shut hopen hbuffer hsenders =>
      exact ⟨h.convert_eq, ⟨taken, List.append_nil _, hdelivered, List.append_nil _⟩, hdrained⟩

/-- A lane that was found closed and empty stays as it is. -/
theorem Moves.eq_of_closed (hmoves : Moves lane arrived passed after) (hclosed : lane.closed = true)
    (hdrained : lane.Drained) : after = lane := by
  cases hmoves with
  | push value hsenders => exact absurd hdrained.1 hsenders
  | drop =>
      obtain ⟨⟨capacity, buffer, senders, receiving⟩, convert, closed, delivered⟩ := lane
      obtain rfl : senders = 0 := hdrained.1
      rfl
  | pop _ _ hopen _ | shut hopen _ _ => exact absurd (hopen.symm.trans hclosed) (by decide)

theorem Moves.closed (hmoves : Moves lane arrived passed after) (hclosed : lane.closed = true) :
    after.closed = true := by
  cases hmoves with
  | push _ _ | drop | pop _ _ _ _ => exact hclosed
  | shut _ _ _ => rfl

theorem Moves.delivered_eq (hmoves : Moves lane arrived passed after) :
    after.delivered = lane.delivered + passed.toList.length := by
  cases hmoves <;> rfl

end Lane

/-- Whether a call goes on after a tick when it has slept through so many before. -/
def Patience.goesOn (patience : Patience) (ticks : Nat) : Bool :=
  match patience with
  | .exit => false
  | .retry limit => ticks < limit
  | .forever => true

namespace Multiplexer

/-- What happened to the multiplexer happened to one of its lanes, or to none. -/
inductive Touches (hub : Multiplexer α β) :
    Option (Nat × α) → Option (Delivery β) → Multiplexer α β → Prop where
  | lane {index} (hindex : index < hub.lanes.size) {arrived passed lane after}
      (hmoves : Lane.Moves hub.lanes[index] arrived passed lane)
      (hlanes : after.lanes = hub.lanes.set index lane)
      (hreceived : after.received = hub.received + passed.toList.length)
      (hpatience : after.patience = hub.patience) (hcancelled : after.cancelled = hub.cancelled) :
      Touches hub (arrived.map fun value => (index, value))
        (passed.map fun value => ⟨index, value⟩) after
  | none {after} (hlanes : after.lanes = hub.lanes) (hreceived : after.received = hub.received)
      (hpatience : after.patience = hub.patience)
      (hcancelled : hub.cancelled = true → after.cancelled = true) : Touches hub none none after

variable {hub after : Multiplexer α β} {arrived : Option (Nat × α)} {passed : Option (Delivery β)}

namespace Touches

variable (h : hub.Touches arrived passed after)

include h

theorem size_eq : after.lanes.size = hub.lanes.size := by
  cases h with
  | lane hindex _ hlanes _ _ _ => rw [hlanes, Array.size_set]
  | none hlanes _ _ _ => rw [hlanes]

theorem patience_eq : after.patience = hub.patience := by
  cases h <;> assumption

theorem cancelled (hcancelled : hub.cancelled = true) : after.cancelled = true := by
  cases h with
  | lane _ _ _ _ _ hsame => rw [hsame, hcancelled]
  | none _ _ _ hkept => exact hkept hcancelled

theorem received_eq : after.received = hub.received + passed.toList.length := by
  cases h with
  | lane _ _ _ hreceived _ _ =>
      rw [hreceived, Option.toList_map, List.length_map]
  | none _ hreceived _ _ => exact hreceived

/-- The lanes and the multiplexer count alike. -/
theorem counted (hcounted : (hub.lanes.toList.map Lane.delivered).sum = hub.received) :
    (after.lanes.toList.map Lane.delivered).sum = after.received := by
  cases h with
  | @lane index hindex value? handed? lane after hmoves hlanes hreceived _ _ =>
      have hsum := sum_map_set Lane.delivered hindex lane
      rw [hmoves.delivered_eq, hcounted] at hsum
      rw [hlanes, hreceived]
      omega
  | none hlanes hreceived _ _ => rw [hlanes, hreceived, hcounted]

/-- A multiplexer without open lanes remains so. -/
theorem isExhausted (hexhausted : hub.isExhausted = true) : after.isExhausted = true := by
  rw [Multiplexer.isExhausted, Array.all_eq_true_iff_forall_mem] at hexhausted ⊢
  cases h with
  | lane hindex hmoves hlanes _ _ _ =>
      rw [hlanes]
      exact forall_mem_set hindex hexhausted (hmoves.closed (hexhausted _ (Array.getElem_mem hindex)))
  | none hlanes _ _ _ =>
      rw [hlanes]
      exact hexhausted

end Touches

/-- Every lane that was found closed and empty is. -/
def Sealed (hub : Multiplexer α β) : Prop :=
  ∀ lane ∈ hub.lanes, lane.closed = true → lane.Drained

theorem Sealed.moves (h : hub.Sealed) (htouches : hub.Touches arrived passed after) : after.Sealed := by
  cases htouches with
  | lane hindex hmoves hlanes _ _ _ =>
      rw [Sealed, hlanes]
      exact forall_mem_set hindex h (hmoves.drained (h _ (Array.getElem_mem hindex)))
  | none hlanes _ _ _ =>
      rw [Sealed, hlanes]
      exact h

/-- Nothing happens any more to a lane that was found closed and empty. -/
theorem Sealed.getElem?_of_closed (h : hub.Sealed) (htouches : hub.Touches arrived passed after)
    {index : Nat} {lane : Lane α β} (hlane : hub.lanes[index]? = some lane)
    (hclosed : lane.closed = true) :
    after.lanes[index]? = some lane := by
  cases htouches with
  | none hlanes _ _ _ => rw [hlanes, hlane]
  | @lane other hother arrived passed next after hmoves hlanes _ _ _ =>
      rw [hlanes, Array.getElem?_set]
      split
      · rename_i hsame
        subst hsame
        rw [Array.getElem?_eq_getElem hother, Option.some_inj] at hlane
        rw [hmoves.eq_of_closed (hlane ▸ hclosed)
          (h _ (Array.getElem_mem hother) (hlane ▸ hclosed)), hlane]
      · exact hlane

/-- A value that is sent arrives in its lane, or nothing happens. -/
theorem send_cases (hub : Multiplexer α β) (source : Nat) (value : α) :
    ((hub.send source value).1 ≠ .sent ∧ (hub.send source value).2 = hub) ∨
    ∃ hsource : source < hub.lanes.size, hub.lanes[source].channel.senders ≠ 0 ∧
      hub.send source value = (.sent, { hub with
        lanes := hub.lanes.set source { hub.lanes[source] with
          channel.buffer := hub.lanes[source].channel.buffer.push value } }) := by
  unfold send
  split
  · rename_i hsource
    dsimp only
    split
    · exact .inl ⟨nofun, rfl⟩
    · rename_i hsenders
      split
      · rename_i channel hoffer
        obtain ⟨-, -, rfl⟩ := Channel.offer_eq_sent.1 hoffer
        exact .inr ⟨hsource, hsenders, rfl⟩
      · exact .inl ⟨nofun, rfl⟩
      · exact .inl ⟨nofun, rfl⟩
  · exact .inl ⟨nofun, rfl⟩

theorem send_touches (hub : Multiplexer α β) (source : Nat) (value : α) :
    hub.Touches (hub.admits (.send source value)) none (hub.send source value).2 := by
  rcases send_cases hub source value with ⟨hrefused, hsame⟩ | ⟨hsource, hsenders, hsent⟩
  · rw [admits, if_neg hrefused, hsame]
    exact .none rfl rfl rfl id
  · rw [admits, hsent, if_pos rfl]
    exact .lane hsource (.push value hsenders) rfl rfl rfl rfl

theorem dropSender_touches (hub : Multiplexer α β) (source : Nat) :
    hub.Touches none none (hub.dropSender source) := by
  by_cases hsource : source < hub.lanes.size
  · refine .lane hsource .drop ?_ rfl rfl rfl
    apply Array.ext_getElem?
    intro index
    rw [dropSender, Array.getElem?_modify, Array.getElem?_set]
    split
    · rename_i hindex
      subst hindex
      rw [Array.getElem?_eq_getElem hsource]
      rfl
    · rfl
  · refine .none ?_ rfl rfl id
    apply Array.ext_getElem?
    intro index
    rw [dropSender, Array.getElem?_modify]
    split
    · rename_i hindex
      subst hindex
      rw [Array.getElem?_eq_none (Nat.le_of_not_lt hsource)]
      rfl
    · rfl

theorem perform_touches (hasToken : Bool) (hub : Multiplexer α β) (action : Action α) :
    hub.Touches (hub.admits action) none (Timeline.perform hasToken hub action) := by
  cases action with
  | send source value => exact send_touches hub source value
  | close source => exact dropSender_touches hub source
  | cancel =>
      exact .none rfl rfl rfl fun hcancelled => by rw [Timeline.perform, hcancelled, Bool.true_or]

/-- What a probe of a lane finds. -/
inductive Probes (hub : Multiplexer α β) (source left ticks : Nat) :
    Multiplexer α β → Turn β → Prop where
  | serve (hsource : source < hub.lanes.size) (value : α) (rest : Queue α)
      (hopen : hub.lanes[source].closed = false)
      (hbuffer : hub.lanes[source].channel.buffer.toList = value :: rest.toList) :
      Probes hub source left ticks
        { hub with
          lanes := hub.lanes.set source { hub.lanes[source] with
            channel.buffer := rest
            delivered := hub.lanes[source].delivered + 1 }
          cursor := (source + 1) % hub.lanes.size
          received := hub.received + 1 }
        (.returned (some ⟨source, hub.lanes[source].convert hub.lanes[source].delivered value⟩))
  | shut (hsource : source < hub.lanes.size) (hopen : hub.lanes[source].closed = false)
      (hbuffer : hub.lanes[source].channel.buffer.toList = [])
      (hsenders : hub.lanes[source].channel.senders = 0) :
      Probes hub source left ticks
        { hub with lanes := hub.lanes.set source { hub.lanes[source] with closed := true } }
        (.probing left ticks)
  | pass (hnothing : ∀ lane, hub.lanes[source]? = some lane → lane.closed = true ∨
      lane.channel.buffer.toList = [] ∧ lane.channel.senders ≠ 0) :
      Probes hub source left ticks hub (.probing left ticks)

theorem probe_probes (hub : Multiplexer α β) (source left ticks : Nat) :
    hub.Probes source left ticks (hub.probe source left ticks).1 (hub.probe source left ticks).2 := by
  unfold probe
  split
  · rename_i hsource
    have hlane {lane : Lane α β} (h : hub.lanes[source]? = some lane) : hub.lanes[source] = lane := by
      rwa [Array.getElem?_eq_getElem hsource, Option.some_inj] at h
    dsimp only
    split
    · rename_i hclosed
      exact .pass fun lane h => .inl (hlane h ▸ hclosed)
    · rename_i hopen
      have hopen := Bool.eq_false_iff.2 hopen
      rcases hub.lanes[source].channel.take_cases with ⟨value, rest, htake, hbuffer⟩ |
        ⟨htake, hnothing⟩ |
          ⟨htake, hbuffer, hsenders⟩
      · rw [htake]
        exact .serve hsource value rest hopen hbuffer
      · rw [htake]
        exact .pass fun lane h => .inr (hlane h ▸ hnothing)
      · rw [htake]
        exact .shut hsource hopen hbuffer hsenders
  · rename_i hsource
    refine .pass fun lane h => ?_
    rw [Array.getElem?_eq_none (Nat.le_of_not_lt hsource)] at h
    cases h

theorem Probes.touches {after : Multiplexer α β} {turn : Turn β} {source left ticks : Nat}
    (h : hub.Probes source left ticks after turn) : hub.Touches none turn.item? after := by
  cases h with
  | serve hsource value rest hopen hbuffer =>
      exact .lane hsource (.pop value rest hopen hbuffer) rfl rfl rfl rfl
  | shut hsource hopen hbuffer hsenders =>
      exact .lane hsource (.shut hopen hbuffer hsenders) rfl rfl rfl rfl
  | pass _ => exact .none rfl rfl rfl id

/-- The end of a tick. -/
theorem wake_eq (hub : Multiplexer α β) (ticks : Nat) : hub.wake ticks =
    ({ hub with idleTicks := hub.idleTicks + 1 },
      if hub.patience.goesOn ticks then .probing hub.lanes.size (ticks + 1) else .returned none) := by
  rw [wake]
  congr 1
  cases hub.patience with
  | exit | forever => rfl
  | retry limit => simp only [Patience.goesOn, decide_eq_true_eq, ← Nat.not_le, ite_not]

/-- A call whose tick is over sweeps again, or returns without a value. -/
theorem wake_cases (hub : Multiplexer α β) (ticks : Nat) :
    (hub.wake ticks).2 = .returned none ∨ (hub.wake ticks).2 = .probing hub.lanes.size (ticks + 1) := by
  rw [wake_eq]
  cases hub.patience.goesOn ticks with
  | true => exact .inr rfl
  | false => exact .inl rfl

theorem wake_hands_nothing (hub : Multiplexer α β) (ticks : Nat) : (hub.wake ticks).2.item? = none := by
  rcases hub.wake_cases ticks with hover | hagain
  · rw [hover, Turn.item?]
  · rw [hagain, Turn.item?]

theorem wake_ne_sleeping (hub : Multiplexer α β) (ticks slept : Nat) :
    (hub.wake ticks).2 ≠ .sleeping slept := by
  rcases hub.wake_cases ticks with hover | hagain
  · rw [hover]
    nofun
  · rw [hagain]
    nofun

/-- The end of a tick touches no lane. -/
theorem wake_touches (hub : Multiplexer α β) (ticks : Nat) : hub.Touches none none (hub.wake ticks).1 :=
  .none rfl rfl rfl id

/-- Every move of a call that has not returned yet is one of a lane, or of none. -/
theorem advance_touches (hub : Multiplexer α β) {turn : Turn β}
    (hturn : ∀ item?, turn ≠ .returned item?) :
    hub.Touches none (hub.advance turn).2.item? (hub.advance turn).1 := by
  cases turn with
  | probing left ticks =>
      cases left with
      | zero =>
          rw [advance]
          split <;> exact .none rfl rfl rfl id
      | succ left => exact (probe_probes hub _ left ticks).touches
  | sleeping ticks =>
      rw [advance]
      split
      · exact .none rfl rfl rfl id
      · rw [wake_hands_nothing]
        exact hub.wake_touches ticks
  | returned item? => exact absurd rfl (hturn item?)

end Multiplexer

end ParallelFilter
