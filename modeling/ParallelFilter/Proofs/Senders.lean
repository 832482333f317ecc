import ParallelFilter.Command.Multiplex
import ParallelFilter.Proofs.Sweeps

/-! Who can still send to a multiplexer, and when that is of use. A call does nothing to the
senders. While the receivers are there, a sender sends or finds its channel full; once they are
gone, it is told so. A producer goes on until its channel is full or it drops its sender, so after
its turn a sweep finds a value there, or the end. -/

namespace ParallelFilter

variable {α β : Type}

theorem Lane.Moves.channel_kept {lane after : Lane α β} {arrived : Option α} {passed : Option β}
    (hmoves : Moves lane arrived passed after) : after.channel.receiving = lane.channel.receiving ∧
      after.channel.capacity = lane.channel.capacity ∧
        after.channel.senders ≤ lane.channel.senders := by
  cases hmoves with
  | drop => exact ⟨rfl, rfl, Nat.sub_le _ _⟩
  | push _ _ | pop _ _ _ _ | shut _ _ _ => exact ⟨rfl, rfl, Nat.le_refl _⟩

/-- Something is buffered, or nobody can send any more. -/
def Lane.Supplied (lane : Lane α β) : Prop :=
  lane.channel.buffer.toList ≠ [] ∨ lane.channel.senders = 0

namespace Multiplexer

variable {hub after : Multiplexer α β} {receiving : Bool} {arrived : Option (Nat × α)}
  {passed : Option (Delivery β)} {source other : Nat}

/-- Every channel has at least one place and at most one sender, and all receivers are there, or
none. -/
def Wired (receiving : Bool) (hub : Multiplexer α β) : Prop :=
  ∀ lane ∈ hub.lanes, lane.channel.receiving = receiving ∧ 0 < lane.channel.capacity ∧
    lane.channel.senders ≤ 1

theorem Wired.touches (h : hub.Wired receiving) (htouches : hub.Touches arrived passed after) :
    after.Wired receiving := by
  cases htouches with
  | lane hindex hmoves hlanes _ _ _ =>
      rw [Wired, hlanes]
      apply forall_mem_set hindex h
      obtain ⟨hreceiving, hcapacity, hsenders⟩ := h _ (Array.getElem_mem hindex)
      obtain ⟨hsame, hplaces, hle⟩ := hmoves.channel_kept
      exact ⟨hsame.trans hreceiving, hplaces ▸ hcapacity, Nat.le_trans hle hsenders⟩
  | none hlanes _ _ _ =>
      rw [Wired, hlanes]
      exact h

theorem Wired.dropReceivers (h : hub.Wired receiving) : hub.dropReceivers.Wired false := by
  intro lane hlane
  obtain ⟨before, hbefore, rfl⟩ := Array.mem_map.1 hlane
  obtain ⟨-, hcapacity, hsenders⟩ := h before hbefore
  exact ⟨rfl, hcapacity, hsenders⟩

theorem hasSender_of_lane {lane : Lane α β} (hlane : hub.lanes[source]? = some lane) :
    hub.hasSender source = true ↔ lane.channel.senders ≠ 0 := by
  rw [hasSender, hlane]
  exact bne_iff_ne

theorem lt_size_of_hasSender (hsender : hub.hasSender source = true) : source < hub.lanes.size := by
  by_contra hlarge
  rw [hasSender, Array.getElem?_eq_none (Nat.le_of_not_lt hlarge)] at hsender
  cases hsender

/-- What a lane does leaves its senders alone if it keeps their number. -/
theorem hasSender_of_set {lane : Lane α β} (hsource : source < hub.lanes.size)
    (hlanes : after.lanes = hub.lanes.set source lane)
    (hsame : lane.channel.senders = hub.lanes[source].channel.senders) (other : Nat) :
    after.hasSender other = hub.hasSender other := by
  rw [hasSender, hasSender, hlanes, Array.getElem?_set]
  by_cases hother : source = other
  · subst hother
    rw [if_pos rfl, Array.getElem?_eq_getElem hsource]
    simp only [hsame]
  · rw [if_neg hother]

theorem send_hasSender (hub : Multiplexer α β) (source : Nat) (value : α) (other : Nat) :
    (hub.send source value).2.hasSender other = hub.hasSender other := by
  rcases send_cases hub source value with ⟨-, hsame⟩ | ⟨hsource, -, hsent⟩
  · rw [hsame]
  · rw [hsent]
    apply hasSender_of_set hsource rfl
    rfl

theorem send_cancelled (hub : Multiplexer α β) (source : Nat) (value : α) :
    (hub.send source value).2.cancelled = hub.cancelled := by
  rcases send_cases hub source value with ⟨-, hsame⟩ | ⟨_, -, hsent⟩
  · rw [hsame]
  · rw [hsent]

theorem advance_hasSender (hub : Multiplexer α β) (turn : Turn β) (other : Nat) :
    (hub.advance turn).1.hasSender other = hub.hasSender other := by
  cases turn with
  | probing left ticks =>
      cases left with
      | zero => rfl
      | succ left =>
          have hprobe :=
            probe_probes hub ((hub.cursor + (hub.lanes.size - (left + 1))) % hub.lanes.size) left ticks
          rw [advance]
          generalize hub.probe _ left ticks = probed at hprobe
          obtain ⟨found, stands⟩ := probed
          cases hprobe with
          | serve hsource _ _ _ _ | shut hsource _ _ _ =>
              apply hasSender_of_set hsource rfl
              rfl
          | pass _ => rfl
  | sleeping ticks =>
      rw [advance]
      split <;> rfl
  | returned item? => rfl

theorem dropSender_hasSender_of_ne (hub : Multiplexer α β) (hne : source ≠ other) :
    (hub.dropSender source).hasSender other = hub.hasSender other := by
  rw [hasSender, hasSender, dropSender, Array.getElem?_modify, if_neg hne]

theorem Wired.dropSender_hasSender (h : hub.Wired receiving) (source : Nat) :
    (hub.dropSender source).hasSender source = false := by
  rw [hasSender, dropSender, Array.getElem?_modify, if_pos rfl]
  cases hlane : hub.lanes[source]? with
  | none => rfl
  | some lane =>
      obtain ⟨-, -, hsenders⟩ := h lane (Array.mem_of_getElem? hlane)
      have hnone : lane.channel.senders - 1 = 0 := Nat.sub_eq_zero_of_le hsenders
      exact bne_eq_false_iff_eq.2 hnone

theorem dropReceivers_hasSender (hub : Multiplexer α β) (source : Nat) :
    hub.dropReceivers.hasSender source = hub.hasSender source := by
  rw [hasSender, hasSender, dropReceivers, Array.getElem?_map]
  cases hub.lanes[source]? <;> rfl

/-- What a sender is told: nobody receives, or there is room, or there is none. -/
theorem send_answer (hsender : hub.hasSender source = true) (value : α) : ∃ lane,
    hub.lanes[source]? = some lane ∧ (hub.send source value).1 =
      if lane.channel.receiving then
        if lane.channel.buffer.size < lane.channel.capacity then .sent else .full
      else .closed := by
  have hsource := lt_size_of_hasSender hsender
  have hlane := Array.getElem?_eq_getElem hsource
  rw [hasSender_of_lane hlane] at hsender
  refine ⟨hub.lanes[source], hlane, ?_⟩
  rw [send, dif_pos hsource]
  dsimp only
  rw [if_neg hsender]
  generalize hub.lanes[source].channel = channel
  obtain ⟨capacity, buffer, senders, receives⟩ := channel
  cases receives with
  | false => rfl
  | true =>
      by_cases hroom : buffer.size < capacity
      · simp only [Channel.offer, Bool.not_true, Bool.false_eq_true, if_false, hroom, if_true]
      · simp only [Channel.offer, Bool.not_true, Bool.false_eq_true, if_false, hroom, if_true]

theorem Wired.send_of_gone (h : hub.Wired false) (hsender : hub.hasSender source = true) (value : α) :
    (hub.send source value).1 = .closed := by
  obtain ⟨lane, hlane, hanswer⟩ := send_answer hsender value
  obtain ⟨hgone, -⟩ := h lane (Array.mem_of_getElem? hlane)
  rw [hanswer, hgone]
  rfl

theorem Wired.send_of_held (h : hub.Wired true) (hsender : hub.hasSender source = true) (value : α) :
    (hub.send source value).1 ≠ .closed ∧ (hub.send source value).1 ≠ .noSender := by
  obtain ⟨lane, hlane, hanswer⟩ := send_answer hsender value
  obtain ⟨hheld, -⟩ := h lane (Array.mem_of_getElem? hlane)
  rw [hanswer, hheld, if_pos rfl]
  split <;> exact ⟨nofun, nofun⟩

theorem supplied_of_not_hasSender (hnone : hub.hasSender source = false) {lane : Lane α β}
    (hlane : hub.lanes[source]? = some lane) : lane.Supplied := by
  by_contra hneither
  rw [(hasSender_of_lane hlane).2 fun hsenders => hneither (.inr hsenders)] at hnone
  cases hnone

/-- What a sweep does to the lanes while it finds no value is mark some of them. -/
theorem forall_lanes_of_sweep {P : Lane α β → Prop} {ticks left : Nat} {turn : Turn β}
    (hshut : ∀ lane, P lane → P { lane with closed := true }) (hlanes : ∀ lane ∈ hub.lanes, P lane)
    (hsweep : hub.sweep ticks left = (after, turn)) (hnothing : turn.item? = none) :
    ∀ lane ∈ after.lanes, P lane := by
  induction left generalizing hub with
  | zero =>
      cases hsweep
      exact hlanes
  | succ left ih =>
      have hprobe :=
        probe_probes hub ((hub.cursor + (hub.lanes.size - (left + 1))) % hub.lanes.size) left ticks
      rw [sweep_succ] at hsweep
      generalize hub.probe _ left ticks = probed at hprobe hsweep
      obtain ⟨found, stands⟩ := probed
      cases hprobe with
      | serve _ _ _ _ _ =>
          cases hsweep
          cases hnothing
      | shut hsource _ _ _ =>
          exact ih (forall_mem_set hsource hlanes (hshut _ (hlanes _ (Array.getElem_mem hsource))))
            hsweep
      | pass _ => exact ih hlanes hsweep

/-- The call sleeps only as long as something can still come. -/
theorem not_exhausted_of_sweep {ticks left slept : Nat}
    (hsweep : hub.sweep ticks left = (after, .sleeping slept)) :
    after.isExhausted = false := by
  induction left generalizing hub with
  | zero =>
      rw [sweep, advance] at hsweep
      split at hsweep
      · cases hsweep
      · rename_i hover
        cases hsweep
        rw [Bool.or_eq_true, not_or] at hover
        exact Bool.eq_false_iff.2 hover.1
  | succ left ih =>
      rcases sweep_succ_cases hub ticks left with ⟨-, hgoes⟩ | ⟨item, hreturned, hends⟩
      · exact ih (hgoes ▸ hsweep)
      · rw [← hends, hsweep] at hreturned
        cases hreturned

/-- So it does not sleep when every channel is supplied. -/
theorem sweep_of_supplied (hsealed : hub.Sealed) (hsupplied : ∀ lane ∈ hub.lanes, lane.Supplied)
    (ticks slept : Nat) : (hub.sweep ticks hub.lanes.size).2 ≠ .sleeping slept := by
  intro hsleeps
  obtain ⟨after, turn, hsweep⟩ : ∃ after turn, hub.sweep ticks hub.lanes.size = (after, turn) :=
    ⟨_, _, rfl⟩
  rw [hsweep] at hsleeps
  obtain rfl : turn = .sleeping slept := hsleeps
  obtain ⟨hempty, hexhausted⟩ := isExhausted_of_sweep hsealed hsweep rfl
  have hstill : ∀ lane ∈ after.lanes, lane.Supplied :=
    forall_lanes_of_sweep (fun lane h => h) hsupplied hsweep rfl
  have hover : after.isExhausted = true := by
    refine hexhausted.2 fun lane hlane => ⟨?_, hempty lane hlane⟩
    exact (hstill lane hlane).resolve_left fun hne => hne (hempty lane hlane)
  rw [not_exhausted_of_sweep hsweep] at hover
  cases hover

end Multiplexer

namespace Command

open Multiplexer

variable {hub : Multiplexer Payload Payload} {receiving : Bool} {source other : Nat}

/-- A producer goes on after a value that was sent, and only then. -/
theorem Producer.produce_succ_cases (source : Nat) (producer : Producer)
    (hub : Multiplexer Payload Payload) (count : Nat) :
    ((hub.send source (producer.value producer.sent)).1 = .sent ∧
      producer.produce source hub (count + 1) =
      Producer.produce source { producer with sent := producer.sent + 1 }
        (hub.send source (producer.value producer.sent)).2 count) ∨
    (hub.send source (producer.value producer.sent)).1 ≠ .sent ∧
      producer.produce source hub (count + 1) = (hub, producer) := by
  have hsends := send_cases hub source (producer.value producer.sent)
  rw [produce]
  generalize hub.send source (producer.value producer.sent) = answered at hsends ⊢
  obtain ⟨answer, after⟩ := answered
  cases answer with
  | sent => exact .inl ⟨rfl, rfl⟩
  | full | closed | noSender =>
      obtain ⟨-, rfl⟩ | ⟨_, -, hsent⟩ := hsends
      · exact .inr ⟨nofun, rfl⟩
      · cases hsent

/-- What is kept by every value that is sent, and by dropping the sender, a producer keeps. -/
theorem Producer.run_induction {P : Multiplexer Payload Payload → Prop}
    (hsend : ∀ hub value, P hub → P (hub.send source value).2)
    (hdrop : ∀ hub, P hub → P (hub.dropSender source)) (h : P hub) (producer : Producer) :
    P (producer.run source hub).1 := by
  have hproduce (count : Nat) : P (producer.produce source hub count).1 := by
    induction count generalizing producer hub with
    | zero => exact hdrop hub h
    | succ count ih =>
        rcases produce_succ_cases source producer hub count with ⟨-, hgoes⟩ | ⟨-, hends⟩
        · rw [hgoes]
          exact ih (hsend hub _ h) _
        · rw [hends]
          exact h
  rw [run]
  split
  · exact hproduce _
  · exact h

theorem Producer.run_wired (h : hub.Wired receiving) (producer : Producer) :
    (producer.run source hub).1.Wired receiving :=
  run_induction (fun hub value h => h.touches (send_touches hub source value))
    (fun hub h => h.touches (dropSender_touches hub source)) h producer

theorem Producer.run_cancelled (producer : Producer) (hub : Multiplexer Payload Payload) :
    (producer.run source hub).1.cancelled = hub.cancelled :=
  run_induction (P := fun after => after.cancelled = hub.cancelled)
    (fun after value h => (send_cancelled after source value).trans h) (fun _ h => h) rfl producer

/-- A producer has nothing to do with the other channels. -/
theorem Producer.run_other (hne : source ≠ other) (producer : Producer)
    (hub : Multiplexer Payload Payload) :
    (producer.run source hub).1.lanes[other]? = hub.lanes[other]? := by
  refine run_induction (P := fun after => after.lanes[other]? = hub.lanes[other]?)
    (fun after value h => ?_)
    (fun after h => ?_) rfl producer
  · rcases send_cases after source value with ⟨-, hsame⟩ | ⟨hsource, -, hsent⟩
    · rw [hsame, h]
    · rw [hsent, Array.getElem?_set_ne hsource hne, h]
  · rw [dropSender, Array.getElem?_modify, if_neg hne, h]

theorem Producer.produce_supplied (h : hub.Wired true) (producer : Producer) (count : Nat)
    {lane : Lane Payload Payload}
    (hlane : (producer.produce source hub count).1.lanes[source]? = some lane) :
    lane.Supplied := by
  induction count generalizing producer hub with
  | zero => exact supplied_of_not_hasSender (h.dropSender_hasSender source) hlane
  | succ count ih =>
      rcases produce_succ_cases source producer hub count with ⟨hsent, hgoes⟩ | ⟨hrefused, hends⟩
      · rw [hgoes] at hlane
        exact ih (h.touches (send_touches hub source _)) _ hlane
      · rw [hends] at hlane
        cases hsender : hub.hasSender source with
        | false => exact supplied_of_not_hasSender hsender hlane
        | true =>
            obtain ⟨_, hsame, hanswer⟩ := send_answer hsender (producer.value producer.sent)
            obtain rfl := Option.some_inj.1 (hlane.symm.trans hsame)
            obtain ⟨hheld, hcapacity, -⟩ := h lane (Array.mem_of_getElem? hlane)
            rw [hanswer, hheld, if_pos rfl] at hrefused
            refine .inl fun hempty => hrefused (if_pos ?_)
            rw [Queue.size_eq_length, hempty]
            exact hcapacity

theorem Producer.run_supplied (h : hub.Wired true) (producer : Producer) {lane : Lane Payload Payload}
    (hlane : (producer.run source hub).1.lanes[source]? = some lane) : lane.Supplied := by
  rw [run] at hlane
  split at hlane
  · exact produce_supplied h producer _ hlane
  · rename_i hnone
    exact supplied_of_not_hasSender (Bool.eq_false_iff.2 hnone) hlane

/-- After a tick both channels are supplied. -/
theorem produceBoth_supplied (h : hub.Wired true) (hsize : hub.lanes.size = 2)
    (producers : Producer × Producer) :
    ∀ lane ∈ (produceBoth hub producers).1.lanes, lane.Supplied := by
  intro lane hlane
  obtain ⟨source, hsource⟩ := Array.mem_iff_getElem?.1 hlane
  have hfirst : (producers.1.run 0 hub).1.Wired true := producers.1.run_wired h
  change ((producers.2.run 1 (producers.1.run 0 hub).1).1).lanes[source]? = some lane at hsource
  by_cases hsecond : 1 = source
  · subst hsecond
    exact producers.2.run_supplied hfirst hsource
  · rw [producers.2.run_other hsecond] at hsource
    by_cases hzero : 0 = source
    · subst hzero
      exact producers.1.run_supplied h hsource
    · rw [producers.1.run_other hzero, Array.getElem?_eq_none (by omega)] at hsource
      cases hsource

end Command

end ParallelFilter
