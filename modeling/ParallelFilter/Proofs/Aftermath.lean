import ParallelFilter.Proofs.Brevity

/-! A multiplexer after its cancellation. The token is looked for where a sweep has found nothing
and during a sleep, and nowhere else, so a call that finds a value hands it on all the same: first
what was buffered when the token was cancelled, then whatever the producers go on to send. What a
cancellation does is to keep the calls from falling asleep. Only a call that slept already may
notice the end of its tick first, and sweep once more. How many values are still to come is what is
buffered: it falls by one with every value that is handed on, and rises by one with every value that
is sent. -/

namespace ParallelFilter

variable {α β : Type}

theorem Lane.Moves.balance {lane after : Lane α β} {arrived : Option α} {passed : Option β}
    (hmoves : Moves lane arrived passed after) :
    after.channel.buffer.size + passed.toList.length = lane.channel.buffer.size +
      arrived.toList.length := by
  cases hmoves with
  | push value _ =>
      rw [Queue.size_eq_length, Queue.toList_push, List.length_append, Queue.size_eq_length]
      rfl
  | pop value rest _ hbuffer =>
      rw [Queue.size_eq_length, Queue.size_eq_length, hbuffer]
      rfl
  | drop | shut _ _ _ => rfl

namespace Multiplexer

variable {hub after : Multiplexer α β} {arrived : Option (Nat × α)} {passed : Option (Delivery β)}

theorem buffered_eq_sum (hub : Multiplexer α β) :
    hub.buffered = (hub.lanes.toList.map fun lane => lane.channel.buffer.size).sum := by
  rw [buffered, ← Array.foldl_toList, List.sum_eq_foldl, List.foldl_map]

theorem buffered_eq_zero_iff :
    hub.buffered = 0 ↔ ∀ lane ∈ hub.lanes, lane.channel.buffer.toList = [] := by
  simp only [buffered_eq_sum, List.sum_eq_zero_iff_forall_eq_nat, List.forall_mem_map,
    Array.mem_toList_iff, Queue.size_eq_length, List.length_eq_zero_iff]

/-- What comes in is buffered, and what goes out was. -/
theorem Touches.balance (h : hub.Touches arrived passed after) :
    after.buffered + passed.toList.length = hub.buffered + arrived.toList.length := by
  cases h with
  | @lane index hindex value? handed? lane after hmoves hlanes _ _ _ =>
      have hsum := sum_map_set (fun lane : Lane α β => lane.channel.buffer.size) hindex lane
      have hlane := hmoves.balance
      rw [buffered_eq_sum, buffered_eq_sum, hlanes, Option.toList_map, Option.toList_map,
        List.length_map, List.length_map]
      omega
  | none hlanes _ _ _ =>
      rw [buffered, buffered, hlanes]
      rfl

/-- What every sweep keeps, and where the value comes from that it may find. -/
theorem sweep_kept (hsealed : hub.Sealed) (ticks left : Nat) :
    (hub.sweep ticks left).1.Sealed ∧ (hub.sweep ticks left).1.cancelled = hub.cancelled ∧
      (hub.sweep ticks left).1.buffered + (hub.sweep ticks left).2.item?.toList.length =
        hub.buffered := by
  -- the first move of the sweep, which is all of it unless it goes on
  have hfirst {hub : Multiplexer α β} (hsealed : hub.Sealed) (left : Nat) :
      (hub.advance (.probing left ticks)).1.Sealed ∧
        (hub.advance (.probing left ticks)).1.cancelled = hub.cancelled ∧
        (hub.advance (.probing left ticks)).1.buffered +
          (hub.advance (.probing left ticks)).2.item?.toList.length = hub.buffered := by
    have htouches : hub.Touches none (hub.advance (.probing left ticks)).2.item?
        (hub.advance (.probing left ticks)).1 := advance_touches hub nofun
    exact ⟨hsealed.moves htouches, advance_cancelled hub _, htouches.balance⟩
  induction left generalizing hub with
  | zero => exact hfirst hsealed 0
  | succ left ih =>
      obtain ⟨hmovedSealed, hmovedCancelled, hmovedBuffered⟩ := hfirst hsealed (left + 1)
      rcases sweep_succ_cases hub ticks left with ⟨hmoved, hsweep⟩ | ⟨item, -, hsweep⟩
      · rw [hmoved, Turn.item?, Option.toList_none, List.length_nil, Nat.add_zero] at hmovedBuffered
        obtain ⟨hlastSealed, hlastCancelled, hlastBuffered⟩ := ih hmovedSealed
        rw [hsweep]
        exact ⟨hlastSealed, hlastCancelled.trans hmovedCancelled, hlastBuffered.trans hmovedBuffered⟩
      · rw [hsweep]
        exact ⟨hmovedSealed, hmovedCancelled, hmovedBuffered⟩

section Cancelled

variable (hcancelled : hub.cancelled = true)

include hcancelled

/-- A cancelled sleep is cut short, and its tick is not counted. -/
theorem advance_sleeping_of_cancelled (ticks : Nat) :
    hub.advance (.sleeping ticks) = (hub, .returned none) := by
  rw [advance, if_pos hcancelled]

theorem advance_ne_sleeping {turn : Turn β} (hcalling : ∀ item?, turn ≠ .returned item?) (slept : Nat) :
    (hub.advance turn).2 ≠ .sleeping slept := by
  intro hsleeps
  cases turn with
  | probing left ticks =>
      cases left with
      | zero =>
          rw [advance, hcancelled, Bool.or_true, if_pos rfl] at hsleeps
          cases hsleeps
      | succ left =>
          rcases sweep_succ_cases hub ticks left with ⟨hmoved, -⟩ | ⟨item, hmoved, -⟩
          · rw [hmoved] at hsleeps
            cases hsleeps
          · rw [hmoved] at hsleeps
            cases hsleeps
  | sleeping ticks =>
      rw [advance_sleeping_of_cancelled hcancelled] at hsleeps
      cases hsleeps
  | returned item? => exact absurd rfl (hcalling item?)

theorem advance_idleTicks_of_cancelled {turn : Turn β} (hcalling : ∀ item?, turn ≠ .returned item?) :
    (hub.advance turn).1.idleTicks = hub.idleTicks := by
  cases turn with
  | probing left ticks =>
      cases left with
      | zero => rfl
      | succ left => exact (probe_kept ..).1
  | sleeping ticks => rw [advance_sleeping_of_cancelled hcancelled]
  | returned item? => exact absurd rfl (hcalling item?)

theorem sweep_of_cancelled (ticks left : Nat) :
    ∃ item?, (hub.sweep ticks left).2 = .returned item? := by
  induction left generalizing hub with
  | zero => exact ⟨none, by rw [sweep, advance, hcancelled, Bool.or_true, if_pos rfl]⟩
  | succ left ih =>
      rcases sweep_succ_cases hub ticks left with ⟨-, hsweep⟩ | ⟨item, hreturned, hsweep⟩
      · rw [hsweep]
        exact ih ((advance_cancelled hub _).trans hcancelled)
      · exact ⟨some item, by rw [hsweep, hreturned]⟩

variable (hsealed : hub.Sealed)

include hsealed

/-- A sweep is the end of its call. It finds a value if one is buffered. -/
theorem sweep_returns (ticks : Nat) : ∃ item?,
    hub.sweep ticks hub.lanes.size = ((hub.sweep ticks hub.lanes.size).1, .returned item?) ∧
      (hub.sweep ticks hub.lanes.size).1.buffered + item?.toList.length = hub.buffered ∧
      (item? = none ↔ hub.buffered = 0) := by
  obtain ⟨item?, hreturned⟩ := sweep_of_cancelled hcancelled ticks hub.lanes.size
  obtain ⟨-, -, hbalance⟩ := sweep_kept hsealed ticks hub.lanes.size
  have hsweep : hub.sweep ticks hub.lanes.size =
      ((hub.sweep ticks hub.lanes.size).1, .returned item?) :=
    Prod.ext rfl hreturned
  rw [hreturned, Turn.item?] at hbalance
  refine ⟨item?, hsweep, hbalance, ?_⟩
  cases item? with
  | none =>
      obtain ⟨hempty, -⟩ := isExhausted_of_sweep hsealed hsweep rfl
      exact iff_of_true rfl (hbalance.symm.trans (buffered_eq_zero_iff.2 hempty))
  | some item =>
      rw [Option.toList_some, List.length_singleton] at hbalance
      exact iff_of_false (Option.some_ne_none item) (by omega)

/-- A call for the next value sleeps through no tick any more. It hands on a value if one is
buffered. -/
theorem next_of_cancelled {σ : Type} (surroundings : Surroundings σ α β) (around : σ)
    (ticks granted : Nat) :
    ∃ item? after,
      hub.next surroundings around ticks granted = (item?.elim .ended .item, after, around) ∧
      after.cancelled = true ∧ after.Sealed ∧ after.buffered + item?.toList.length = hub.buffered ∧
      (item? = none ↔ hub.buffered = 0) := by
  obtain ⟨hkeptSealed, hkeptCancelled, -⟩ := sweep_kept hsealed ticks hub.lanes.size
  obtain ⟨item?, hsweep, hends⟩ := sweep_returns hcancelled hsealed ticks
  exact ⟨item?, _, next_of_returned hsweep, hkeptCancelled.trans hcancelled, hkeptSealed, hends⟩

/-- Calls that are made one after another hand on what is buffered, all of it, and then there is an
end. -/
theorem collect_of_cancelled {σ : Type} {surroundings : Surroundings σ α β}
    (hserved : ∀ hub around, surroundings.served hub around = (hub, around))
    (granted : Multiplexer α β → σ → Nat) (around : σ) (items : Array (Delivery β)) {values : Nat}
    (hvalues : hub.buffered = values) :
    ∃ found after, hub.collect surroundings granted around items values = some (found, after, around) ∧
      found.size = items.size + values ∧ after.buffered = 0 := by
  induction values generalizing hub items with
  | zero =>
      obtain ⟨item?, after, hnext, -, -, hbalance, hends⟩ :=
        next_of_cancelled hcancelled hsealed surroundings around 0 (granted hub around)
      obtain rfl := hends.2 hvalues
      exact ⟨items, after, collect_of_ended hnext items 0, rfl, hbalance.trans hvalues⟩
  | succ values ih =>
      obtain ⟨item?, after, hnext, hstill, hkept, hbalance, hends⟩ :=
        next_of_cancelled hcancelled hsealed surroundings around 0 (granted hub around)
      cases item? with
      | none => exact absurd ((hends.1 rfl).symm.trans hvalues) (by omega)
      | some item =>
          rw [Option.toList_some, List.length_singleton, hvalues, Nat.add_right_cancel_iff] at hbalance
          obtain ⟨found, last, hcollect, hsize, hempty⟩ := ih hstill hkept (items.push item) hbalance
          refine ⟨found, last, ?_, ?_, hempty⟩
          · rw [collect_of_item hnext, hserved]
            exact hcollect
          · rw [hsize, Array.size_push, Nat.add_right_comm, Nat.add_assoc]

end Cancelled

end Multiplexer

namespace Traffic

variable {hasToken : Bool} {ports : List (Port α β)} {patience : Patience}
  {moment traffic next last : Traffic α β} {signal : Signal α}

/-- What a multiplexer that was cancelled at a moment has done since. -/
structure Lingers (moment traffic : Traffic α β) : Prop where
  cancelled : traffic.hub.cancelled = true
  /-- One more tick is counted at most, that of the sleep in which the token was cancelled. -/
  idleTicks : traffic.hub.idleTicks = moment.hub.idleTicks ∨
    traffic.hub.idleTicks = moment.hub.idleTicks + 1 ∧ ∃ ticks, moment.turn? = some (.sleeping ticks)
  /-- A call that sleeps has slept since before the cancellation. -/
  asleep : ∀ ticks, traffic.turn? = some (.sleeping ticks) →
    moment.turn? = some (.sleeping ticks) ∧ traffic.hub.idleTicks = moment.hub.idleTicks
  /-- All that comes late was buffered when the token was cancelled, or was sent after that. -/
  balance : ∃ arrivals late, traffic.sent = moment.sent ++ arrivals ∧
    traffic.delivered = moment.delivered ++ late ∧
    late.length + traffic.hub.buffered = moment.hub.buffered + arrivals.length

namespace Lingers

theorem refl (hcancelled : moment.hub.cancelled = true) : moment.Lingers moment where
  cancelled := hcancelled
  idleTicks := .inl rfl
  asleep _ hturn := ⟨hturn, rfl⟩
  balance := ⟨[], [], (List.append_nil _).symm, (List.append_nil _).symm, Nat.zero_add _⟩

theorem balance_step (h : moment.Lingers traffic) (hstep : traffic.step hasToken signal = some next) :
    ∃ arrivals late, next.sent = moment.sent ++ arrivals ∧ next.delivered = moment.delivered ++ late ∧
      late.length + next.hub.buffered = moment.hub.buffered + arrivals.length := by
  obtain ⟨arrivals, late, hsent, hdelivered, hbalance⟩ := h.balance
  obtain ⟨arrived, passed, htouches, hsentNext, hdeliveredNext⟩ := step_touches hstep
  refine ⟨arrivals ++ arrived.toList, late ++ passed.toList, ?_, ?_, ?_⟩
  · rw [hsentNext, hsent, List.append_assoc]
  · rw [hdeliveredNext, hdelivered, List.append_assoc]
  · have hmoved := htouches.balance
    rw [List.length_append, List.length_append]
    omega

theorem step (h : moment.Lingers traffic) (hstep : traffic.step hasToken signal = some next) :
    moment.Lingers next := by
  have hbalance := h.balance_step hstep
  obtain ⟨arrived, passed, htouches, -⟩ := step_touches hstep
  have hcancelled := htouches.cancelled h.cancelled
  cases signal with
  | outside action =>
      have hticks := Multiplexer.perform_idleTicks hasToken traffic.hub action
      cases hstep
      exact ⟨hcancelled, hticks ▸ h.idleTicks, hticks ▸ h.asleep, hbalance⟩
  | call =>
      obtain rfl := eq_of_step_call hstep
      exact ⟨hcancelled, h.idleTicks, nofun, hbalance⟩
  | proceed =>
      obtain ⟨turn, -, hcalling, rfl⟩ := eq_of_step_proceed hstep
      have hticks : (traffic.proceed turn).hub.idleTicks = traffic.hub.idleTicks :=
        Multiplexer.advance_idleTicks_of_cancelled h.cancelled hcalling
      refine ⟨hcancelled, hticks ▸ h.idleTicks, fun ticks hsleeps => ?_, hbalance⟩
      exact absurd (Option.some_inj.1 hsleeps)
        (Multiplexer.advance_ne_sleeping h.cancelled hcalling ticks)
  | elapse =>
      obtain ⟨ticks, hturn, -, rfl⟩ := eq_of_step_elapse hstep
      obtain ⟨hslept, hticks⟩ := h.asleep ticks hturn
      refine ⟨hcancelled, .inr ⟨congrArg (· + 1) hticks, ticks, hslept⟩,
        fun slept hsleeps => ?_, hbalance⟩
      exact absurd (Option.some_inj.1 hsleeps) (traffic.hub.wake_ne_sleeping ticks slept)

end Lingers

/-- What becomes of a multiplexer after its cancellation. -/
structure Aftermath (hasToken : Bool) (moment last : Traffic α β) : Prop where
  lingers : moment.Lingers last
  /-- The call that sleeps ends with its next move, unless it notices the end of its tick first.
  Then the tick is counted, and a sweep follows if the call was to go on after this tick. -/
  woken : ∀ ticks, last.turn? = some (.sleeping ticks) →
    last.step hasToken .proceed = some { last with turn? := some (.returned none) } ∧
      last.step hasToken .elapse = some { last with
        hub := { last.hub with idleTicks := last.hub.idleTicks + 1 }
        turn? := some (if last.hub.patience.goesOn ticks then
          .probing last.hub.lanes.size (ticks + 1) else .returned none) }
  /-- A sweep is the end of its call, which is without a value just if there is none. -/
  swept : ∀ ticks, ∃ item?, (last.hub.sweep ticks last.hub.lanes.size).2 = .returned item? ∧
    (item? = none ↔ last.hub.buffered = 0)
  /-- So no tick passes in a call any more. -/
  next : ∀ {σ : Type} (surroundings : Multiplexer.Surroundings σ α β) (around : σ)
    (ticks granted : Nat),
    ∃ item? after,
      last.hub.next surroundings around ticks granted = (item?.elim .ended .item, after, around) ∧
      (item? = none ↔ last.hub.buffered = 0)
  /-- As many calls as there are values hand one on, and the call after them ends. -/
  run : ∀ {σ : Type} (tick : Multiplexer α β → σ → Multiplexer α β × σ)
    (granted : Multiplexer α β → σ → Nat) (around : σ), ∃ items after,
      last.hub.collect { tick } granted around #[] last.hub.buffered = some (items, after, around) ∧
        items.size = last.hub.buffered ∧ after.buffered = 0

/-- **A cancelled multiplexer hands on what is buffered before it ends.** After the cancellation no
call falls asleep. One that slept then is over with its next move, or that tick is still counted and
one sweep follows at most. But a call that sweeps ends without a value only when nothing is
buffered, whether that was there before the cancellation or was sent later. -/
theorem lingers_after_cancellation (hreached : (ofPorts ports patience).LeadsTo hasToken moment)
    (hcancelled : moment.hub.cancelled = true) (hmore : moment.LeadsTo hasToken last) :
    Aftermath hasToken moment last := by
  have hlingers : moment.Lingers last := by
    obtain ⟨signals, hrun⟩ := hmore
    exact foldlM_induction (P := moment.Lingers) (fun _ _ _ _ h hstep => h.step hstep)
      (.refl hcancelled) hrun
  have hsealed := (hreached.trans hmore).books.sealed
  refine ⟨hlingers, fun ticks hturn => ⟨?_, ?_⟩, fun ticks => ?_,
    fun surroundings around ticks granted => ?_, fun tick granted around => ?_⟩
  · simp only [step, hturn, proceed, Multiplexer.advance_sleeping_of_cancelled hlingers.cancelled,
      Turn.item?, Option.toList_none, List.append_nil]
  · simp only [step, hturn, hlingers.cancelled, if_true, wake, Multiplexer.wake_eq]
  · obtain ⟨item?, hsweep, -, hends⟩ := Multiplexer.sweep_returns hlingers.cancelled hsealed ticks
    exact ⟨item?, congrArg Prod.snd hsweep, hends⟩
  · obtain ⟨item?, after, hnext, -, -, -, hends⟩ :=
      Multiplexer.next_of_cancelled hlingers.cancelled hsealed surroundings around ticks granted
    exact ⟨item?, after, hnext, hends⟩
  · have hserved : ∀ hub around,
        ({ tick } : Multiplexer.Surroundings _ α β).served hub around = (hub, around) := fun _ _ => rfl
    obtain ⟨items, after, hcollect, hsize, hempty⟩ :=
      Multiplexer.collect_of_cancelled hlingers.cancelled hsealed hserved granted around #[] rfl
    exact ⟨items, after, hcollect, hsize.trans (Nat.zero_add _), hempty⟩

/-- One channel, with room for two values. -/
def onePort : List (Port Nat Nat) :=
  [⟨2, 1, fun _ value => value⟩]

/-- A value that was sent before the cancellation, and one that was sent after it, are both handed
on. The first call slept then, and its tick was over before it noticed the cancellation. -/
theorem lingers_after_cancellation_one_port : ∃ moment last : Traffic Nat Nat,
    (ofPorts onePort .forever).LeadsTo true moment ∧ moment.hub.cancelled = true ∧
      moment.delivered = [] ∧
      moment.hub.idleTicks = 0 ∧ moment.LeadsTo true last ∧ last.delivered = [⟨0, 1⟩, ⟨0, 2⟩] ∧
      last.hub.idleTicks = 1 ∧ Aftermath true moment last := by
  have hruns : ((ofPorts onePort .forever).follow true
        [.call, .proceed, .proceed, .outside (.send 0 1), .outside .cancel]).any
      (fun moment => moment.hub.cancelled && moment.delivered == [] && moment.hub.idleTicks == 0 &&
        (moment.follow true
          [.elapse, .proceed, .outside (.send 0 2), .call, .proceed, .call, .proceed, .proceed]).any
          fun last => last.delivered == [⟨0, 1⟩, ⟨0, 2⟩] && last.hub.idleTicks == 1) = true := by
    decide +kernel
  obtain ⟨moment, hmoment, hgood⟩ := (Option.any_eq_true _ _).1 hruns
  simp only [Bool.and_eq_true, beq_iff_eq] at hgood
  obtain ⟨⟨⟨hcancelled, hnothing⟩, hnoTick⟩, hlate⟩ := hgood
  obtain ⟨last, hlast, hgood⟩ := (Option.any_eq_true _ _).1 hlate
  simp only [Bool.and_eq_true, beq_iff_eq] at hgood
  obtain ⟨hdelivered, honeTick⟩ := hgood
  exact ⟨moment, last, ⟨_, hmoment⟩, hcancelled, hnothing, hnoTick, ⟨_, hlast⟩, hdelivered, honeTick,
    lingers_after_cancellation ⟨_, hmoment⟩ hcancelled ⟨_, hlast⟩⟩

/-- So a cancellation does not stop the calls that are made after it: one value is sent, the token
is cancelled, and the next call hands the value on. -/
theorem not_stopped_by_cancellation :
    ¬∀ (ports : List (Port Nat Nat)) (patience : Patience) (moment last : Traffic Nat Nat),
      (ofPorts ports patience).LeadsTo true moment → moment.hub.cancelled = true → moment.turn? = none →
        moment.LeadsTo true last → last.delivered = moment.delivered := by
  have hruns : ((ofPorts onePort .forever).follow true [.outside (.send 0 1), .outside .cancel]).any
      (fun moment => moment.hub.cancelled && moment.turn?.isNone && moment.delivered == [] &&
        (moment.follow true [.call, .proceed]).any fun last => last.delivered == [⟨0, 1⟩]) = true := by
    decide +kernel
  obtain ⟨moment, hmoment, hgood⟩ := (Option.any_eq_true _ _).1 hruns
  simp only [Bool.and_eq_true, beq_iff_eq, Option.isNone_iff_eq_none] at hgood
  obtain ⟨⟨⟨hcancelled, hidle⟩, hnothing⟩, hlate⟩ := hgood
  obtain ⟨last, hlast, hdelivered⟩ := (Option.any_eq_true _ _).1 hlate
  intro hstops
  have hsame := hstops onePort .forever moment last ⟨_, hmoment⟩ hcancelled hidle ⟨_, hlast⟩
  rw [beq_iff_eq.1 hdelivered, hnothing] at hsame
  exact absurd hsame (by decide)

end Traffic

end ParallelFilter
