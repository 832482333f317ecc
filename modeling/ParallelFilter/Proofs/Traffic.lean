import ParallelFilter.Proofs.Runs
import ParallelFilter.Proofs.Calls

/-! One multiplexer loses, duplicates and reorders nothing. Whatever is sent to a channel is handed
on once, in its order and through the channel's mapping, or it is still buffered; the tally counts
it; and once every channel is found closed and empty, all of it was handed on. -/

namespace ParallelFilter

variable {α β : Type}

/-- What happens during the ticks of the surroundings is made of actions of producers and
cancellations. -/
def Multiplexer.Surroundings.IsOutside {σ : Type} (hasToken : Bool)
    (surroundings : Surroundings σ α β) : Prop :=
  ∀ hub around, ∃ actions : List (Action α),
    (surroundings.tick hub around).1 = actions.foldl (Timeline.perform hasToken) hub

/-- So it is where the actions are laid down in advance. -/
theorem Timeline.sleep_isOutside (hasToken : Bool) (duration : Nat) :
    ({ tick := Timeline.sleep hasToken duration } :
      Multiplexer.Surroundings (Timeline α) α β).IsOutside hasToken := by
  have hfrom (deadline : Nat) (appointments : List (Appointment α)) (now : Nat)
      (hub : Multiplexer α β) :
      ∃ actions : List (Action α),
        (sleepFrom hasToken deadline now hub appointments).1 =
          actions.foldl (perform hasToken) hub := by
    induction appointments generalizing now hub with
    | nil => exact ⟨[], rfl⟩
    | cons appointment later ih =>
        rw [sleepFrom]
        split
        · dsimp only
          split
          · exact ⟨appointment.actions, rfl⟩
          · obtain ⟨actions, hactions⟩ :=
              ih (max now appointment.time) (appointment.actions.foldl (perform hasToken) hub)
            exact ⟨appointment.actions ++ actions, by rw [hactions, List.foldl_append]⟩
        · exact ⟨[], rfl⟩
  exact fun hub timeline => hfrom _ timeline.appointments timeline.now hub

namespace Traffic

variable {hasToken : Bool} {ports : List (Port α β)} {patience : Patience}
  {traffic next last : Traffic α β} {signal : Signal α} {signals : List (Signal α)}
  {arrived : Option (Nat × α)} {passed : Option (Delivery β)}

/-- The multiplexer in use as a call begins, which is with a sweep. -/
def begun (traffic : Traffic α β) : Traffic α β :=
  { traffic with turn? := some (.probing traffic.hub.lanes.size 0) }

/-- A call begins with a sweep, wherever the one before it stands. -/
theorem eq_of_step_call (hstep : traffic.step hasToken .call = some next) :
    next = { traffic with turn? := some (.probing traffic.hub.lanes.size 0) } := by
  simp only [step] at hstep
  split at hstep
  · cases hstep
  all_goals exact (Option.some_inj.1 hstep).symm

/-- Only a call that has not returned makes moves. -/
theorem eq_of_step_proceed (hstep : traffic.step hasToken .proceed = some next) :
    ∃ turn, traffic.turn? = some turn ∧ (∀ item?, turn ≠ .returned item?) ∧
      next = traffic.proceed turn := by
  simp only [step] at hstep
  split at hstep
  · rename_i left ticks hturn
    exact ⟨_, hturn, nofun, (Option.some_inj.1 hstep).symm⟩
  · rename_i ticks hturn
    exact ⟨_, hturn, nofun, (Option.some_inj.1 hstep).symm⟩
  · cases hstep
  · cases hstep

/-- Only where somebody has cancelled there are two things to notice. -/
theorem eq_of_step_elapse (hstep : traffic.step hasToken .elapse = some next) : ∃ ticks,
    traffic.turn? = some (.sleeping ticks) ∧ traffic.hub.cancelled = true ∧
      next = traffic.wake ticks := by
  simp only [step] at hstep
  split at hstep
  · rename_i ticks hturn
    obtain ⟨hcancelled, hnext⟩ := Option.ite_none_right_eq_some.1 hstep
    exact ⟨ticks, hturn, hcancelled, (Option.some_inj.1 hnext).symm⟩
  all_goals cases hstep

theorem step_elapse_ne (hrunning : traffic.hub.cancelled = false) :
    traffic.step hasToken .elapse ≠ some next := by
  intro hstep
  obtain ⟨ticks, -, hcancelled, -⟩ := eq_of_step_elapse hstep
  exact absurd (hrunning.symm.trans hcancelled) (by decide)

/-- While nobody has cancelled, a call that sleeps goes on when its tick is over. -/
theorem proceed_sleeping (hcancelled : traffic.hub.cancelled = false) (ticks : Nat) :
    traffic.proceed (.sleeping ticks) = traffic.wake ticks := by
  rw [proceed, Multiplexer.advance, if_neg (Bool.eq_false_iff.1 hcancelled),
    Multiplexer.wake_hands_nothing, Option.toList_none, List.append_nil]
  rfl

/-- What a signal does to the lanes, and what comes in and goes out with it. -/
theorem step_touches (hstep : traffic.step hasToken signal = some next) : ∃ arrived passed,
    traffic.hub.Touches arrived passed next.hub ∧ next.sent = traffic.sent ++ arrived.toList ∧
      next.delivered = traffic.delivered ++ passed.toList := by
  cases signal with
  | outside action =>
      cases hstep
      exact ⟨_, none, Multiplexer.perform_touches hasToken traffic.hub action, rfl,
        (List.append_nil _).symm⟩
  | call =>
      obtain rfl := eq_of_step_call hstep
      exact ⟨none, none, .none rfl rfl rfl id, (List.append_nil _).symm, (List.append_nil _).symm⟩
  | proceed =>
      obtain ⟨turn, -, hcalling, rfl⟩ := eq_of_step_proceed hstep
      exact ⟨none, _, Multiplexer.advance_touches _ hcalling, (List.append_nil _).symm, rfl⟩
  | elapse =>
      obtain ⟨ticks, -, -, rfl⟩ := eq_of_step_elapse hstep
      exact ⟨none, none, traffic.hub.wake_touches ticks, (List.append_nil _).symm,
        (List.append_nil _).symm⟩

/-- What happens outside the call leaves the call where it is. -/
theorem step_outside (hasToken : Bool) (traffic : Traffic α β) (action : Action α) : ∃ next,
    traffic.step hasToken (.outside action) = some next ∧
      next.hub = Timeline.perform hasToken traffic.hub action ∧ next.turn? = traffic.turn? ∧
      next.delivered = traffic.delivered :=
  ⟨_, rfl, rfl, rfl, rfl⟩

/-- The books of a multiplexer in use. -/
structure Books (ports : List (Port α β)) (traffic : Traffic α β) : Prop where
  size : traffic.hub.lanes.size = ports.length
  sources : ∀ item ∈ traffic.delivered, item.source < ports.length
  lane : ∀ {index : Nat} {lane : Lane α β}, traffic.hub.lanes[index]? = some lane → ∃ port,
    ports[index]? = some port ∧
      lane.Accounts port.convert (traffic.sentTo index) (traffic.deliveredBy index)
  received : traffic.hub.received = traffic.delivered.length
  counted : (traffic.hub.lanes.toList.map Lane.delivered).sum = traffic.hub.received

theorem Books.ofPorts (ports : List (Port α β)) (patience : Patience) :
    (ofPorts ports patience).Books ports where
  size := by simp [Traffic.ofPorts]
  sources := nofun
  lane := by
    intro index lane hlane
    simp only [Traffic.ofPorts, List.getElem?_toArray, List.getElem?_map,
      Option.map_eq_some_iff] at hlane
    obtain ⟨port, hport, rfl⟩ := hlane
    exact ⟨port, hport, rfl, ⟨[], rfl, rfl, rfl⟩, nofun⟩
  received := rfl
  counted := by
    have hnone : (Lane.delivered ∘ Port.lane : Port α β → Nat) = fun _ => 0 := rfl
    simp [Traffic.ofPorts, hnone, List.map_const']

theorem sentTo_append {source : Nat} {value? : Option α}
    (hsent : next.sent = traffic.sent ++ (value?.map fun value => (source, value)).toList)
    (other : Nat) :
    next.sentTo other = traffic.sentTo other ++ if source = other then value?.toList else [] := by
  rw [sentTo, hsent, List.filterMap_append, sentTo]
  cases value? with
  | none => simp
  | some value => by_cases hsource : source = other <;> simp [hsource]

theorem deliveredBy_append {source : Nat} {value? : Option β}
    (hdelivered : next.delivered =
      traffic.delivered ++ (value?.map fun value => ⟨source, value⟩).toList)
    (other : Nat) :
    next.deliveredBy other = traffic.deliveredBy other ++ if source = other then value?.toList
      else [] := by
  rw [deliveredBy, hdelivered, List.filterMap_append, deliveredBy]
  cases value? with
  | none => simp
  | some value => by_cases hsource : source = other <;> simp [hsource]

/-- Whatever happens, the books are kept: a lane that moves keeps its own, and the others keep
theirs. -/
theorem Books.touches (h : traffic.Books ports) (htouches : traffic.hub.Touches arrived passed next.hub)
    (hsent : next.sent = traffic.sent ++ arrived.toList)
    (hdelivered : next.delivered = traffic.delivered ++ passed.toList) : next.Books ports := by
  have hsize := htouches.size_eq.trans h.size
  have hreceived : next.hub.received = next.delivered.length := by
    rw [htouches.received_eq, hdelivered, List.length_append, h.received]
  have hcounted := htouches.counted h.counted
  cases htouches with
  | @lane source hsource value? handed? lane after hmoves hlanes _ _ _ =>
      refine ⟨hsize, ?_, ?_, hreceived, hcounted⟩
      · intro item hitem
        rw [hdelivered, List.mem_append, Option.mem_toList] at hitem
        rcases hitem with hitem | hitem
        · exact h.sources item hitem
        · obtain ⟨value, -, rfl⟩ := Option.map_eq_some_iff.1 hitem
          exact h.size ▸ hsource
      · intro other moved hmoved
        rw [sentTo_append hsent, deliveredBy_append hdelivered]
        rw [hlanes] at hmoved
        rcases getElem?_set_cases hsource hmoved with ⟨rfl, rfl⟩ | ⟨hne, hmoved⟩
        · obtain ⟨port, hport, haccounts⟩ := h.lane (Array.getElem?_eq_getElem hsource)
          rw [if_pos rfl, if_pos rfl]
          exact ⟨port, hport, haccounts.moves hmoves⟩
        · rw [if_neg hne, if_neg hne, List.append_nil, List.append_nil]
          exact h.lane hmoved
  | none hlanes _ _ _ =>
      rw [Option.toList_none, List.append_nil] at hsent hdelivered
      refine ⟨hsize, by rw [hdelivered]; exact h.sources, ?_, hreceived, hcounted⟩
      intro other lane hlane
      rw [sentTo, hsent, deliveredBy, hdelivered]
      exact h.lane (hlanes ▸ hlane)

theorem Books.step (h : traffic.Books ports) (hstep : traffic.step hasToken signal = some next) :
    next.Books ports := by
  obtain ⟨arrived, passed, htouches, hsent, hdelivered⟩ := step_touches hstep
  exact h.touches htouches hsent hdelivered

/-- The books of every lane that was found closed and empty say so. -/
theorem Books.sealed (h : traffic.Books ports) : traffic.hub.Sealed := by
  intro lane hlane
  obtain ⟨index, hindex⟩ := Array.mem_iff_getElem?.1 hlane
  obtain ⟨port, -, haccounts⟩ := h.lane hindex
  exact haccounts.drained

/-- Why the latest call has returned without a value, if it has. -/
def Excused (traffic : Traffic α β) : Prop :=
  traffic.turn? = some (.returned none) →
    traffic.hub.isExhausted = true ∨ traffic.hub.cancelled = true ∨ traffic.hub.patience ≠ .forever

theorem Excused.step (h : traffic.Excused) (hstep : traffic.step hasToken signal = some next) :
    next.Excused := by
  obtain ⟨arrived, passed, htouches, -⟩ := step_touches hstep
  cases signal with
  | outside action =>
      cases hstep
      intro hturn
      rcases h hturn with hexhausted | hcancelled | hpatience
      · exact .inl (htouches.isExhausted hexhausted)
      · exact .inr (.inl (htouches.cancelled hcancelled))
      · exact .inr (.inr (htouches.patience_eq ▸ hpatience))
  | call =>
      obtain rfl := eq_of_step_call hstep
      exact nofun
  | proceed =>
      obtain ⟨turn, -, hcalling, rfl⟩ := eq_of_step_proceed hstep
      intro hended
      rcases Multiplexer.advance_eq_none hcalling (Option.some_inj.1 hended) with hexhausted |
        hcancelled | hpatience
      · exact .inl hexhausted
      · exact .inr (.inl hcancelled)
      · exact .inr (.inr (htouches.patience_eq ▸ hpatience))
  | elapse =>
      obtain ⟨ticks, -, -, rfl⟩ := eq_of_step_elapse hstep
      intro hended
      exact .inr (.inr (htouches.patience_eq ▸ Multiplexer.wake_eq_none (Option.some_inj.1 hended)))

/-- The one leads to the other. -/
def LeadsTo (hasToken : Bool) (traffic next : Traffic α β) : Prop :=
  ∃ signals, traffic.follow hasToken signals = some next

namespace LeadsTo

theorem refl (traffic : Traffic α β) : traffic.LeadsTo hasToken traffic :=
  Reaches.refl _ traffic

theorem ofStep (signal : Signal α) (h : traffic.step hasToken signal = some next) :
    traffic.LeadsTo hasToken next :=
  Reaches.ofStep signal h

theorem trans (h : traffic.LeadsTo hasToken next) (hmore : next.LeadsTo hasToken last) :
    traffic.LeadsTo hasToken last :=
  Reaches.trans h hmore

/-- The books are kept from the beginning. -/
theorem books (h : (ofPorts ports patience).LeadsTo hasToken last) : last.Books ports := by
  obtain ⟨signals, hrun⟩ := h
  exact foldlM_induction (P := Books ports) (fun _ _ _ _ hbooks hstep => hbooks.step hstep)
    (.ofPorts ports patience) hrun

/-- Several actions follow one another. -/
theorem ofActions (hasToken : Bool) (traffic : Traffic α β) (actions : List (Action α)) : ∃ next,
    traffic.LeadsTo hasToken next ∧ next.hub = actions.foldl (Timeline.perform hasToken) traffic.hub ∧
      next.turn? = traffic.turn? ∧ next.delivered = traffic.delivered := by
  induction actions generalizing traffic with
  | nil => exact ⟨traffic, .refl traffic, rfl, rfl, rfl⟩
  | cons action actions ih =>
      obtain ⟨next, hnext, hhub, hturn, hdelivered⟩ := ih { traffic with
        hub := Timeline.perform hasToken traffic.hub action
        sent := traffic.sent ++ (traffic.hub.admits action).toList }
      exact ⟨next, (LeadsTo.ofStep (.outside action) rfl).trans hnext, hhub, hturn, hdelivered⟩

section Call

variable {σ : Type} {surroundings : Multiplexer.Surroundings σ α β}

/-- Runs carry calls, whatever the surroundings do with the producers during the ticks. -/
theorem carries (hticks : surroundings.IsOutside hasToken) :
    surroundings.Carries fun state next => state.2.LeadsTo hasToken next.2 where
  refl _ := .refl _
  trans := .trans
  proceed around traffic turn hturn hcalling := by
    apply ofStep .proceed
    cases turn with
    | probing left ticks | sleeping ticks => simp only [Traffic.step, hturn]
    | returned item? => exact absurd rfl (hcalling item?)
  tick around traffic _ hturn := by
    obtain ⟨actions, hactions⟩ := hticks traffic.hub around
    obtain ⟨later, hlater, hhub, hstill, hdelivered⟩ := ofActions hasToken traffic actions
    exact ⟨later, hlater, hhub.trans hactions.symm, hstill.trans hturn, hdelivered⟩

/-- So a whole call is made of moves and actions. -/
theorem ofNext (hticks : surroundings.IsOutside hasToken) {traffic : Traffic α β} (around : σ)
    {ticks : Nat} (granted : Nat)
    (hturn : traffic.turn? = some (.probing traffic.hub.lanes.size ticks)) : ∃ next,
    traffic.LeadsTo hasToken next ∧
      next.hub = (traffic.hub.next surroundings around ticks granted).2.1 ∧
      next.turn? = some (traffic.hub.next surroundings around ticks granted).1.turn ∧
      next.delivered = traffic.delivered ++
        (traffic.hub.next surroundings around ticks granted).1.turn.item?.toList :=
  (carries hticks).ofNext around granted hturn

end Call

end LeadsTo

/-- What is true of a lane that was found closed and empty: it is, it is not looked at any more, and
it stays as it is. -/
structure Retired (hasToken : Bool) (traffic : Traffic α β) (index : Nat) (lane : Lane α β) : Prop where
  drained : lane.Drained
  unread : ∀ turn channel, (traffic.hub.withChannel index channel).advance turn =
    ((traffic.hub.advance turn).1.withChannel index channel, (traffic.hub.advance turn).2)
  kept : ∀ later, traffic.LeadsTo hasToken later → later.hub.lanes[index]? = some lane

/-- What a multiplexer of the ports has to do with what was sent to them. -/
structure Faithful (hasToken : Bool) (ports : List (Port α β)) (patience : Patience)
    (traffic : Traffic α β) :
    Prop where
  sources : ∀ item ∈ traffic.delivered, item.source < ports.length
  /-- The place of a value in `taken` is how often its mapping was applied before. -/
  delivered : ∀ index port, ports[index]? = some port → ∃ taken, taken <+: traffic.sentTo index ∧
    traffic.deliveredBy index = taken.mapIdx port.convert
  perSource : traffic.hub.tally.perSource =
    (List.range ports.length).map fun index => (traffic.deliveredBy index).length
  received : traffic.hub.tally.received = traffic.hub.tally.perSource.sum
  total : traffic.hub.tally.received = traffic.delivered.length
  closed : ∀ index lane, traffic.hub.lanes[index]? = some lane → lane.closed = true →
    traffic.Retired hasToken index lane
  swept : ∀ ticks after turn, traffic.hub.sweep ticks traffic.hub.lanes.size = (after, turn) →
    turn.item? = none → (∀ lane ∈ after.lanes, lane.channel.buffer.toList = []) ∧
      (after.isExhausted = true ↔ ∀ lane ∈ after.lanes, lane.Drained)
  whole : traffic.hub.isExhausted = true → ∀ index port, ports[index]? = some port →
    traffic.deliveredBy index = (traffic.sentTo index).mapIdx port.convert
  forever : traffic.turn? = some (.returned none) → patience = .forever →
    traffic.hub.cancelled = false →
    traffic.hub.isExhausted = true

/-- A lane that was found closed and empty is never touched again. -/
theorem Books.retired (h : traffic.Books ports) {index : Nat} {lane : Lane α β}
    (hlane : traffic.hub.lanes[index]? = some lane) (hclosed : lane.closed = true) :
    traffic.Retired hasToken index lane where
  drained := h.sealed lane (Array.mem_of_getElem? hlane) hclosed
  unread turn channel := by
    refine Multiplexer.advance_withChannel (fun other hother => ?_) channel turn
    rw [hlane, Option.some_inj] at hother
    exact hother ▸ hclosed
  kept := by
    rintro later ⟨signals, hsignals⟩
    refine (foldlM_induction (P := fun traffic => traffic.Books ports ∧
      traffic.hub.lanes[index]? = some lane)
      (fun traffic signal next _ hkept hstep => ?_) ⟨h, hlane⟩ hsignals).2
    obtain ⟨hbooks, hsame⟩ := hkept
    obtain ⟨arrived, passed, htouches, -⟩ := step_touches hstep
    exact ⟨hbooks.step hstep, hbooks.sealed.getElem?_of_closed htouches hsame hclosed⟩

theorem Books.accounts (h : traffic.Books ports) {index : Nat} {port : Port α β}
    (hport : ports[index]? = some port) :
    ∃ lane, traffic.hub.lanes[index]? = some lane ∧
      lane.Accounts port.convert (traffic.sentTo index) (traffic.deliveredBy index) := by
  have hindex : index < traffic.hub.lanes.size := by
    rw [h.size]
    exact (List.getElem?_eq_some_iff.1 hport).1
  obtain ⟨other, hother, haccounts⟩ := h.lane (Array.getElem?_eq_getElem hindex)
  rw [hport, Option.some_inj] at hother
  exact ⟨_, Array.getElem?_eq_getElem hindex, hother ▸ haccounts⟩

theorem Books.faithful (h : traffic.Books ports) (hexcused : traffic.Excused)
    (hpatience : traffic.hub.patience = patience) : traffic.Faithful hasToken ports patience where
  sources := h.sources
  delivered := by
    intro index port hport
    obtain ⟨lane, -, haccounts⟩ := h.accounts hport
    obtain ⟨taken, hsent, -, hdelivered⟩ := haccounts.balance
    exact ⟨taken, ⟨_, hsent.symm⟩, hdelivered⟩
  perSource := by
    apply List.ext_getElem
    · rw [Multiplexer.tally, List.length_map, Array.length_toList, h.size, List.length_map,
        List.length_range]
    · intro index hleft hright
      rw [List.length_map, List.length_range] at hright
      obtain ⟨lane, hlane, haccounts⟩ := h.accounts (List.getElem?_eq_getElem hright)
      obtain ⟨taken, -, hcount, hdelivered⟩ := haccounts.balance
      rw [Array.getElem?_eq_some_iff] at hlane
      obtain ⟨hindex, rfl⟩ := hlane
      simp only [Multiplexer.tally, List.getElem_map, List.getElem_range, Array.getElem_toList]
      rw [hcount, hdelivered, List.length_mapIdx]
  received := h.counted.symm
  total := h.received
  closed _ _ hlane hclosed := h.retired hlane hclosed
  swept _ _ _ hsweep hnothing := Multiplexer.isExhausted_of_sweep h.sealed hsweep hnothing
  whole := by
    intro hexhausted index port hport
    obtain ⟨lane, hlane, haccounts⟩ := h.accounts hport
    have hclosed : lane.closed = true :=
      Array.all_eq_true_iff_forall_mem.1 hexhausted lane (Array.mem_of_getElem? hlane)
    obtain ⟨taken, hsent, -, hdelivered⟩ := haccounts.balance
    rw [(haccounts.drained hclosed).2, List.append_nil] at hsent
    rw [hdelivered, hsent]
  forever := by
    intro hturn hforever hcancelled
    rcases hexcused hturn with hexhausted | hstopped | hends
    · exact hexhausted
    · exact absurd (hcancelled.symm.trans hstopped) (by decide)
    · exact absurd (hpatience.trans hforever) hends

theorem faithful_of_leadsTo (hreached : (ofPorts ports patience).LeadsTo hasToken last) :
    last.Faithful hasToken ports patience := by
  have hbooks := hreached.books
  obtain ⟨signals, hrun⟩ := hreached
  have hfirst : (ofPorts ports patience).Excused ∧
      (ofPorts ports patience).hub.patience = patience := ⟨nofun, rfl⟩
  obtain ⟨hexcused, hpatience⟩ := foldlM_induction
    (P := fun traffic => traffic.Excused ∧ traffic.hub.patience = patience)
    (fun traffic signal next _ hkept hstep => by
      obtain ⟨hexcused, hpatience⟩ := hkept
      obtain ⟨arrived, passed, htouches, -⟩ := step_touches hstep
      exact ⟨hexcused.step hstep, htouches.patience_eq.trans hpatience⟩) hfirst hrun
  exact hbooks.faithful hexcused hpatience

/-- **One multiplexer loses, duplicates and reorders nothing.** However producers and calls for the
next value are interleaved, what was handed on is what was sent, channel by channel, up to what is
still buffered. A call of `next` is part of such a run, whatever the producers do during its ticks. -/
theorem relays_faithfully (hreached : (ofPorts ports patience).LeadsTo hasToken last) :
    last.Faithful hasToken ports patience ∧
      ∀ {σ : Type} (surroundings : Multiplexer.Surroundings σ α β) (around : σ) (granted : Nat),
        surroundings.IsOutside hasToken → (∀ left ticks, last.turn? ≠ some (.probing left ticks)) →
        ∃ next : Traffic α β, next.Faithful hasToken ports patience ∧
          next.hub = (last.hub.next surroundings around 0 granted).2.1 ∧
          next.turn? = some (last.hub.next surroundings around 0 granted).1.turn ∧
          next.delivered = last.delivered ++
            (last.hub.next surroundings around 0 granted).1.turn.item?.toList := by
  refine ⟨faithful_of_leadsTo hreached, fun surroundings around granted hticks hidle => ?_⟩
  have hcall : last.step hasToken .call = some last.begun := by
    rw [step]
    split
    · rename_i left ticks hturn
      exact absurd hturn (hidle left ticks)
    all_goals rfl
  have hprobing : last.begun.turn? = some (.probing last.begun.hub.lanes.size 0) := rfl
  obtain ⟨next, hnext, hends⟩ := LeadsTo.ofNext hticks around granted hprobing
  exact ⟨next, faithful_of_leadsTo (hreached.trans ((LeadsTo.ofStep .call hcall).trans hnext)), hends⟩

/-- Two channels with little room, whose values are handed on with their places. -/
def twoPorts : List (Port Nat (Nat × Nat)) :=
  [⟨1, 1, Prod.mk⟩, ⟨2, 1, Prod.mk⟩]

/-- Both channels are served in turn, and then found closed and empty one after the other. A call
that begins before anything was sent hands on what is sent during its first tick. -/
theorem relays_faithfully_two_ports :
    (∃ last, (ofPorts twoPorts .forever).LeadsTo false last ∧
      last.delivered = [⟨0, (0, 10)⟩, ⟨1, (0, 20)⟩, ⟨0, (1, 11)⟩, ⟨1, (1, 21)⟩] ∧
      last.hub.isExhausted = true ∧ last.Faithful false twoPorts .forever) ∧
    ∃ next : Traffic Nat (Nat × Nat), next.Faithful false twoPorts .forever ∧
      next.delivered = [⟨0, (0, 10)⟩] := by
  constructor
  · have hends : ((ofPorts twoPorts .forever).follow false
        [.outside (.send 0 10), .outside (.send 0 11), .outside (.send 1 20), .call, .proceed,
          .outside (.send 0 11), .outside (.send 1 21), .call, .proceed, .outside (.close 1), .call,
          .proceed, .call, .proceed, .call, .proceed, .proceed, .proceed, .outside (.close 0),
          .proceed, .proceed, .proceed, .proceed]).any
        (fun last => last.delivered == [⟨0, (0, 10)⟩, ⟨1, (0, 20)⟩, ⟨0, (1, 11)⟩, ⟨1, (1, 21)⟩] &&
          last.hub.isExhausted) = true := by
      decide +kernel
    obtain ⟨last, hlast, hgood⟩ := (Option.any_eq_true _ _).1 hends
    obtain ⟨hdelivered, hexhausted⟩ := (Bool.and_eq_true _ _).mp hgood
    obtain ⟨hfaithful, -⟩ := relays_faithfully ⟨_, hlast⟩
    exact ⟨last, ⟨_, hlast⟩, beq_iff_eq.1 hdelivered, hexhausted, hfaithful⟩
  · obtain ⟨-, hcalls⟩ := relays_faithfully (.refl (ofPorts twoPorts .forever))
    obtain ⟨next, hfaithful, -, -, hdelivered⟩ :=
      hcalls { tick := Timeline.sleep false 1 } ⟨0, [⟨1, [.send 0 10]⟩]⟩ 1
        (Timeline.sleep_isOutside false 1) nofun
    exact ⟨next, hfaithful, hdelivered.trans (by decide +kernel)⟩

end Traffic

end ParallelFilter
