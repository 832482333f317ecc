import ParallelFilter.Proofs.Releasing

/-! The multiplex command delivers prefixes, and everything when it waits. `runMultiplex`, where the
producers act only during the ticks, is one order of the moves of the command, and it comes to an
end: during the first tick of a call every channel is filled or loses its sender, so the sweep after
it finds a value or the end. -/

namespace ParallelFilter

namespace Command

open Multiplexer

namespace Demonstration

variable {request : MultiplexRequest} {demo : Demonstration} {around : Producer × Producer}
  {traffic : Traffic Payload Payload}

/-- A producer does its moves, and nothing else happens. -/
structure Aside (demo later : Demonstration) : Prop where
  reaches : Reaches Demonstration.step demo later
  turn_eq : later.traffic.turn? = demo.traffic.turn?
  delivered_eq : later.traffic.delivered = demo.traffic.delivered
  collected_eq : later.collected? = demo.collected?

/-- What a producer does in one tick are moves of the command. -/
theorem produce_aside (source : Nat) {producer : Producer}
    (hproducer : demo.producers[source]? = some producer)
    (hsender : demo.traffic.hub.hasSender source = true) {count : Nat}
    (hcount : producer.total - producer.sent = count) :
    ∃ later, demo.Aside later ∧ later.traffic.hub = (producer.produce source demo.traffic.hub count).1 ∧
      later.producers = demo.producers.setIfInBounds source
        (producer.produce source demo.traffic.hub count).2 := by
  induction count generalizing demo producer with
  | zero =>
      obtain ⟨traffic, hstep, hhub, hturn, hdelivered⟩ :=
        step_stop hproducer hsender (fun hleft => by omega)
      refine ⟨{ demo with traffic }, ⟨.ofStep _ hstep, hturn, hdelivered, rfl⟩, hhub, ?_⟩
      exact (setIfInBounds_eq_self hproducer).symm
  | succ count ih =>
      rcases Producer.produce_succ_cases source producer demo.traffic.hub count with
        ⟨hsent, hgoes⟩ | ⟨-, hends⟩
      · obtain ⟨next, hstep, hproducers, hhub, hturn, hdelivered, hcollected⟩ :=
          step_send hproducer hsender (by omega) hsent
        have hnext : next.producers[source]? = some { producer with sent := producer.sent + 1 } := by
          rw [hproducers, Array.getElem?_setIfInBounds_self_of_lt
            (Array.getElem?_eq_some_iff.1 hproducer).1]
        have hstill : next.traffic.hub.hasSender source = true := by
          rw [hhub, send_hasSender, hsender]
        have hleft : producer.total - (producer.sent + 1) = count := by omega
        obtain ⟨later, haside, hlaterHub, hlaterProducers⟩ := ih hnext hstill hleft
        refine ⟨later, ⟨.trans (.ofStep _ hstep) haside.reaches, haside.turn_eq.trans hturn,
          haside.delivered_eq.trans hdelivered, haside.collected_eq.trans hcollected⟩, ?_, ?_⟩
        · rw [hgoes, hlaterHub, hhub]
        · rw [hgoes, hlaterProducers, hproducers, hhub, Array.setIfInBounds_setIfInBounds]
      · rw [hends]
        exact ⟨demo, ⟨.refl _ demo, rfl, rfl, rfl⟩, rfl, (setIfInBounds_eq_self hproducer).symm⟩

theorem run_aside (source : Nat) {producer : Producer}
    (hproducer : demo.producers[source]? = some producer) :
    ∃ later, demo.Aside later ∧ later.traffic.hub = (producer.run source demo.traffic.hub).1 ∧
      later.producers = demo.producers.setIfInBounds source
        (producer.run source demo.traffic.hub).2 := by
  rw [Producer.run]
  split
  · rename_i hsender
    exact produce_aside source hproducer hsender rfl
  · exact ⟨demo, ⟨.refl _ demo, rfl, rfl, rfl⟩, rfl, (setIfInBounds_eq_self hproducer).symm⟩

/-- The command while the loop goes on. -/
def running (producers : Producer × Producer) (traffic : Traffic Payload Payload) : Demonstration :=
  ⟨traffic, #[producers.1, producers.2], none⟩

/-- One such command leads to another, and nobody cancels. -/
def Leads (state next : (Producer × Producer) × Traffic Payload Payload) : Prop :=
  Reaches Demonstration.step (running state.1 state.2) (running next.1 next.2) ∧
    next.2.hub.cancelled = state.2.hub.cancelled

/-- So the calls that the loop makes, and the ticks between their moves, are moves of the command. -/
theorem carries :
    ({ tick := produceBoth } : Surroundings (Producer × Producer) Payload Payload).Carries Leads where
  refl state := ⟨.refl _ _, rfl⟩
  trans hfirst hsecond := ⟨hfirst.1.trans hsecond.1, hsecond.2.trans hfirst.2⟩
  proceed around traffic turn hturn hcalling :=
    ⟨.ofStep _ (step_proceed rfl hturn hcalling), advance_cancelled traffic.hub turn⟩
  tick around traffic slept hturn := by
    obtain ⟨first, hfirst, hfirstHub, hfirstProducers⟩ :=
      run_aside 0 (show (running around traffic).producers[0]? = some around.1 from rfl)
    have hother : first.producers[1]? = some around.2 := by
      rw [hfirstProducers]
      rfl
    obtain ⟨second, hsecond, hsecondHub, hsecondProducers⟩ := run_aside 1 hother
    rw [hfirstHub] at hsecondHub hsecondProducers
    rw [hfirstProducers] at hsecondProducers
    have hsame : second = running (produceBoth traffic.hub around).2 second.traffic := by
      have hcollected : second.collected? = none := hsecond.collected_eq.trans hfirst.collected_eq
      obtain ⟨_, _, _⟩ := second
      cases hcollected
      cases hsecondProducers
      rfl
    have hcancelled : second.traffic.hub.cancelled = traffic.hub.cancelled := by
      rw [hsecondHub, Producer.run_cancelled, Producer.run_cancelled]
      rfl
    refine ⟨second.traffic, ⟨?_, hcancelled⟩, hsecondHub,
      (hsecond.turn_eq.trans hfirst.turn_eq).trans hturn,
      hsecond.delivered_eq.trans hfirst.delivered_eq⟩
    rw [← hsame]
    exact hfirst.reaches.trans hsecond.reaches

theorem Leads.sound {state next : (Producer × Producer) × Traffic Payload Payload}
    (hleads : Leads state next) (h : (running state.1 state.2).Sound request) :
    (running next.1 next.2).Sound request := by
  obtain ⟨⟨events, hrun⟩, -⟩ := hleads
  exact h.follow hrun

section Call

variable (h : (running around traffic).Sound request)

include h

/-- One tick is enough for a call to return. -/
theorem next_returns {ticks granted : Nat}
    (hturn : traffic.turn? = some (.probing traffic.hub.lanes.size ticks)) (slept : Nat) :
    (traffic.hub.next { tick := produceBoth } around ticks (granted + 1)).1 ≠ .asleep slept := by
  obtain ⟨swept, hswept, hhub, hends, -⟩ := carries.ofSweep around hturn
  cases hsweep : traffic.hub.sweep ticks traffic.hub.lanes.size with
  | mk found stands =>
      cases stands with
      | probing _ _ | returned _ => exact next_ne_asleep (by rw [hsweep]; exact nofun) slept
      | sleeping later =>
          rw [hsweep] at hhub hends
          obtain rfl : swept.hub = found := hhub
          obtain ⟨woken, hwoken, hwokenHub, -⟩ := carries.ofTick around hends
          have hfound := hswept.sound h
          rcases advance_sleeping_cases (produceBoth swept.hub around).1 later with hover | hagain
          · rw [next_of_ended hsweep hover]
            exact nofun
          · rw [next_of_awake hsweep hagain]
            refine next_ne_asleep (sweep_of_supplied ?_ ?_ _) slept
            · have hsealed := ((hwoken.sound hfound).live rfl).books.sealed
              rw [running, hwokenHub] at hsealed
              exact hsealed
            · rw [advance_sleeping_lanes]
              exact produceBoth_supplied hfound.wired hfound.size around

/-- So a call of the loop ends, with a value or without. -/
theorem call_cases
    (hturn : traffic.turn? = none ∨ ∃ item, traffic.turn? = some (.returned (some item))) :
    ∃ later last, Leads (around, traffic) (later, last) ∧
      ((traffic.hub.next { tick := produceBoth } around 0 (traffic.hub.patience.ticks 2) =
          (.ended, last.hub, later) ∧
        last.delivered = traffic.delivered ∧ last.turn? = some (.returned none)) ∨
      ∃ item, traffic.hub.next { tick := produceBoth } around 0 (traffic.hub.patience.ticks 2) =
          (.item item, last.hub, later) ∧
        last.delivered = traffic.delivered ++ [item] ∧ last.turn? = some (.returned (some item))) := by
  obtain ⟨granted, hgranted⟩ : ∃ granted, traffic.hub.patience.ticks 2 = granted + 1 := by
    cases traffic.hub.patience <;> exact ⟨_, rfl⟩
  rw [hgranted, ← show traffic.begun.hub = traffic.hub from rfl]
  have hprobing : traffic.begun.turn? = some (.probing traffic.begun.hub.lanes.size 0) := rfl
  have hbegun : Leads (around, traffic) (around, traffic.begun) :=
    ⟨.ofStep .receive (step_call rfl hturn), rfl⟩
  obtain ⟨last, hlast, hhub, hends, hdelivered⟩ := carries.ofNext around (granted + 1) hprobing
  have hreturns (slept : Nat) :
      (traffic.begun.hub.next { tick := produceBoth } around 0 (granted + 1)).1 ≠ .asleep slept :=
    next_returns (hbegun.sound h) hprobing slept
  generalize traffic.begun.hub.next { tick := produceBoth } around 0 (granted + 1) = ended at *
  obtain ⟨reception, hub, later⟩ := ended
  obtain rfl : last.hub = hub := hhub
  refine ⟨later, last, carries.trans hbegun hlast, ?_⟩
  cases reception with
  | item item => exact .inr ⟨item, rfl, hdelivered, hends⟩
  | ended => exact .inl ⟨rfl, hdelivered.trans (List.append_nil _), hends⟩
  | asleep slept => exact absurd rfl (hreturns slept)

theorem length_delivered_le : traffic.delivered.length ≤ request.ints + request.texts := by
  obtain ⟨ints, texts, hprefixes, -⟩ := (h.live rfl).exists_prefixes
  calc traffic.delivered.length = ints + texts := hprefixes.length
    _ ≤ request.ints + request.texts := Nat.add_le_add hprefixes.ints_le hprefixes.texts_le

/-- The loop comes to an end, since no more values can come than there are. -/
theorem collect_leads
    (hturn : traffic.turn? = none ∨ ∃ item, traffic.turn? = some (.returned (some item)))
    {items : Array (Delivery Payload)} (hitems : items.toList = traffic.delivered) {values : Nat}
    (hvalues : items.size + values = request.ints + request.texts) : ∃ collected later last,
      traffic.hub.collect { tick := produceBoth } (fun hub _ => hub.patience.ticks 2) around
        items values =
        some (collected, last.hub, later) ∧
      Leads (around, traffic) (later, last) ∧ last.delivered = collected.toList ∧
      last.turn? = some (.returned none) := by
  induction values generalizing around traffic items with
  | zero =>
      obtain ⟨later, last, hleads, ⟨hnext, hsame, hends⟩ | ⟨item, -, hmore, -⟩⟩ := call_cases h hturn
      · exact ⟨items, later, last, collect_of_ended hnext items 0, hleads, hsame.trans hitems.symm,
          hends⟩
      · have hle := length_delivered_le (hleads.sound h)
        rw [hmore, ← hitems, List.length_append, Array.length_toList, List.length_singleton] at hle
        omega
  | succ values ih =>
      obtain ⟨later, last, hleads, ⟨hnext, hsame, hends⟩ | ⟨item, hnext, hmore, hends⟩⟩ :=
        call_cases h hturn
      · exact ⟨items, later, last, collect_of_ended hnext items _, hleads, hsame.trans hitems.symm,
          hends⟩
      · have hpushed : (items.push item).toList = last.delivered := by
          rw [Array.toList_push, hitems, hmore]
        have hfewer : (items.push item).size + values = request.ints + request.texts := by
          rw [Array.size_push]
          omega
        obtain ⟨collected, latest, final, hcollect, hrest, hfinal⟩ :=
          ih (hleads.sound h) (.inr ⟨item, hends⟩) hpushed hfewer
        refine ⟨collected, latest, final, ?_, carries.trans hleads hrest, hfinal⟩
        exact (collect_of_item hnext items values).trans hcollect

end Call

/-- The command that is run, with or without a shutdown before it, is one order of the moves. -/
theorem runMultiplex_reaches (request : MultiplexRequest) (isShutdown : Bool) : ∃ items tally last,
    runMultiplex request isShutdown = some (items, tally) ∧
      Reaches Demonstration.step (ofRequest request) last ∧
      last.result? = some (items, tally) ∧ last.traffic.hub.cancelled = isShutdown := by
  obtain ⟨begun, hbegun, hhub, hturn, hnothing⟩ : ∃ begun,
      Reaches Demonstration.step (ofRequest request)
        (running (request.intProducer, request.textProducer) begun) ∧
      begun.hub = { (ofRequest request).traffic.hub with cancelled := isShutdown } ∧
      begun.turn? = none ∧ begun.delivered = [] := by
    cases isShutdown with
    | false => exact ⟨_, .refl _ _, rfl, rfl, rfl⟩
    | true => exact ⟨_, .ofStep .shutdown rfl, rfl, rfl, rfl⟩
  have hsound : (running (request.intProducer, request.textProducer) begun).Sound request := by
    obtain ⟨events, hrun⟩ := hbegun
    exact (Sound.ofRequest request).follow hrun
  have hfirst : #[].toList = begun.delivered := hnothing.symm
  obtain ⟨collected, later, last, hcollect, hleads, hdelivered, hends⟩ :=
    collect_leads hsound (.inl hturn) hfirst (Nat.zero_add _)
  have hleft : (running later last).step .receive = some (running later last).leave :=
    step_leave rfl hends
  obtain ⟨final, hfinal, hresult, hsame⟩ := ((hleads.sound hsound).step hleft).returns rfl
  refine ⟨collected.toList, last.hub.tally, final, ?_, ?_, ?_, ?_⟩
  · rw [hhub] at hcollect
    exact congrArg (Option.map fun ended => (ended.1.toList, ended.2.1.tally)) hcollect
  · exact (hbegun.trans hleads.1).trans (.trans (.ofStep _ hleft) hfinal)
  · rw [hresult, ← hdelivered]
    rfl
  · calc final.traffic.hub.cancelled = last.hub.cancelled := hsame
      _ = begun.hub.cancelled := hleads.2
      _ = isShutdown := by rw [hhub]

end Demonstration

/-- **Prefixes.** However the producers and the loop are interleaved, and whenever the command is
shut down, the loop returns the first numbers and the first texts, and all of them if it waits for
them; it never waits for a producer itself, and once it is over no producer waits either. The
command that `runMultiplex` runs is one of these. -/
theorem multiplex_delivers_prefixes (request : MultiplexRequest) :
    (∀ events demo, (Demonstration.ofRequest request).follow events = some demo →
      (∀ items tally, demo.collected? = some (items, tally) → ∃ ints texts,
        request.Delivered (events.contains .shutdown) ints texts items tally) ∧
      (∀ result, demo.result? = some result → demo.collected? = some result) ∧
      (demo.collected? = none → ∃ next, demo.step .receive = some next) ∧
      (demo.collected?.isSome = true →
        (∀ source, demo.traffic.hub.hasSender source = true →
          ∃ next, demo.step (.produce source) = some next ∧ demo.Stops source next) ∧
        ∃ more last, demo.follow more = some last ∧ last.result? = demo.collected?)) ∧
    ∀ isShutdown, ∃ items tally, runMultiplex request isShutdown = some (items, tally) ∧
      ∃ events last, (Demonstration.ofRequest request).follow events = some last ∧
        last.result? = some (items, tally) ∧ events.contains .shutdown = isShutdown := by
  refine ⟨fun events demo hrun => ?_, fun isShutdown => ?_⟩
  · have hsound := (Demonstration.Sound.ofRequest request).follow hrun
    have hcancelled := Demonstration.follow_cancelled hrun
    refine ⟨fun items tally hcollected => ?_, fun _ => Demonstration.collected?_of_result?,
      Demonstration.exists_receive, fun hover => ⟨fun source => hsound.released hover, ?_⟩⟩
    · obtain ⟨ints, texts, hdelivered⟩ := hsound.delivered items tally hcollected
      rw [hcancelled] at hdelivered
      exact ⟨ints, texts, hdelivered⟩
    · obtain ⟨last, ⟨more, hmore⟩, hresult, -⟩ := hsound.returns hover
      exact ⟨more, last, hmore, hresult⟩
  · obtain ⟨items, tally, last, hrun, ⟨events, hevents⟩, hresult, hcancelled⟩ :=
      Demonstration.runMultiplex_reaches request isShutdown
    refine ⟨items, tally, hrun, events, last, hevents, hresult, ?_⟩
    rw [← hcancelled, Demonstration.follow_cancelled hevents]
    rfl

/-- Three numbers and one text, for a loop that gives up at the first idle tick. -/
def impatient : MultiplexRequest where
  ints := 3
  texts := 1
  patience := .exit
  idleTickUs := 1000

/-- One number arrives before the first idle tick. The producers, which have more to send, are told
after the loop that nobody receives any more. -/
theorem multiplex_delivers_prefixes_idle : ∃ demo last items tally,
    (∃ events, (Demonstration.ofRequest impatient).follow events = some demo) ∧
    demo.collected? = some (items, tally) ∧ impatient.Delivered false 1 0 items tally ∧
    tally.idleTicks = 1 ∧ demo.traffic.hub.hasSender 0 = true ∧
    (∃ next, demo.step (.produce 0) = some next ∧ demo.Stops 0 next) ∧
    (∃ more, demo.follow more = some last) ∧ last.result? = some (items, tally) := by
  obtain ⟨hruns, -⟩ := multiplex_delivers_prefixes impatient
  have hends : ((Demonstration.ofRequest impatient).follow
      [.receive, .produce 0, .receive, .receive, .receive, .receive, .receive, .receive,
        .receive]).any (fun demo =>
      demo.collected? == some ([⟨0, .int 0⟩], ⟨1, [1, 0], 1⟩) && demo.traffic.hub.hasSender 0) =
        true := by
    decide +kernel
  obtain ⟨demo, hdemo, hgood⟩ := (Option.any_eq_true _ _).1 hends
  simp only [Bool.and_eq_true, beq_iff_eq] at hgood
  obtain ⟨hcollected, hsender⟩ := hgood
  obtain ⟨hdelivered, -, -, hover⟩ := hruns _ demo hdemo
  obtain ⟨ints, texts, hprefixes⟩ := hdelivered _ _ hcollected
  obtain ⟨rfl, rfl⟩ : 1 = ints ∧ 0 = texts := by simpa using hprefixes.perSource
  obtain ⟨hreleased, more, last, hmore, hresult⟩ := hover (by rw [hcollected]; rfl)
  exact ⟨demo, last, _, _, ⟨_, hdemo⟩, hcollected, hprefixes, rfl, hsender, hreleased 0 hsender,
    ⟨more, hmore⟩, hresult.trans hcollected⟩

end Command

end ParallelFilter
