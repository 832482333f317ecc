import ParallelFilter.Command.Demonstration
import ParallelFilter.Proofs.Brevity
import ParallelFilter.Proofs.Senders

/-! What holds of the multiplex command at every moment. While the loop goes on, each producer has
sent its first values, and all of them if it has stopped, and the multiplexer hands on what it was
sent; so what the loop returns are prefixes. -/

namespace ParallelFilter

namespace Command

/-- The values that came from one channel, oldest first. -/
def valuesFrom (source : Nat) (items : List (Delivery Payload)) : List Payload :=
  items.filterMap fun item => if item.source = source then some item.value else none

/-- So many numbers and texts were received, the first ones of each, and counted. -/
structure MultiplexRequest.Prefixes (request : MultiplexRequest) (ints texts : Nat)
    (items : List (Delivery Payload)) (tally : MultiplexTally) : Prop where
  ints_le : ints ≤ request.ints
  texts_le : texts ≤ request.texts
  ints_eq : valuesFrom 0 items = (List.range ints).map .int
  texts_eq : valuesFrom 1 items = (List.range texts).map fun index => .text ("item-" ++ toString index)
  sources : ∀ item ∈ items, item.source < 2
  perSource : tally.perSource = [ints, texts]
  received : tally.received = ints + texts
  length : items.length = ints + texts

/-- What the loop may return, if so many numbers and texts were received. -/
structure MultiplexRequest.Delivered (request : MultiplexRequest) (isShutdown : Bool) (ints texts : Nat)
    (items : List (Delivery Payload)) (tally : MultiplexTally) : Prop extends
    request.Prefixes ints texts items tally where
  forever : request.patience = .forever → isShutdown = false → ints = request.ints ∧
    texts = request.texts
  exit : request.patience = .exit → isShutdown = false → tally.idleTicks ≤ 1 ∧
    (ints < request.ints ∨ texts < request.texts → tally.idleTicks = 1)

namespace Demonstration

variable {request : MultiplexRequest} {demo next last : Demonstration} {event : Event}

/-- What an event does. -/
inductive Moves (demo : Demonstration) : Event → Demonstration → Prop where
  | send {source producer traffic} (hproducer : demo.producers[source]? = some producer)
      (hleft : producer.sent < producer.total)
      (hsent : (demo.traffic.hub.send source (producer.value producer.sent)).1 = .sent)
      (hstep : demo.traffic.step true (.outside (.send source (producer.value producer.sent))) =
        some traffic) :
      Moves demo (.produce source)
        { demo with
          traffic
          producers := demo.producers.setIfInBounds source { producer with sent := producer.sent + 1 } }
  | stop {source producer traffic} (hproducer : demo.producers[source]? = some producer)
      (hsender : demo.traffic.hub.hasSender source = true)
      (hrefused : producer.sent < producer.total →
        (demo.traffic.hub.send source (producer.value producer.sent)).1 = .closed ∨
          (demo.traffic.hub.send source (producer.value producer.sent)).1 = .noSender)
      (hstep : demo.traffic.step true (.outside (.close source)) = some traffic) :
      Moves demo (.produce source) { demo with traffic }
  | call {traffic} (hrunning : demo.collected? = none)
      (hturn : demo.traffic.turn? ≠ some (.returned none))
      (hstep : demo.traffic.step true .call = some traffic) : Moves demo .receive { demo with traffic }
  | proceed {turn} (hrunning : demo.collected? = none) (hturn : demo.traffic.turn? = some turn)
      (hcalling : ∀ item?, turn ≠ .returned item?)
      (hstep : demo.traffic.step true .proceed = some (demo.traffic.proceed turn)) :
      Moves demo .receive { demo with traffic := demo.traffic.proceed turn }
  | elapse {ticks} (hrunning : demo.collected? = none)
      (hturn : demo.traffic.turn? = some (.sleeping ticks))
      (hstep : demo.traffic.step true .elapse = some (demo.traffic.wake ticks)) :
      Moves demo .elapse { demo with traffic := demo.traffic.wake ticks }
  | leave (hrunning : demo.collected? = none) (hturn : demo.traffic.turn? = some (.returned none)) :
      Moves demo .receive demo.leave
  | shutdown {traffic} (hstep : demo.traffic.step true (.outside .cancel) = some traffic) :
      Moves demo .shutdown { demo with traffic }

theorem pass_eq_some {signal : Signal Payload} : demo.pass signal = some next ↔
    ∃ traffic, demo.traffic.step true signal = some traffic ∧ { demo with traffic } = next :=
  Option.map_eq_some_iff

theorem step_moves (hstep : demo.step event = some next) : demo.Moves event next := by
  cases event with
  | produce source =>
      obtain ⟨producer, hproducer, hmoved⟩ := Option.bind_eq_some_iff.1 hstep
      unfold produce at hmoved
      split at hmoved
      · rename_i hsender
        split at hmoved
        · rename_i hleft
          dsimp only at hmoved
          split at hmoved
          · rename_i hsent
            obtain ⟨traffic, htraffic, rfl⟩ := pass_eq_some.1 hmoved
            exact .send hproducer hleft hsent htraffic
          · cases hmoved
          · rename_i hclosed
            obtain ⟨traffic, htraffic, rfl⟩ := pass_eq_some.1 hmoved
            exact .stop hproducer hsender (fun _ => .inl hclosed) htraffic
          · rename_i hnone
            obtain ⟨traffic, htraffic, rfl⟩ := pass_eq_some.1 hmoved
            exact .stop hproducer hsender (fun _ => .inr hnone) htraffic
        · rename_i hdone
          obtain ⟨traffic, htraffic, rfl⟩ := pass_eq_some.1 hmoved
          exact .stop hproducer hsender (fun hleft => absurd hleft hdone) htraffic
      · cases hmoved
  | receive =>
      simp only [step] at hstep
      split at hstep
      · cases hstep
      · rename_i hrunning
        have hproceeds (hstep : demo.pass .proceed = some next) : demo.Moves .receive next := by
          obtain ⟨traffic, htraffic, rfl⟩ := pass_eq_some.1 hstep
          obtain ⟨turn, hturn, hcalling, rfl⟩ := Traffic.eq_of_step_proceed htraffic
          exact .proceed hrunning hturn hcalling htraffic
        split at hstep
        · exact hproceeds hstep
        · exact hproceeds hstep
        · rename_i item hturn
          obtain ⟨traffic, htraffic, rfl⟩ := pass_eq_some.1 hstep
          exact .call hrunning (by simp [hturn]) htraffic
        · rename_i hturn
          obtain ⟨traffic, htraffic, rfl⟩ := pass_eq_some.1 hstep
          exact .call hrunning (by simp [hturn]) htraffic
        · rename_i hturn
          cases hstep
          exact .leave hrunning hturn
  | elapse =>
      simp only [step] at hstep
      split at hstep
      · cases hstep
      · rename_i hrunning
        obtain ⟨traffic, htraffic, rfl⟩ := pass_eq_some.1 hstep
        obtain ⟨ticks, hturn, -, rfl⟩ := Traffic.eq_of_step_elapse htraffic
        exact .elapse hrunning hturn htraffic
  | shutdown =>
      obtain ⟨traffic, htraffic, rfl⟩ := pass_eq_some.1 hstep
      exact .shutdown htraffic

/-- The command is shut down by a shutdown, and by nothing else. -/
theorem step_cancelled (hstep : demo.step event = some next) :
    next.traffic.hub.cancelled = (demo.traffic.hub.cancelled || event == .shutdown) := by
  cases step_moves hstep with
  | send _ _ _ htraffic =>
      cases htraffic
      exact (Multiplexer.send_cancelled ..).trans (Bool.or_false _).symm
  | stop _ _ _ htraffic =>
      cases htraffic
      exact (Bool.or_false _).symm
  | call _ _ htraffic =>
      obtain rfl := Traffic.eq_of_step_call htraffic
      exact (Bool.or_false _).symm
  | proceed _ _ _ _ => exact (Multiplexer.advance_cancelled ..).trans (Bool.or_false _).symm
  | elapse _ _ _ | leave _ _ => exact (Bool.or_false _).symm
  | shutdown htraffic =>
      cases htraffic
      rfl

theorem follow_cancelled {events : List Event} (hrun : demo.follow events = some last) :
    last.traffic.hub.cancelled = (demo.traffic.hub.cancelled || events.contains .shutdown) := by
  induction events generalizing demo with
  | nil =>
      cases hrun
      exact (Bool.or_false _).symm
  | cons event events ih =>
      obtain ⟨next, hnext, hrest⟩ := Option.bind_eq_some_iff.1 hrun
      rw [ih hrest, step_cancelled hnext, List.contains_cons, Bool.or_assoc, BEq.comm]

/-- Whatever happens, the multiplexer in use gets a signal, or the loop is over. -/
theorem Moves.signals (h : demo.Moves event next) :
    (∃ signal, demo.traffic.step true signal = some next.traffic ∧ next.collected? = demo.collected? ∧
      next.producers.size = demo.producers.size) ∨
    demo.collected? = none ∧ demo.traffic.turn? = some (.returned none) ∧ next = demo.leave := by
  cases h with
  | send _ _ _ hstep => exact .inl ⟨_, hstep, rfl, Array.size_setIfInBounds⟩
  | stop _ _ _ hstep | call _ _ hstep | proceed _ _ _ hstep | elapse _ _ hstep | shutdown hstep =>
      exact .inl ⟨_, hstep, rfl, rfl⟩
  | leave hrunning hturn => exact .inr ⟨hrunning, hturn, rfl⟩

/-- The producers are those of the request. Each has sent its first values, and one that has stopped
has sent them all. -/
def Produced (request : MultiplexRequest) (demo : Demonstration) : Prop :=
  ∀ source producer, request.producers[source]? = some producer → ∃ sent ≤ producer.total,
    demo.producers[source]? = some { producer with sent } ∧
    demo.traffic.sentTo source = (List.range sent).map producer.value ∧
    (demo.traffic.hub.hasSender source = false → sent = producer.total)

/-- What holds while the loop goes on. -/
structure Live (request : MultiplexRequest) (demo : Demonstration) : Prop where
  books : demo.traffic.Books (request.producers.map Producer.port)
  excused : demo.traffic.Excused
  brief : request.patience = .exit → demo.traffic.Brief
  produced : demo.Produced request

/-- What holds at every moment. -/
structure Sound (request : MultiplexRequest) (demo : Demonstration) : Prop where
  patience : demo.traffic.hub.patience = request.patience
  size : demo.traffic.hub.lanes.size = demo.producers.size
  wired : demo.traffic.hub.Wired demo.collected?.isNone
  live : demo.collected? = none → demo.Live request
  delivered : ∀ items tally, demo.collected? = some (items, tally) → ∃ ints texts,
    request.Delivered demo.traffic.hub.cancelled ints texts items tally

/-- What keeps the senders, and sends nothing, keeps the accounts. -/
theorem Produced.congr (h : demo.Produced request) (hproducers : next.producers = demo.producers)
    (hsent : next.traffic.sent = demo.traffic.sent)
    (hsenders : ∀ source, next.traffic.hub.hasSender source = demo.traffic.hub.hasSender source) :
    next.Produced request := by
  intro source producer hproducer
  obtain ⟨sent, hle, hat, hsentTo, hstopped⟩ := h source producer hproducer
  rw [hproducers, Traffic.sentTo, hsent, hsenders]
  exact ⟨sent, hle, hat, hsentTo, hstopped⟩

theorem Produced.moves (h : demo.Produced request) (hwired : demo.traffic.hub.Wired true)
    (hmoves : demo.Moves event next) : next.Produced request := by
  cases hmoves with
  | @send acting producing _ hacting hleft hsent hstep =>
      cases hstep
      intro source producer hproducer
      obtain ⟨sent, hle, hat, hsentTo, hstopped⟩ := h source producer hproducer
      have hadmits : demo.traffic.hub.admits (.send acting (producing.value producing.sent)) =
          (some (producing.value producing.sent)).map fun value => (acting, value) := by
        rw [Multiplexer.admits, if_pos hsent]
        rfl
      have hsenders :=
        Multiplexer.send_hasSender demo.traffic.hub acting (producing.value producing.sent) source
      dsimp only [Timeline.perform]
      rw [hadmits, hsenders, Traffic.sentTo_append rfl source, hsentTo]
      by_cases hsame : acting = source
      · subst hsame
        rw [hat, Option.some_inj] at hacting
        subst hacting
        have hbound := (Array.getElem?_eq_some_iff.1 hat).1
        refine ⟨sent + 1, hleft, ?_, ?_, fun hnone => ?_⟩
        · rw [Array.getElem?_setIfInBounds_self_of_lt hbound]
        · rw [if_pos rfl, List.range_succ, List.map_append]
          rfl
        · exact absurd (hstopped hnone) (Nat.ne_of_lt hleft)
      · rw [if_neg hsame, List.append_nil, Array.getElem?_setIfInBounds_ne hsame]
        exact ⟨sent, hle, hat, rfl, hstopped⟩
  | @stop acting producing _ hacting hsender hrefused hstep =>
      cases hstep
      intro source producer hproducer
      obtain ⟨sent, hle, hat, hsentTo, hstopped⟩ := h source producer hproducer
      refine ⟨sent, hle, hat, ?_, fun hnone => ?_⟩
      · rw [← hsentTo, Traffic.sentTo, Traffic.sentTo]
        exact congrArg _ (List.append_nil _)
      · by_cases hsame : acting = source
        · subst hsame
          rw [hat, Option.some_inj] at hacting
          subst hacting
          -- while the loop goes on, a producer is refused only after its last value
          obtain ⟨hclosed, hmissing⟩ := hwired.send_of_held hsender (producer.value sent)
          by_contra hne
          rcases hrefused (Nat.lt_of_le_of_ne hle hne) with hanswer | hanswer
          · exact hclosed hanswer
          · exact hmissing hanswer
        · exact hstopped ((Multiplexer.dropSender_hasSender_of_ne _ hsame).symm.trans hnone)
  | call _ _ hstep =>
      obtain rfl := Traffic.eq_of_step_call hstep
      exact h.congr rfl rfl fun _ => rfl
  | proceed _ _ _ _ => exact h.congr rfl rfl fun source => Multiplexer.advance_hasSender _ _ source
  | elapse _ _ _ => exact h.congr rfl rfl fun _ => rfl
  | leave _ _ => exact h.congr rfl rfl fun source => Multiplexer.dropReceivers_hasSender _ source
  | shutdown hstep =>
      cases hstep
      exact h.congr rfl (List.append_nil _) fun _ => rfl

theorem brief_moves (h : demo.traffic.Brief) (hpatience : demo.traffic.hub.patience = .exit)
    (hrunning : next.collected? = none) (hmoves : demo.Moves event next) : next.traffic.Brief := by
  cases hmoves with
  | send _ _ _ hstep | stop _ _ _ hstep | shutdown hstep => exact h.outside hstep
  | call _ hturn hstep =>
      have hnone := h.idleTicks_eq hturn
      obtain rfl := Traffic.eq_of_step_call hstep
      exact ⟨.inl hnone, nofun⟩
  | proceed _ hturn hcalling _ => exact h.proceed hpatience hturn hcalling
  | elapse _ hturn _ => exact h.elapse hpatience hturn
  | leave _ _ => cases hrunning

/-- What a channel has handed on are the first values of its producer, and all of them once nothing
can come any more. -/
theorem Live.account (h : demo.Live request) {source : Nat} {producer : Producer}
    (hproducer : request.producers[source]? = some producer) : ∃ count ≤ producer.total,
      valuesFrom source demo.traffic.delivered = (List.range count).map producer.value ∧
        (demo.traffic.hub.isExhausted = true → count = producer.total) := by
  obtain ⟨sent, hle, -, hsentTo, hstopped⟩ := h.produced source producer hproducer
  have hport : (request.producers.map Producer.port)[source]? = some producer.port := by
    rw [List.getElem?_map, hproducer]
    rfl
  obtain ⟨lane, hlane, haccounts⟩ := h.books.accounts hport
  obtain ⟨taken, hsent, -, hdelivered⟩ := haccounts.balance
  have hsame : taken.mapIdx producer.port.convert = taken := by
    apply List.ext_getElem?
    intro index
    rw [List.getElem?_mapIdx]
    exact Option.map_id'
  have hfirst : taken <+: (List.range sent).map producer.value := ⟨_, hsent.symm.trans hsentTo⟩
  have hcount : taken.length ≤ sent := by
    calc taken.length ≤ ((List.range sent).map producer.value).length := hfirst.length_le
      _ = sent := by rw [List.length_map, List.length_range]
  refine ⟨taken.length, Nat.le_trans hcount hle, ?_, fun hexhausted => ?_⟩
  · calc valuesFrom source demo.traffic.delivered = taken := hdelivered.trans hsame
      _ = ((List.range sent).map producer.value).take taken.length := List.prefix_iff_eq_take.1 hfirst
      _ = (List.range taken.length).map producer.value := by
        rw [← List.map_take, List.take_range, Nat.min_eq_left hcount]
  · have hclosed : lane.closed = true :=
      Array.all_eq_true_iff_forall_mem.1 hexhausted lane (Array.mem_of_getElem? hlane)
    obtain ⟨hsenders, hbuffer⟩ := haccounts.drained hclosed
    have hnone : demo.traffic.hub.hasSender source = false := by
      rw [Multiplexer.hasSender, hlane]
      exact bne_eq_false_iff_eq.2 hsenders
    rw [hbuffer, List.append_nil, hsentTo] at hsent
    rw [← hsent, List.length_map, List.length_range, hstopped hnone]

/-- So there are always prefixes. -/
theorem Live.exists_prefixes (h : demo.Live request) : ∃ ints texts,
    request.Prefixes ints texts demo.traffic.delivered demo.traffic.hub.tally ∧
      (demo.traffic.hub.isExhausted = true → ints = request.ints ∧ texts = request.texts) := by
  have hfirst : request.producers[0]? = some request.intProducer := rfl
  have hsecond : request.producers[1]? = some request.textProducer := rfl
  obtain ⟨ints, hints, hintsEq, hallInts⟩ := h.account hfirst
  obtain ⟨texts, htexts, htextsEq, hallTexts⟩ := h.account hsecond
  have hfaithful : demo.traffic.Faithful true (request.producers.map Producer.port)
      demo.traffic.hub.patience :=
    h.books.faithful h.excused rfl
  have hperSource : demo.traffic.hub.tally.perSource = [ints, texts] := by
    calc demo.traffic.hub.tally.perSource
        = [(valuesFrom 0 demo.traffic.delivered).length,
          (valuesFrom 1 demo.traffic.delivered).length] :=
          hfaithful.perSource
      _ = [ints, texts] := by
          rw [hintsEq, htextsEq, List.length_map, List.length_range, List.length_map, List.length_range]
  have hreceived : demo.traffic.hub.tally.received = ints + texts := by
    rw [hfaithful.received, hperSource]
    rfl
  refine ⟨ints, texts, ?_, fun hexhausted => ⟨hallInts hexhausted, hallTexts hexhausted⟩⟩
  exact ⟨hints, htexts, hintsEq, htextsEq, hfaithful.sources, hperSource, hreceived,
    hfaithful.total.symm.trans hreceived⟩

/-- When a call returns without a value, the loop has what it should. -/
theorem Live.delivered (h : demo.Live request)
    (hpatience : demo.traffic.hub.patience = request.patience)
    (hturn : demo.traffic.turn? = some (.returned none)) : ∃ ints texts,
      request.Delivered demo.traffic.hub.cancelled ints texts demo.traffic.delivered
        demo.traffic.hub.tally := by
  obtain ⟨ints, texts, hprefixes, hall⟩ := h.exists_prefixes
  refine ⟨ints, texts, hprefixes, fun hforever hcancelled => ?_, fun hexit hcancelled => ?_⟩
  · rcases h.excused hturn with hexhausted | hstopped | hends
    · exact hall hexhausted
    · exact absurd (hcancelled.symm.trans hstopped) (by decide)
    · exact absurd (hpatience.trans hforever) hends
  · have hbrief := h.brief hexit
    refine ⟨?_, fun hmissing => ?_⟩
    · rcases hbrief.ticks with hnone | ⟨hone, -⟩
      · exact Nat.le_trans (Nat.le_of_eq hnone) (Nat.zero_le 1)
      · exact Nat.le_of_eq hone
    · rcases hbrief.ended hturn with hone | hexhausted | hstopped
      · exact hone
      · have hwhole := hall hexhausted
        omega
      · exact absurd (hcancelled.symm.trans hstopped) (by decide)

/-- A shutdown after the loop makes no difference. -/
theorem delivered_mono {before after : Bool} {ints texts : Nat} {items : List (Delivery Payload)}
    {tally : MultiplexTally} (h : request.Delivered before ints texts items tally)
    (hkept : before = true → after = true) : request.Delivered after ints texts items tally := by
  have hearlier (hnever : after = false) : before = false := by
    by_contra hbefore
    rw [hkept (Bool.not_eq_false _ ▸ hbefore)] at hnever
    cases hnever
  exact { h with
    forever := fun hforever hnever => h.forever hforever (hearlier hnever)
    exit := fun hexit hnever => h.exit hexit (hearlier hnever) }

theorem Sound.step (h : demo.Sound request) (hstep : demo.step event = some next) :
    next.Sound request := by
  have hmoves := step_moves hstep
  rcases hmoves.signals with ⟨signal, hsignal, hsame, hproducers⟩ | ⟨hrunning, hturn, rfl⟩
  · obtain ⟨arrived, passed, htouches, -⟩ := Traffic.step_touches hsignal
    refine ⟨htouches.patience_eq.trans h.patience, ?_, hsame ▸ h.wired.touches htouches,
      fun hrunning => ?_, fun items tally hcollected => ?_⟩
    · rw [htouches.size_eq, h.size, hproducers]
    · have hbefore := hsame.symm.trans hrunning
      have hwired : demo.traffic.hub.Wired true := by
        have := h.wired
        rwa [hbefore] at this
      obtain ⟨hbooks, hexcused, hbrief, hproduced⟩ := h.live hbefore
      exact ⟨hbooks.step hsignal, hexcused.step hsignal,
        fun hexit => brief_moves (hbrief hexit) (h.patience.trans hexit) hrunning hmoves,
        hproduced.moves hwired hmoves⟩
    · obtain ⟨ints, texts, hdelivered⟩ := h.delivered items tally (hsame.symm.trans hcollected)
      exact ⟨ints, texts, delivered_mono hdelivered htouches.cancelled⟩
  · refine ⟨h.patience, ?_, h.wired.dropReceivers, nofun, fun items tally hcollected => ?_⟩
    · exact Array.size_map.trans h.size
    · cases hcollected
      exact (h.live hrunning).delivered h.patience hturn

theorem Sound.ofRequest (request : MultiplexRequest) : (ofRequest request).Sound request where
  patience := rfl
  size := rfl
  wired := by
    intro lane hlane
    obtain ⟨port, hport, rfl⟩ := List.mem_map.1 (List.mem_toArray.1 hlane)
    obtain ⟨producer, -, rfl⟩ := List.mem_map.1 hport
    exact ⟨rfl, Nat.le_max_left _ _, Nat.le_refl 1⟩
  live _ := by
    refine ⟨.ofPorts _ _, nofun, fun _ => ⟨.inl rfl, nofun⟩, fun source producer hproducer => ?_⟩
    have hunsent : producer.sent = 0 := by
      rcases List.mem_cons.1 (List.mem_of_getElem? hproducer) with rfl | hmem
      · rfl
      · rw [List.mem_singleton.1 hmem]
        rfl
    refine ⟨0, Nat.zero_le _, ?_, rfl, fun hnone => ?_⟩
    · rw [← hunsent]
      exact List.getElem?_toArray.trans hproducer
    · have hlane : (Demonstration.ofRequest request).traffic.hub.lanes[source]? =
          some producer.port.lane := by
        simp only [Demonstration.ofRequest, Traffic.ofPorts, List.getElem?_toArray,
          List.getElem?_map, hproducer, Option.map_some]
      rw [Multiplexer.hasSender, hlane] at hnone
      cases hnone
  delivered := nofun

theorem Sound.follow (h : demo.Sound request) {events : List Event}
    (hrun : demo.follow events = some last) :
    last.Sound request :=
  foldlM_induction (fun _ _ _ _ hkept hstep => hkept.step hstep) h hrun

end Demonstration

end Command

end ParallelFilter
