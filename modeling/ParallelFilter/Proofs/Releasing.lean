import ParallelFilter.Proofs.Demonstration

/-! What can always happen next to the multiplex command. While the loop goes on, it can make its
next move, whatever the producers do. Once it is over, every producer that is left can make its next
move, which is its last, since nobody receives any more; so the command returns. -/

namespace ParallelFilter.Command.Demonstration

variable {request : MultiplexRequest} {demo : Demonstration}

section Receive

variable (hrunning : demo.collected? = none)

include hrunning

theorem step_proceed {turn : Turn Payload} (hturn : demo.traffic.turn? = some turn)
    (hcalling : ∀ item?, turn ≠ .returned item?) :
    demo.step .receive = some { demo with traffic := demo.traffic.proceed turn } := by
  cases turn with
  | probing left ticks | sleeping ticks =>
      simp only [Demonstration.step, hrunning, hturn, pass, Traffic.step, Option.map_some]
  | returned item? => exact absurd rfl (hcalling item?)

theorem step_call
    (hturn : demo.traffic.turn? = none ∨ ∃ item, demo.traffic.turn? = some (.returned (some item))) :
    demo.step .receive = some { demo with traffic := demo.traffic.begun } := by
  rcases hturn with hturn | ⟨item, hturn⟩ <;>
    simp only [Demonstration.step, hrunning, hturn, pass, Traffic.step, Option.map_some, Traffic.begun]

theorem step_leave (hturn : demo.traffic.turn? = some (.returned none)) :
    demo.step .receive = some demo.leave := by
  simp only [Demonstration.step, hrunning, hturn]

/-- The loop never waits for a producer. -/
theorem exists_receive : ∃ next, demo.step .receive = some next := by
  cases hturn : demo.traffic.turn? with
  | none => exact ⟨_, step_call hrunning (.inl hturn)⟩
  | some turn =>
      cases turn with
      | probing left ticks | sleeping ticks => exact ⟨_, step_proceed hrunning hturn nofun⟩
      | returned item? =>
          cases item? with
          | none => exact ⟨_, step_leave hrunning hturn⟩
          | some item => exact ⟨_, step_call hrunning (.inr ⟨item, hturn⟩)⟩

end Receive

section Produce

variable {source : Nat} {producer : Producer} (hproducer : demo.producers[source]? = some producer)
  (hsender : demo.traffic.hub.hasSender source = true)

include hproducer hsender

theorem step_send (hleft : producer.sent < producer.total)
    (hsent : (demo.traffic.hub.send source (producer.value producer.sent)).1 = .sent) : ∃ next,
      demo.step (.produce source) = some next ∧
      next.producers = demo.producers.setIfInBounds source { producer with sent := producer.sent + 1 } ∧
      next.traffic.hub = (demo.traffic.hub.send source (producer.value producer.sent)).2 ∧
      next.traffic.turn? = demo.traffic.turn? ∧ next.traffic.delivered = demo.traffic.delivered ∧
      next.collected? = demo.collected? := by
  obtain ⟨traffic, hstep, hhub, hturn, hdelivered⟩ :=
    demo.traffic.step_outside true (.send source (producer.value producer.sent))
  refine ⟨{ demo with
    traffic
    producers := demo.producers.setIfInBounds source { producer with sent := producer.sent + 1 } },
    ?_, rfl, hhub, hturn, hdelivered, rfl⟩
  rw [Demonstration.step, hproducer, Option.bind_some, produce, if_pos hsender, if_pos hleft]
  dsimp only
  rw [hsent, pass]
  dsimp only
  rw [hstep]
  rfl

/-- A producer stops after its last value, or when nobody receives any more. -/
theorem step_stop (hrefused : producer.sent < producer.total →
      (demo.traffic.hub.send source (producer.value producer.sent)).1 = .closed) : ∃ traffic,
      demo.step (.produce source) = some { demo with traffic } ∧
      traffic.hub = demo.traffic.hub.dropSender source ∧
      traffic.turn? = demo.traffic.turn? ∧ traffic.delivered = demo.traffic.delivered := by
  obtain ⟨traffic, hstep, hsame⟩ := demo.traffic.step_outside true (.close source)
  refine ⟨traffic, ?_, hsame⟩
  have hstops : demo.pass (.outside (.close source)) = some { demo with traffic } := by
    rw [pass, hstep]
    rfl
  rw [Demonstration.step, hproducer, Option.bind_some, produce, if_pos hsender]
  by_cases hleft : producer.sent < producer.total
  · rw [if_pos hleft, ← hstops]
    dsimp only
    rw [hrefused hleft]
  · rw [if_neg hleft, hstops]

end Produce

/-- A producer has stopped, and nothing else has changed. -/
structure Stops (demo : Demonstration) (source : Nat) (next : Demonstration) : Prop where
  stopped : next.traffic.hub.hasSender source = false
  others : ∀ other, source ≠ other → next.traffic.hub.hasSender other = demo.traffic.hub.hasSender other
  producers_eq : next.producers = demo.producers
  cancelled_eq : next.traffic.hub.cancelled = demo.traffic.hub.cancelled
  collected_eq : next.collected? = demo.collected?

/-- After the loop a producer that has not stopped can move, and with its next move it stops. -/
theorem Sound.released (h : demo.Sound request) (hover : demo.collected?.isSome = true) {source : Nat}
    (hsender : demo.traffic.hub.hasSender source = true) :
    ∃ next, demo.step (.produce source) = some next ∧ demo.Stops source next := by
  have hwired : demo.traffic.hub.Wired false := by
    obtain ⟨collected, hcollected⟩ := Option.isSome_iff_exists.1 hover
    have := h.wired
    rwa [hcollected] at this
  have hsource : source < demo.producers.size := by
    rw [← h.size]
    exact Multiplexer.lt_size_of_hasSender hsender
  obtain ⟨traffic, hstep, hhub, -⟩ := step_stop (Array.getElem?_eq_getElem hsource) hsender fun _ =>
    hwired.send_of_gone hsender _
  refine ⟨_, hstep, ?_, fun other hne => ?_, rfl, ?_, rfl⟩ <;> dsimp only <;> rw [hhub]
  · exact hwired.dropSender_hasSender source
  · exact Multiplexer.dropSender_hasSender_of_ne _ hne
  · rfl

theorem collected?_of_result? {result : List (Delivery Payload) × MultiplexTally}
    (hresult : demo.result? = some result) : demo.collected? = some result := by
  rw [result?] at hresult
  split at hresult
  · cases hresult
  · exact hresult

/-- So one after another they stop, and the command returns what the loop has returned. -/
theorem Sound.returns (h : demo.Sound request) (hover : demo.collected?.isSome = true) : ∃ last,
    Reaches Demonstration.step demo last ∧ last.result? = demo.collected? ∧
      last.traffic.hub.cancelled = demo.traffic.hub.cancelled := by
  have hstopped (count : Nat) : ∃ last, Reaches Demonstration.step demo last ∧
      last.collected? = demo.collected? ∧ last.producers = demo.producers ∧
      last.traffic.hub.cancelled = demo.traffic.hub.cancelled ∧
      ∀ source < count, last.traffic.hub.hasSender source = false := by
    induction count with
    | zero => exact ⟨demo, .refl _ demo, rfl, rfl, rfl, nofun⟩
    | succ count ih =>
        obtain ⟨last, hreached, hcollected, hproducers, hcancelled, hbefore⟩ := ih
        cases hsender : last.traffic.hub.hasSender count with
        | false =>
            refine ⟨last, hreached, hcollected, hproducers, hcancelled, fun source hsource => ?_⟩
            rcases Nat.lt_succ_iff_lt_or_eq.1 hsource with hsource | rfl
            · exact hbefore source hsource
            · exact hsender
        | true =>
            obtain ⟨events, hrun⟩ := hreached
            obtain ⟨next, hnext, hstops⟩ := (h.follow hrun).released (hcollected ▸ hover) hsender
            refine ⟨next, .trans ⟨events, hrun⟩ (.ofStep _ hnext), hstops.collected_eq.trans hcollected,
              hstops.producers_eq.trans hproducers, hstops.cancelled_eq.trans hcancelled,
              fun source hsource => ?_⟩
            rcases Nat.lt_succ_iff_lt_or_eq.1 hsource with hsource | rfl
            · rw [hstops.others source (Nat.ne_of_gt hsource)]
              exact hbefore source hsource
            · exact hstops.stopped
  obtain ⟨last, hreached, hcollected, hproducers, hcancelled, hnone⟩ := hstopped demo.producers.size
  refine ⟨last, hreached, ?_, hcancelled⟩
  rw [result?, if_neg, hcollected]
  rw [List.any_eq_true, hproducers]
  rintro ⟨source, hsource, hsender⟩
  rw [hnone source (List.mem_range.1 hsource)] at hsender
  cases hsender

end ParallelFilter.Command.Demonstration
