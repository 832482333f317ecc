import ParallelFilter.Proofs.Traffic

/-! The ticks of a multiplexer that gives up at the first one. A tick is counted only where a sleep
has come to its end, and then the call returns, so unless somebody calls again there is one tick at
most. -/

namespace ParallelFilter

namespace Multiplexer

variable {α β : Type}

theorem perform_idleTicks (hasToken : Bool) (hub : Multiplexer α β) (action : Action α) :
    (Timeline.perform hasToken hub action).idleTicks = hub.idleTicks := by
  cases action with
  | send source value =>
      rcases send_cases hub source value with ⟨-, hsame⟩ | ⟨_, -, hsent⟩
      · rw [Timeline.perform, hsame]
      · rw [Timeline.perform, hsent]
  | close source | cancel => rfl

theorem probe_kept (hub : Multiplexer α β) (source left ticks : Nat) :
    (hub.probe source left ticks).1.idleTicks = hub.idleTicks ∧
      (hub.probe source left ticks).1.cancelled = hub.cancelled := by
  have hprobe := probe_probes hub source left ticks
  generalize hub.probe source left ticks = probed at hprobe
  obtain ⟨found, stands⟩ := probed
  cases hprobe <;> exact ⟨rfl, rfl⟩

/-- Nobody but those outside cancels. -/
theorem advance_cancelled (hub : Multiplexer α β) (turn : Turn β) :
    (hub.advance turn).1.cancelled = hub.cancelled := by
  cases turn with
  | probing left ticks =>
      cases left with
      | zero => rfl
      | succ left => exact (probe_kept ..).2
  | sleeping ticks =>
      rw [advance]
      split <;> rfl
  | returned item? => rfl

end Multiplexer

namespace Traffic

variable {α β : Type} {hasToken : Bool} {traffic next : Traffic α β}

/-- A multiplexer that gives up at the first idle tick counts one at most, and one if it gives up
for no other reason. -/
structure Brief (traffic : Traffic α β) : Prop where
  ticks : traffic.hub.idleTicks = 0 ∨
    traffic.hub.idleTicks = 1 ∧ traffic.turn? = some (.returned none)
  ended : traffic.turn? = some (.returned none) →
    traffic.hub.idleTicks = 1 ∨ traffic.hub.isExhausted = true ∨ traffic.hub.cancelled = true

theorem Brief.outside (h : traffic.Brief) {action : Action α}
    (hstep : traffic.step hasToken (.outside action) = some next) : next.Brief := by
  have htouches := Multiplexer.perform_touches hasToken traffic.hub action
  have hticks := Multiplexer.perform_idleTicks hasToken traffic.hub action
  cases hstep
  refine ⟨by rw [hticks]; exact h.ticks, fun hturn => ?_⟩
  rcases h.ended hturn with hone | hexhausted | hcancelled
  · exact .inl (hticks.trans hone)
  · exact .inr (.inl (htouches.isExhausted hexhausted))
  · exact .inr (.inr (htouches.cancelled hcancelled))

theorem Brief.idleTicks_eq (h : traffic.Brief) (hturn : traffic.turn? ≠ some (.returned none)) :
    traffic.hub.idleTicks = 0 :=
  h.ticks.resolve_right fun hone => hturn hone.2

/-- The tick that is over ends the call, whether somebody has cancelled meanwhile or not. -/
theorem Brief.elapse (h : traffic.Brief) (hpatience : traffic.hub.patience = .exit) {ticks : Nat}
    (hturn : traffic.turn? = some (.sleeping ticks)) : (traffic.wake ticks).Brief := by
  have hnone : traffic.hub.idleTicks = 0 := h.idleTicks_eq (by rw [hturn]; exact nofun)
  have hone : (traffic.wake ticks).hub.idleTicks = 1 := congrArg (· + 1) hnone
  have hended : (traffic.wake ticks).turn? = some (.returned none) := by
    rw [wake, Multiplexer.wake, hpatience]
  exact ⟨.inr ⟨hone, hended⟩, fun _ => .inl hone⟩

/-- As long as the call has not returned, no tick was counted, and the first one ends it. -/
theorem Brief.proceed (h : traffic.Brief) (hpatience : traffic.hub.patience = .exit) {turn : Turn β}
    (hturn : traffic.turn? = some turn) (hcalling : ∀ item?, turn ≠ .returned item?) :
    (traffic.proceed turn).Brief := by
  have hnone : traffic.hub.idleTicks = 0 := by
    apply h.idleTicks_eq
    rw [hturn]
    exact fun hended => hcalling none (Option.some_inj.1 hended)
  cases turn with
  | probing left ticks =>
      cases left with
      | zero =>
          refine ⟨.inl hnone, fun hended => ?_⟩
          simp only [Traffic.proceed, Multiplexer.advance, Option.some_inj] at hended
          split at hended
          · rename_i hover
            exact .inr ((Bool.or_eq_true _ _).mp hover)
          · cases hended
      | succ left =>
          have hticks : (traffic.hub.advance (.probing (left + 1) ticks)).1.idleTicks = 0 :=
            (Multiplexer.probe_kept ..).1.trans hnone
          refine ⟨.inl hticks, fun hended => ?_⟩
          rcases Multiplexer.sweep_succ_cases traffic.hub ticks left with ⟨hmoved, -⟩ |
            ⟨item, hmoved, -⟩
          · rw [Traffic.proceed, hmoved] at hended
            cases hended
          · rw [Traffic.proceed, hmoved] at hended
            cases hended
  | sleeping ticks =>
      cases hcancelled : traffic.hub.cancelled with
      | true =>
          have hmoved : traffic.hub.advance (.sleeping ticks) = (traffic.hub, .returned none) := by
            rw [Multiplexer.advance, if_pos hcancelled]
          refine ⟨?_, fun _ => ?_⟩ <;> simp only [Traffic.proceed, hmoved]
          · exact .inl hnone
          · exact .inr (.inr hcancelled)
      | false =>
          rw [proceed_sleeping hcancelled]
          exact h.elapse hpatience hturn
  | returned item? => exact absurd rfl (hcalling item?)

end Traffic

end ParallelFilter
