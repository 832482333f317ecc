import ParallelFilter.Proofs.Sweeps

/-! A call of `next` as a run. The call is computed in one go, but it is made of single moves, and
between them, during its ticks, the surroundings act. Whatever kind of run contains these moves
contains the call. -/

namespace ParallelFilter

variable {α β σ : Type}

/-- Where a call stands when it has ended so, or not yet. -/
def Multiplexer.Reception.turn : Multiplexer.Reception β → Turn β
  | .item delivery => .returned (some delivery)
  | .ended => .returned none
  | .asleep ticks => .sleeping ticks

/-- `run` leads from one state, of the surroundings and of the multiplexer in use, to another. It
can make the moves of a call, and do what happens during a tick. -/
structure Multiplexer.Surroundings.Carries (surroundings : Surroundings σ α β)
    (run : σ × Traffic α β → σ × Traffic α β → Prop) : Prop where
  refl : ∀ state, run state state
  trans : ∀ {first second third}, run first second → run second third → run first third
  proceed : ∀ around traffic {turn : Turn β}, traffic.turn? = some turn →
    (∀ item?, turn ≠ .returned item?) →
    run (around, traffic) (around, traffic.proceed turn)
  tick : ∀ around traffic {slept : Nat}, traffic.turn? = some (.sleeping slept) → ∃ later,
    run (around, traffic) ((surroundings.tick traffic.hub around).2, later) ∧
      later.hub = (surroundings.tick traffic.hub around).1 ∧ later.turn? = some (.sleeping slept) ∧
      later.delivered = traffic.delivered

namespace Multiplexer.Surroundings.Carries

variable {surroundings : Surroundings σ α β} {run : σ × Traffic α β → σ × Traffic α β → Prop}
  (h : surroundings.Carries run)

include h

/-- A sweep is made of moves of its call. -/
theorem ofSweep {traffic : Traffic α β} (around : σ) {left ticks : Nat}
    (hturn : traffic.turn? = some (.probing left ticks)) : ∃ next,
    run (around, traffic) (around, next) ∧ next.hub = (traffic.hub.sweep ticks left).1 ∧
      next.turn? = some (traffic.hub.sweep ticks left).2 ∧
      next.delivered = traffic.delivered ++ (traffic.hub.sweep ticks left).2.item?.toList := by
  have hfirst : run (around, traffic) (around, traffic.proceed (.probing left ticks)) :=
    h.proceed around traffic hturn nofun
  induction left generalizing traffic with
  | zero => exact ⟨_, hfirst, rfl, rfl, rfl⟩
  | succ left ih =>
      rcases sweep_succ_cases traffic.hub ticks left with ⟨hmoved, hsweep⟩ | ⟨item, -, hsweep⟩
      · have hgoes : (traffic.proceed (.probing (left + 1) ticks)).turn? = some (.probing left ticks) :=
          congrArg some hmoved
        obtain ⟨next, hnext, hhub, hends, hdelivered⟩ := ih hgoes (h.proceed around _ hgoes nofun)
        refine ⟨next, h.trans hfirst hnext, ?_, ?_, ?_⟩
        · rw [hsweep, hhub, Traffic.proceed]
        · rw [hsweep, hends, Traffic.proceed]
        · rw [hsweep, hdelivered, Traffic.proceed, hmoved, Turn.item?, Option.toList_none,
            List.append_nil]
      · rw [hsweep]
        exact ⟨_, hfirst, rfl, rfl, rfl⟩

/-- What happens during a tick is followed by the move with which the call goes on. -/
theorem ofTick {traffic : Traffic α β} (around : σ) {slept : Nat}
    (hturn : traffic.turn? = some (.sleeping slept)) :
    ∃ woken, run (around, traffic) ((surroundings.tick traffic.hub around).2, woken) ∧
      woken.hub = ((surroundings.tick traffic.hub around).1.advance (.sleeping slept)).1 ∧
      woken.turn? = some ((surroundings.tick traffic.hub around).1.advance (.sleeping slept)).2 ∧
      woken.delivered = traffic.delivered := by
  obtain ⟨later, hlater, hhub, hstill, hdelivered⟩ := h.tick around traffic hturn
  have hnothing : (later.hub.advance (.sleeping slept)).2.item? = none := by
    rcases advance_sleeping_cases later.hub slept with hmoved | hmoved <;> rw [hmoved] <;> rfl
  rw [← hhub]
  refine ⟨_, h.trans hlater (h.proceed _ later hstill nofun), rfl, rfl, ?_⟩
  rw [Traffic.proceed, hnothing, hdelivered]
  exact List.append_nil _

theorem ofNext {traffic : Traffic α β} (around : σ) {ticks : Nat} (granted : Nat)
    (hturn : traffic.turn? = some (.probing traffic.hub.lanes.size ticks)) : ∃ next,
    run (around, traffic) ((traffic.hub.next surroundings around ticks granted).2.2, next) ∧
      next.hub = (traffic.hub.next surroundings around ticks granted).2.1 ∧
      next.turn? = some (traffic.hub.next surroundings around ticks granted).1.turn ∧
      next.delivered = traffic.delivered ++
        (traffic.hub.next surroundings around ticks granted).1.turn.item?.toList := by
  obtain ⟨swept, hswept, hhub, hends, hdelivered⟩ := h.ofSweep around hturn
  cases hsweep : traffic.hub.sweep ticks traffic.hub.lanes.size with
  | mk found stands =>
      rw [hsweep] at hhub hends hdelivered
      cases stands with
      | probing more later =>
          have hnever := sweep_ne_probing traffic.hub ticks traffic.hub.lanes.size more later
          rw [hsweep] at hnever
          exact absurd rfl hnever
      | returned item? =>
          rw [next_of_returned hsweep]
          cases item? <;> exact ⟨swept, hswept, hhub, hends, hdelivered⟩
      | sleeping slept =>
          cases granted with
          | zero =>
              rw [next_of_asleep hsweep]
              exact ⟨swept, hswept, hhub, hends, hdelivered⟩
          | succ granted =>
              obtain ⟨woken, hwoken, hwokenHub, hwokenTurn, hstill⟩ := h.ofTick around hends
              rw [hhub] at hwoken hwokenHub hwokenTurn
              rw [Turn.item?, Option.toList_none, List.append_nil] at hdelivered
              rcases advance_sleeping_cases (surroundings.tick found around).1 slept with hover | hagain
              · rw [next_of_ended hsweep hover]
                refine ⟨woken, h.trans hswept hwoken, hwokenHub,
                  hwokenTurn.trans (congrArg some hover), ?_⟩
                rw [hstill, hdelivered]
                exact (List.append_nil _).symm
              · rw [next_of_awake hsweep hagain]
                rw [hagain, ← hwokenHub] at hwokenTurn
                obtain ⟨last, hlast, hlastHub, hlastTurn, hlastDelivered⟩ :=
                  ofNext (surroundings.tick found around).2 granted hwokenTurn
                rw [hwokenHub] at hlast hlastHub hlastTurn hlastDelivered
                rw [hstill, hdelivered] at hlastDelivered
                exact ⟨last, h.trans (h.trans hswept hwoken) hlast, hlastHub, hlastTurn, hlastDelivered⟩

end Multiplexer.Surroundings.Carries

end ParallelFilter
