import ParallelFilter.Proofs.Fairness
import ParallelFilter.Proofs.Patience

/-! The idle ticks of a multiplexer that retries so many times. A tick belongs to the call that
sleeps through it. A call that is handed a value has slept `limit` times at most, one that is given
up once more, and after that last tick it looks into no channel. Where calls follow one another only
as long as they return with values, the ticks of a run are bounded by what it has received. -/

namespace ParallelFilter

variable {α β : Type}

/-- How often a call that is being made has swept again after a tick. -/
def Turn.retries? : Turn β → Option Nat
  | .probing _ ticks | .sleeping ticks => some ticks
  | .returned _ => none

/-- The ticks of a call that has not been handed a value. -/
def Turn.overtime (limit : Nat) : Turn β → Nat
  | .probing _ ticks | .sleeping ticks => ticks
  | .returned none => limit + 1
  | .returned (some _) => 0

theorem Multiplexer.perform_cancelled (hub : Multiplexer α β) (action : Action α) :
    (Timeline.perform false hub action).cancelled = hub.cancelled := by
  cases action with
  | send source value => exact send_cancelled hub source value
  | close source => rfl
  | cancel => exact Bool.or_false _

namespace Traffic

variable {ports : List (Port α β)} {limit index : Nat} {moment traffic next last : Traffic α β}
  {signal : Signal α} {signals : List (Signal α)} {since : List (Delivery β)}

/-- Whether no call is being made, and none has returned without a value. -/
def isResting (traffic : Traffic α β) : Bool :=
  match traffic.turn? with
  | none | some (.returned (some _)) => true
  | some (.returned none) | some (.probing _ _) | some (.sleeping _) => false

/-- What the signals do while everything is received, where a call is made only when the one before
has returned with a value. -/
def stepRun (hasToken : Bool) (traffic : Traffic α β) : Signal α → Option (Traffic α β)
  | .outside action => traffic.step hasToken (.outside action)
  | .call => if traffic.isResting then traffic.step hasToken .call else none
  | .proceed => traffic.step hasToken .proceed
  | .elapse => traffic.step hasToken .elapse

/-- The multiplexer after the signals, if they can come one after another while everything is
received. -/
def followRun (hasToken : Bool) (traffic : Traffic α β) (signals : List (Signal α)) :
    Option (Traffic α β) :=
  signals.foldlM (stepRun hasToken) traffic

theorem step_of_stepRun {hasToken : Bool} (hstep : traffic.stepRun hasToken signal = some next) :
    traffic.step hasToken signal = some next := by
  cases signal with
  | outside action | proceed | elapse => exact hstep
  | call => exact (Option.ite_none_right_eq_some.1 hstep).2

theorem leadsTo_of_followRun {hasToken : Bool} (hrun : traffic.followRun hasToken signals = some last) :
    traffic.LeadsTo hasToken last :=
  foldlM_induction (P := fun next => traffic.LeadsTo hasToken next)
    (fun _ signal _ _ hnext hstep => hnext.trans (.ofStep signal (step_of_stepRun hstep)))
      (.refl traffic) hrun

/-- The moves of a call that nobody cancels, where the multiplexer retries so many times. -/
inductive Proceeds (limit : Nat) (traffic : Traffic α β) : Traffic α β → Prop where
  | pass {left ticks : Nat} {next : Traffic α β}
      (hturn : traffic.turn? = some (.probing (left + 1) ticks))
      (hnext : next.turn? = some (.probing left ticks))
      (hidle : next.hub.idleTicks = traffic.hub.idleTicks)
      (hdelivered : next.delivered = traffic.delivered) : Proceeds limit traffic next
  | serve {left ticks : Nat} {item : Delivery β} {next : Traffic α β}
      (hturn : traffic.turn? = some (.probing (left + 1) ticks))
      (hnext : next.turn? = some (.returned (some item)))
      (hidle : next.hub.idleTicks = traffic.hub.idleTicks)
      (hdelivered : next.delivered = traffic.delivered ++ [item]) :
      Proceeds limit traffic next
  | finish {ticks : Nat} (hturn : traffic.turn? = some (.probing 0 ticks))
      (hexhausted : traffic.hub.isExhausted = true) :
      Proceeds limit traffic { traffic with turn? := some (.returned none) }
  | doze {ticks : Nat} (hturn : traffic.turn? = some (.probing 0 ticks))
      (hopen : traffic.hub.isExhausted = false) :
      Proceeds limit traffic { traffic with turn? := some (.sleeping ticks) }
  | retry {ticks : Nat} (hturn : traffic.turn? = some (.sleeping ticks)) (hticks : ticks < limit) :
      Proceeds limit traffic { traffic with
        hub := { traffic.hub with idleTicks := traffic.hub.idleTicks + 1 }
        turn? := some (.probing traffic.hub.lanes.size (ticks + 1)) }
  | giveUp {ticks : Nat} (hturn : traffic.turn? = some (.sleeping ticks)) (hticks : limit ≤ ticks) :
      Proceeds limit traffic { traffic with
        hub := { traffic.hub with idleTicks := traffic.hub.idleTicks + 1 }
        turn? := some (.returned none) }

theorem proceed_of_advance {turn stands : Turn β} {hub : Multiplexer α β}
    (hmoved : traffic.hub.advance turn = (hub, stands)) (hnothing : stands.item? = none) :
    traffic.proceed turn = { traffic with hub, turn? := some stands } := by
  rw [proceed, hmoved]
  dsimp only
  rw [hnothing, Option.toList_none, List.append_nil]

theorem proceeds_of_step (hpatience : traffic.hub.patience = .retry limit)
    (hcancelled : traffic.hub.cancelled = false) (hstep : traffic.step false .proceed = some next) :
    traffic.Proceeds limit next := by
  cases hturn : traffic.turn? with
  | none =>
      rw [Traffic.step, hturn] at hstep
      cases hstep
  | some turn =>
      rw [Traffic.step, hturn] at hstep
      cases turn with
      | returned item? => cases hstep
      | probing left ticks =>
          cases hstep
          cases left with
          | zero =>
              have hmoved : traffic.hub.advance (.probing 0 ticks) =
                  (traffic.hub, if traffic.hub.isExhausted then .returned none
                    else .sleeping ticks) := by
                rw [Multiplexer.advance, hcancelled, Bool.or_false]
              cases hexhausted : traffic.hub.isExhausted with
              | true =>
                  rw [hexhausted] at hmoved
                  rw [proceed_of_advance hmoved rfl]
                  exact .finish hturn hexhausted
              | false =>
                  rw [hexhausted] at hmoved
                  rw [proceed_of_advance hmoved rfl]
                  exact .doze hturn hexhausted
          | succ left =>
              have hidle : (traffic.hub.advance (.probing (left + 1) ticks)).1.idleTicks =
                  traffic.hub.idleTicks :=
                (Multiplexer.probe_kept ..).1
              rcases Multiplexer.sweep_succ_cases traffic.hub ticks left with ⟨hmoved, -⟩ |
                ⟨item, hmoved, -⟩
              · exact .pass hturn (congrArg some hmoved) hidle
                  (by rw [proceed, hmoved]; exact List.append_nil _)
              · exact .serve hturn (congrArg some hmoved) hidle (by rw [proceed, hmoved]; rfl)
      | sleeping ticks =>
          cases hstep
          have hmoved := Multiplexer.advance_sleeping traffic.hub ticks
          have hgoes : traffic.hub.patience.goesOn ticks = decide (ticks < limit) := by
            rw [hpatience, Patience.goesOn]
          rw [if_neg (Bool.eq_false_iff.1 hcancelled), hgoes] at hmoved
          by_cases hticks : ticks < limit
          · rw [decide_eq_true hticks] at hmoved
            rw [proceed_of_advance hmoved rfl]
            exact .retry hturn hticks
          · rw [decide_eq_false hticks] at hmoved
            rw [proceed_of_advance hmoved rfl]
            exact .giveUp hturn (Nat.le_of_not_lt hticks)

theorem step_cancelled (hstep : traffic.step false signal = some next) :
    next.hub.cancelled = traffic.hub.cancelled := by
  cases signal with
  | outside action =>
      cases hstep
      exact traffic.hub.perform_cancelled action
  | call =>
      obtain rfl := eq_of_step_call hstep
      rfl
  | proceed =>
      obtain ⟨turn, -, -, rfl⟩ := eq_of_step_proceed hstep
      exact Multiplexer.advance_cancelled ..
  | elapse =>
      obtain ⟨ticks, -, -, rfl⟩ := eq_of_step_elapse hstep
      rfl

/-- What holds of every multiplexer that retries so many times, as long as nobody cancels. -/
structure Regular (limit : Nat) (traffic : Traffic α β) : Prop where
  patience : traffic.hub.patience = .retry limit
  cancelled : traffic.hub.cancelled = false
  retries : ∀ ticks, traffic.turn?.bind Turn.retries? = some ticks → ticks ≤ limit
  /-- A call sleeps only as long as something can still come. -/
  asleep : ∀ ticks, traffic.turn? = some (.sleeping ticks) → traffic.hub.isExhausted = false

theorem Regular.retries_le (h : traffic.Regular limit) {turn : Turn β} {ticks : Nat}
    (hturn : traffic.turn? = some turn) (hticks : turn.retries? = some ticks) : ticks ≤ limit :=
  h.retries ticks (by rw [hturn]; exact hticks)

theorem Regular.ofPorts (ports : List (Port α β)) (limit : Nat) :
    (ofPorts ports (.retry limit)).Regular limit :=
  ⟨rfl, rfl, nofun, nofun⟩

theorem Regular.step (h : traffic.Regular limit) (hstep : traffic.step false signal = some next) :
    next.Regular limit := by
  obtain ⟨arrived, passed, htouches, -⟩ := step_touches hstep
  have hpatience : next.hub.patience = .retry limit := htouches.patience_eq.trans h.patience
  have hcancelled : next.hub.cancelled = false := (step_cancelled hstep).trans h.cancelled
  cases signal with
  | outside action =>
      have hopen := Multiplexer.perform_isExhausted false traffic.hub action
      cases hstep
      exact ⟨hpatience, hcancelled, h.retries, fun ticks hturn => hopen.trans (h.asleep ticks hturn)⟩
  | call =>
      obtain rfl := eq_of_step_call hstep
      refine ⟨hpatience, hcancelled, fun ticks hticks => ?_, nofun⟩
      cases hticks
      exact Nat.zero_le limit
  | proceed =>
      cases proceeds_of_step h.patience h.cancelled hstep with
      | pass hturn hnext hidle hdelivered =>
          refine ⟨hpatience, hcancelled, fun ticks hticks => ?_, by rw [hnext]; exact nofun⟩
          rw [hnext] at hticks
          cases hticks
          exact h.retries_le hturn rfl
      | serve hturn hnext hidle hdelivered =>
          exact ⟨hpatience, hcancelled, by rw [hnext]; exact nofun, by rw [hnext]; exact nofun⟩
      | finish hturn hexhausted => exact ⟨hpatience, hcancelled, nofun, nofun⟩
      | doze hturn hopen =>
          refine ⟨hpatience, hcancelled, fun ticks hticks => ?_, fun _ _ => hopen⟩
          cases hticks
          exact h.retries_le hturn rfl
      | retry hturn hticks =>
          refine ⟨hpatience, hcancelled, fun ticks hsame => ?_, nofun⟩
          cases hsame
          exact hticks
      | giveUp hturn hticks => exact ⟨hpatience, hcancelled, nofun, nofun⟩
  | elapse => exact absurd hstep (step_elapse_ne h.cancelled)

/-- What was handed on since a moment, with the ticks that it was worth. -/
structure Paced (limit : Nat) (moment traffic : Traffic α β) (since : List (Delivery β)) : Prop where
  delivered : traffic.delivered = moment.delivered ++ since
  idleTicks : traffic.hub.idleTicks ≤
    moment.hub.idleTicks + limit * since.length + traffic.turn?.elim 0 (Turn.overtime limit)

theorem elim_overtime_of_resting (hresting : traffic.isResting = true) :
    traffic.turn?.elim 0 (Turn.overtime limit) = 0 := by
  unfold isResting at hresting
  split at hresting
  · rename_i hturn
    rw [hturn]
    rfl
  · rename_i item hturn
    rw [hturn]
    rfl
  all_goals cases hresting

theorem Regular.elim_overtime_le (h : traffic.Regular limit) :
    traffic.turn?.elim 0 (Turn.overtime limit) ≤ limit + 1 := by
  have hretries := h.retries
  cases hturn : traffic.turn? with
  | none => exact Nat.zero_le _
  | some turn =>
      rw [hturn] at hretries
      cases turn with
      | probing left ticks | sleeping ticks => exact Nat.le_succ_of_le (hretries ticks rfl)
      | returned item? =>
          cases item? with
          | none => exact Nat.le_refl _
          | some item => exact Nat.zero_le _

theorem Paced.step (h : Paced limit moment traffic since) (hregular : traffic.Regular limit)
    (hstep : traffic.stepRun false signal = some next) : ∃ since, Paced limit moment next since := by
  have hidle := h.idleTicks
  cases signal with
  | outside action =>
      have hsame := Multiplexer.perform_idleTicks false traffic.hub action
      cases hstep
      exact ⟨since, h.delivered, hsame ▸ hidle⟩
  | call =>
      obtain ⟨hresting, hstep⟩ := Option.ite_none_right_eq_some.1 hstep
      obtain rfl := eq_of_step_call hstep
      rw [elim_overtime_of_resting hresting] at hidle
      exact ⟨since, h.delivered, hidle⟩
  | proceed =>
      cases proceeds_of_step hregular.patience hregular.cancelled hstep with
      | @pass left ticks _ hturn hnext hsame hdelivered =>
          rw [hturn] at hidle
          refine ⟨since, hdelivered.trans h.delivered, ?_⟩
          rw [hnext, hsame]
          exact hidle
      | @serve left ticks item _ hturn hnext hsame hdelivered =>
          rw [hturn] at hidle
          have hticks := hregular.retries_le hturn rfl
          refine ⟨since ++ [item], by rw [hdelivered, h.delivered, List.append_assoc], ?_⟩
          rw [hnext, hsame, List.length_append, List.length_singleton, Nat.mul_succ]
          simp only [Option.elim_some, Turn.overtime] at hidle ⊢
          omega
      | @finish ticks hturn _ =>
          rw [hturn] at hidle
          have hticks := hregular.retries_le hturn rfl
          refine ⟨since, h.delivered, ?_⟩
          simp only [Option.elim_some, Turn.overtime] at hidle ⊢
          omega
      | @doze ticks hturn _ =>
          rw [hturn] at hidle
          exact ⟨since, h.delivered, hidle⟩
      | @retry ticks hturn _ =>
          rw [hturn] at hidle
          exact ⟨since, h.delivered, Nat.succ_le_succ hidle⟩
      | @giveUp ticks hturn _ =>
          rw [hturn] at hidle
          have hticks := hregular.retries_le hturn rfl
          refine ⟨since, h.delivered, ?_⟩
          simp only [Option.elim_some, Turn.overtime] at hidle ⊢
          omega
  | elapse => exact absurd (step_of_stepRun hstep) (step_elapse_ne hregular.cancelled)

theorem Regular.paced (h : moment.Regular limit) (hrun : moment.followRun false signals = some last) :
    last.Regular limit ∧ ∃ since, Paced limit moment last since := by
  refine foldlM_induction (P := fun traffic => traffic.Regular limit ∧
    ∃ since, Paced limit moment traffic since)
    (fun traffic signal next _ ⟨hregular, since, hpaced⟩ hstep =>
      ⟨hregular.step (step_of_stepRun hstep), hpaced.step hregular hstep⟩)
    ⟨h, [], (List.append_nil _).symm, ?_⟩ hrun
  exact Nat.le_add_right_of_le (Nat.le_add_right _ _)

/-- The one leads to the other, and no other call is made on the way. -/
def SameCall (moment traffic : Traffic α β) : Prop :=
  ∃ signals, (∀ signal ∈ signals, signal ≠ .call) ∧ moment.follow false signals = some traffic

theorem SameCall.refl (moment : Traffic α β) : SameCall moment moment :=
  ⟨[], nofun, rfl⟩

theorem SameCall.step (h : SameCall moment traffic) (hsignal : signal ≠ .call)
    (hstep : traffic.step false signal = some next) : SameCall moment next := by
  obtain ⟨signals, hsignals, hrun⟩ := h
  have hlast : [signal].foldlM (Traffic.step false) traffic = some next :=
    foldlM_cons_eq_some.2 ⟨next, hstep, rfl⟩
  refine ⟨signals ++ [signal], fun other hother => ?_, foldlM_trans hrun hlast⟩
  rcases List.mem_append.1 hother with hother | hother
  · exact hsignals other hother
  · rwa [List.mem_singleton.1 hother]

theorem SameCall.induction {P : Traffic α β → Prop}
    (hstep : ∀ traffic signal next, signal ≠ .call → P traffic →
      traffic.step false signal = some next → P next)
    (hmoment : P moment) (h : SameCall moment last) : P last := by
  obtain ⟨signals, hsignals, hrun⟩ := h
  exact foldlM_induction (fun traffic signal next hmem =>
    hstep traffic signal next (hsignals signal hmem)) hmoment hrun

/-- What a call that began at the moment has slept through, and how it has ended, if it has. -/
inductive Called (limit : Nat) (moment traffic : Traffic α β) : Prop where
  | underway {ticks : Nat} (hturn : traffic.turn?.bind Turn.retries? = some ticks)
      (hidle : traffic.hub.idleTicks = moment.hub.idleTicks + ticks)
      (hdelivered : traffic.delivered = moment.delivered)
  | served {item : Delivery β} {ticks : Nat} (hturn : traffic.turn? = some (.returned (some item)))
      (hticks : ticks ≤ limit) (hidle : traffic.hub.idleTicks = moment.hub.idleTicks + ticks)
      (hdelivered : traffic.delivered = moment.delivered ++ [item])
  | exhausted {ticks : Nat} (hturn : traffic.turn? = some (.returned none))
      (hexhausted : traffic.hub.isExhausted = true) (hticks : ticks ≤ limit)
      (hidle : traffic.hub.idleTicks = moment.hub.idleTicks + ticks)
      (hdelivered : traffic.delivered = moment.delivered)
  /-- After its last tick the multiplexer is what the producers make of it. -/
  | givenUp {asleep : Traffic α β} {actions : List (Action α)}
      (hturn : traffic.turn? = some (.returned none))
      (hopen : traffic.hub.isExhausted = false)
      (hidle : traffic.hub.idleTicks = moment.hub.idleTicks + (limit + 1))
      (hdelivered : traffic.delivered = moment.delivered) (hbefore : SameCall moment asleep)
      (hasleep : asleep.turn? = some (.sleeping limit))
      (hunread : traffic.hub = actions.foldl (Timeline.perform false)
        { asleep.hub with idleTicks := asleep.hub.idleTicks + 1 })

theorem Called.spent (h : Called limit moment traffic) {turn : Turn β} {ticks : Nat}
    (hturn : traffic.turn? = some turn) (hticks : turn.retries? = some ticks) :
    traffic.hub.idleTicks = moment.hub.idleTicks + ticks ∧ traffic.delivered = moment.delivered := by
  have hretries : traffic.turn?.bind Turn.retries? = some ticks := by
    rw [hturn]
    exact hticks
  cases h with
  | underway hsame hidle hdelivered =>
      rw [hretries] at hsame
      cases hsame
      exact ⟨hidle, hdelivered⟩
  | served hended _ _ _ | exhausted hended _ _ _ _ | givenUp hended _ _ _ _ _ _ =>
      rw [hended] at hretries
      cases hretries

theorem Called.step (h : Called limit moment traffic) (hregular : traffic.Regular limit)
    (hsame : SameCall moment traffic) (hsignal : signal ≠ .call)
    (hstep : traffic.step false signal = some next) : Called limit moment next := by
  cases signal with
  | call => exact absurd rfl hsignal
  | outside action =>
      have hticks := Multiplexer.perform_idleTicks false traffic.hub action
      have hmarks := Multiplexer.perform_isExhausted false traffic.hub action
      cases hstep
      cases h with
      | underway hturn hidle hdelivered => exact .underway hturn (hticks.trans hidle) hdelivered
      | served hturn hle hidle hdelivered => exact .served hturn hle (hticks.trans hidle) hdelivered
      | exhausted hturn hexhausted hle hidle hdelivered =>
          exact .exhausted hturn (hmarks.trans hexhausted) hle (hticks.trans hidle) hdelivered
      | @givenUp asleep actions hturn hopen hidle hdelivered hbefore hasleep hunread =>
          have hmore : Timeline.perform false traffic.hub action =
              (actions ++ [action]).foldl (Timeline.perform false)
              { asleep.hub with idleTicks := asleep.hub.idleTicks + 1 } := by
            rw [List.foldl_append, ← hunread]
            rfl
          exact .givenUp hturn (hmarks.trans hopen) (hticks.trans hidle) hdelivered hbefore
            hasleep hmore
  | proceed =>
      cases proceeds_of_step hregular.patience hregular.cancelled hstep with
      | pass hturn hnext hkept hnothing =>
          obtain ⟨hidle, hdelivered⟩ := h.spent hturn rfl
          exact .underway (by rw [hnext]; rfl) (hkept.trans hidle) (hnothing.trans hdelivered)
      | serve hturn hnext hkept hitem =>
          obtain ⟨hidle, hdelivered⟩ := h.spent hturn rfl
          exact .served hnext (hregular.retries_le hturn rfl) (hkept.trans hidle)
            (by rw [hitem, hdelivered])
      | finish hturn hexhausted =>
          obtain ⟨hidle, hdelivered⟩ := h.spent hturn rfl
          exact .exhausted rfl hexhausted (hregular.retries_le hturn rfl) hidle hdelivered
      | doze hturn _ =>
          obtain ⟨hidle, hdelivered⟩ := h.spent hturn rfl
          exact .underway rfl hidle hdelivered
      | retry hturn _ =>
          obtain ⟨hidle, hdelivered⟩ := h.spent hturn rfl
          exact .underway rfl (congrArg Nat.succ hidle) hdelivered
      | giveUp hturn hticks =>
          obtain ⟨hidle, hdelivered⟩ := h.spent hturn rfl
          obtain rfl := Nat.le_antisymm (hregular.retries_le hturn rfl) hticks
          have hunread : ({ traffic.hub with idleTicks := traffic.hub.idleTicks + 1 } :
              Multiplexer α β) =
              ([] : List (Action α)).foldl (Timeline.perform false)
                { traffic.hub with idleTicks := traffic.hub.idleTicks + 1 } := rfl
          exact .givenUp rfl (hregular.asleep _ hturn) (congrArg Nat.succ hidle) hdelivered hsame
            hturn hunread
  | elapse => exact absurd hstep (step_elapse_ne hregular.cancelled)

theorem Regular.called (h : moment.Regular limit)
    (hbegins : moment.turn? = some (.probing moment.hub.lanes.size 0))
    (hlast : SameCall moment last) : Called limit moment last := by
  have hbegun : Called limit moment moment := .underway (by rw [hbegins]; rfl) rfl rfl
  refine (SameCall.induction (P := fun traffic =>
      traffic.Regular limit ∧ SameCall moment traffic ∧ Called limit moment traffic)
    (fun traffic signal next hsignal ⟨hregular, hsame, hcalled⟩ hstep => ?_)
    ⟨h, .refl moment, hbegun⟩ hlast).2.2
  exact ⟨hregular.step hstep, hsame.step hsignal hstep, hcalled.step hregular hsame hsignal hstep⟩

/-- The latest call has returned with a value, or it is in the middle of a sweep. Then, if it is
left to itself, it returns with a value, at the latest with the last probe. -/
inductive Serving (traffic : Traffic α β) : Prop where
  | served {item : Delivery β} (hturn : traffic.turn? = some (.returned (some item)))
  | probing {left ticks moves : Nat} {after : Traffic α β} {item : Delivery β}
      (hturn : traffic.turn? = some (.probing (left + 1) ticks)) (hmoves : moves ≤ left + 1)
      (hrun : traffic.follow false (.replicate moves .proceed) = some after)
      (hreturned : after.turn? = some (.returned (some item)))

theorem follow_proceed {left ticks moves : Nat} (hturn : traffic.turn? = some (.probing left ticks))
    (hrest : (traffic.proceed (.probing left ticks)).follow false (.replicate moves .proceed) =
      some last) :
    traffic.follow false (.replicate (moves + 1) .proceed) = some last := by
  rw [List.replicate_succ]
  refine foldlM_cons_eq_some.2 ⟨_, ?_, hrest⟩
  rw [Traffic.step, hturn]

/-- A sweep that has still to come to the channel returns with a value. -/
theorem Attentive.exists_returned (h : Attentive ports.length index moment last since)
    (hbooks : last.Books ports) {left ticks : Nat}
    (hturn : last.turn? = some (.probing (left + 1) ticks)) : ∃ moves ≤ left + 1, ∃ after item,
      last.follow false (.replicate moves .proceed) = some after ∧
        after.turn? = some (.returned (some item)) := by
  induction left generalizing last since ticks with
  | zero =>
      rcases h.returns hbooks.sealed hturn with ⟨item, hreturned⟩ | ⟨hleft, -⟩
      · exact ⟨1, Nat.le_refl 1, _, item, follow_proceed hturn rfl, hreturned⟩
      · cases hleft
  | succ left ih =>
      rcases h.returns hbooks.sealed hturn with ⟨item, hreturned⟩ | ⟨-, hgoes⟩
      · exact ⟨1, Nat.le_add_left 1 (left + 1), _, item, follow_proceed hturn rfl, hreturned⟩
      · have hstep : last.step false .proceed =
            some (last.proceed (.probing (left + 1 + 1) ticks)) := by
          rw [Traffic.step, hturn]
        obtain ⟨since, hnext⟩ := h.proceed hbooks.sealed false hstep
        obtain ⟨moves, hmoves, after, item, hrest, hreturned⟩ := ih hnext (hbooks.step hstep) hgoes
        exact ⟨moves + 1, Nat.succ_le_succ hmoves, after, item, follow_proceed hturn hrest, hreturned⟩

theorem Attentive.serving (h : Attentive ports.length index moment last since)
    (hbooks : last.Books ports) :
    last.Serving := by
  rcases h.turn with ⟨item, hturn⟩ | ⟨left, ticks, hturn, -⟩
  · exact .served hturn
  · obtain ⟨moves, hmoves, after, item, hrun, hreturned⟩ := h.exists_returned hbooks hturn
    exact .probing hturn hmoves hrun hreturned

/-- A list in which every window of some size has an item of a kind has so many of them. -/
theorem le_countP_of_windows {γ : Type} {p : γ → Bool} {items : List γ} {size : Nat}
    (hsoon : ∀ segment, segment <:+: items → size ≤ segment.length → ∃ item ∈ segment, p item = true)
    (count : Nat) (hlength : size * count ≤ items.length) : count ≤ items.countP p := by
  induction count generalizing items with
  | zero => exact Nat.zero_le _
  | succ count ih =>
      rw [Nat.mul_succ] at hlength
      have hfirst : 0 < (items.take size).countP p := by
        refine List.countP_pos_iff.2 (hsoon _ (List.take_prefix size items).isInfix ?_)
        rw [List.length_take]
        omega
      have hrest : count ≤ (items.drop size).countP p := by
        refine ih (fun segment hsegment =>
          hsoon segment (hsegment.trans (List.drop_suffix size items).isInfix)) ?_
        rw [List.length_drop]
        omega
      rw [← List.take_append_drop size items, List.countP_append]
      omega

theorem length_deliveredBy_append (hdelivered : next.delivered = traffic.delivered ++ since)
    (index : Nat) :
    (next.deliveredBy index).length =
      (traffic.deliveredBy index).length + since.countP fun item => item.source = index := by
  have hcount : (since.filterMap fun item => if item.source = index then some item.value
      else none).length =
      since.countP fun item => item.source = index := by
    rw [List.length_filterMap_eq_countP]
    refine List.countP_congr fun item _ => ?_
    rw [Option.isSome_ite, decide_eq_true_eq]
  rw [deliveredBy, hdelivered, List.filterMap_append, List.length_append, hcount, deliveredBy]

/-- Everything that was sent to the channel up to the moment has been handed on. -/
def CaughtUp (index : Nat) (moment traffic : Traffic α β) : Prop :=
  (moment.sentTo index).length ≤ (traffic.deliveredBy index).length

theorem CaughtUp.step (h : CaughtUp index moment traffic) {hasToken : Bool}
    (hstep : traffic.step hasToken signal = some next) : CaughtUp index moment next := by
  obtain ⟨arrived, passed, -, -, hdelivered⟩ := step_touches hstep
  rw [CaughtUp, length_deliveredBy_append hdelivered]
  exact Nat.le_add_right_of_le h

theorem CaughtUp.isPrefix (h : CaughtUp index moment traffic) (hbooks : traffic.Books ports)
    (hsent : moment.sent <+: traffic.sent) {port : Port α β} (hport : ports[index]? = some port) :
    (moment.sentTo index).mapIdx port.convert <+: traffic.deliveredBy index := by
  obtain ⟨lane, -, haccounts⟩ := hbooks.accounts hport
  obtain ⟨taken, htaken, -, hhanded⟩ := haccounts.balance
  have hall : moment.sentTo index <+: taken ++ lane.channel.buffer.toList := htaken ▸ hsent.filterMap _
  rw [CaughtUp, hhanded, List.length_mapIdx] at h
  obtain ⟨more, rfl⟩ := List.prefix_of_prefix_length_le hall (List.prefix_append _ _) h
  rw [hhanded, List.mapIdx_append]
  exact List.prefix_append _ _

/-- If nothing is buffered in the channel, everything was handed on. -/
theorem CaughtUp.ofNotStocked (hbooks : traffic.Books ports) (hsent : moment.sent <+: traffic.sent)
    (hindex : index < ports.length) (hnone : ¬traffic.hub.isStocked index = true) :
    CaughtUp index moment traffic := by
  obtain ⟨lane, hlane, haccounts⟩ := hbooks.accounts (List.getElem?_eq_getElem hindex)
  obtain ⟨taken, htaken, -, hhanded⟩ := haccounts.balance
  have hempty : lane.channel.buffer.toList = [] := by
    by_contra hbuffer
    exact hnone (Multiplexer.isStocked_iff.2 ⟨lane, hlane, hbuffer⟩)
  have hall : moment.sentTo index <+: traffic.sentTo index := hsent.filterMap _
  rw [CaughtUp, hhanded, List.length_mapIdx]
  rw [htaken, hempty, List.append_nil] at hall
  exact hall.length_le

theorem Attentive.ofBegun (hsize : moment.hub.lanes.size = ports.length) {ticks : Nat}
    (hbegins : moment.turn? = some (.probing moment.hub.lanes.size ticks))
    (hstocked : moment.hub.isStocked index = true) : Attentive ports.length index moment moment [] := by
  refine ⟨hsize, (List.append_nil _).symm, rfl, ?_, .nil, nofun⟩
  rw [hbegins]
  exact .probing _ ticks (.ofStocked hstocked)

/-- From a sweep on nothing but sweeps and deliveries happens before the channel has been caught up
with. -/
theorem Books.tended (h : moment.Books ports) (hindex : index < ports.length) {ticks : Nat}
    (hbegins : moment.turn? = some (.probing moment.hub.lanes.size ticks)) {hasToken : Bool}
    (hrun : moment.follow hasToken signals = some last) :
    CaughtUp index moment last ∨ ∃ since, Attentive ports.length index moment last since := by
  have hbegun : CaughtUp index moment moment ∨
      ∃ since, Attentive ports.length index moment moment since := by
    by_cases hstocked : moment.hub.isStocked index = true
    · exact .inr ⟨[], .ofBegun h.size hbegins hstocked⟩
    · exact .inl (.ofNotStocked h List.prefix_rfl hindex hstocked)
  refine (foldlM_induction (P := fun traffic => moment.LeadsTo hasToken traffic ∧ traffic.Books ports ∧
    (CaughtUp index moment traffic ∨ ∃ since, Attentive ports.length index moment traffic since))
    (fun traffic signal next _ ⟨hreached, hbooks, htended⟩ hstep =>
      ⟨hreached.trans (.ofStep signal hstep), hbooks.step hstep, ?_⟩)
    ⟨.refl moment, h, hbegun⟩ hrun).2.2
  rcases htended with hcaught | ⟨since, hattentive⟩
  · exact .inl (hcaught.step hstep)
  · cases signal with
    | outside action => exact .inr ⟨since, hattentive.outside action hstep⟩
    | proceed => exact .inr (hattentive.proceed hbooks.sealed hasToken hstep)
    | elapse => exact absurd hstep hattentive.step_elapse_ne
    | call =>
        by_cases hstocked : traffic.hub.isStocked index = true
        · exact .inr ⟨since, hattentive.call hstocked hstep⟩
        · exact .inl ((CaughtUp.ofNotStocked hbooks hreached.sent_prefix hindex hstocked).step hstep)

/-- That does not take many deliveries. -/
theorem Attentive.length_lt_of_not_caughtUp (h : Attentive ports.length index moment last since)
    (hmoment : moment.Books ports) (hlast : last.Books ports) (hindex : index < ports.length)
    {lane : Lane α β} (hlane : moment.hub.lanes[index]? = some lane)
    (hnot : ¬CaughtUp index moment last) :
    since.length < ports.length * lane.channel.buffer.size := by
  by_contra hmany
  have hsources : ∀ item ∈ since, item.source < ports.length := fun item hitem =>
    hlast.sources item (h.delivered ▸ List.mem_append_right _ hitem)
  have hcount : lane.channel.buffer.size ≤ since.countP fun item => item.source = index := by
    refine le_countP_of_windows (fun segment hsegment hlength => ?_) _ (Nat.le_of_not_lt hmany)
    obtain ⟨item, hitem, hsource⟩ := h.soon hindex hsources hsegment hlength
    exact ⟨item, hitem, decide_eq_true hsource⟩
  obtain ⟨_, -, -, ⟨taken, htaken, -, hhanded⟩, -⟩ := hmoment.lane hlane
  rw [CaughtUp, length_deliveredBy_append h.delivered, htaken, hhanded, List.length_append,
    List.length_mapIdx, ← Queue.size_eq_length] at hnot
  omega

theorem Regular.exhausted_step (h : traffic.Regular limit) (hexhausted : traffic.hub.isExhausted = true)
    (hstep : traffic.step false signal = some next) : next.hub.idleTicks = traffic.hub.idleTicks := by
  cases signal with
  | outside action =>
      cases hstep
      exact Multiplexer.perform_idleTicks false traffic.hub action
  | call =>
      obtain rfl := eq_of_step_call hstep
      rfl
  | proceed =>
      cases proceeds_of_step h.patience h.cancelled hstep with
      | pass _ _ hidle _ | serve _ _ hidle _ => exact hidle
      | finish _ _ | doze _ _ => rfl
      | retry hturn _ | giveUp hturn _ =>
          rw [h.asleep _ hturn] at hexhausted
          cases hexhausted
  | elapse => exact absurd hstep (step_elapse_ne h.cancelled)

/-- The idle ticks before and after a moment of a multiplexer that retries so many times, if nobody
cancels. -/
structure Accounted (ports : List (Port α β)) (limit : Nat) (moment : Traffic α β) : Prop where
  /-- The counter of a call fits into its word. -/
  counter : ∀ ticks, moment.turn?.bind Turn.retries? = some ticks → ticks ≤ limit ∧ ticks < 2 ^ 32
  /-- While everything is received, up to `limit` ticks pass before each value, and one more at the
  end. -/
  run : ∀ signals last, moment.followRun false signals = some last → ∃ since,
    last.delivered = moment.delivered ++ since ∧
      (last.isResting = true → last.hub.idleTicks ≤ moment.hub.idleTicks + limit * since.length) ∧
      last.hub.idleTicks ≤ moment.hub.idleTicks + limit * since.length + limit + 1
  whole : ∀ signals, (ofPorts ports (.retry limit)).followRun false signals = some moment →
    moment.hub.tally.idleTicks ≤ limit * moment.hub.tally.received + limit + 1
  /-- The ticks of one call. -/
  call : moment.turn? = some (.probing moment.hub.lanes.size 0) → ∀ last, SameCall moment last →
    Called limit moment last
  /-- When one of the first `limit` ticks of a call ends, what is buffered in a channel is handed
  on, with all that was sent to it before. Until it is, every call returns with a value, no further
  tick passes, and there are so many deliveries at most. -/
  awoken : ∀ ticks, moment.turn? = some (.sleeping ticks) → ticks < limit → ∀ signals last,
    moment.follow false (.proceed :: signals) = some last →
      ∀ index port lane, ports[index]? = some port →
    moment.hub.lanes[index]? = some lane →
      (moment.sentTo index).mapIdx port.convert <+: last.deliveredBy index ∨
        last.hub.idleTicks = moment.hub.idleTicks + 1 ∧
          last.delivered.length < moment.delivered.length + ports.length *
            lane.channel.buffer.size ∧ last.Serving
  /-- A call that begins while a value is buffered does not sleep. -/
  stocked : moment.turn? = some (.probing moment.hub.lanes.size 0) →
    ∀ index, moment.hub.isStocked index = true →
    ∀ last, SameCall moment last → last.hub.idleTicks = moment.hub.idleTicks ∧ last.Serving
  /-- Once every channel was found closed and empty, no call sleeps. -/
  exhausted : moment.hub.isExhausted = true → ∀ signals last, moment.follow false signals = some last →
    last.hub.idleTicks = moment.hub.idleTicks

theorem LeadsTo.regular (h : (ofPorts ports (.retry limit)).LeadsTo false moment) :
    moment.Regular limit := by
  obtain ⟨signals, hrun⟩ := h
  exact foldlM_induction (P := Regular limit) (fun _ _ _ _ hregular hstep => hregular.step hstep)
    (.ofPorts ports limit) hrun

theorem Paced.bounds (h : Paced limit moment last since) (hregular : last.Regular limit) :
    (last.isResting = true → last.hub.idleTicks ≤ moment.hub.idleTicks + limit * since.length) ∧
      last.hub.idleTicks ≤ moment.hub.idleTicks + limit * since.length + limit + 1 := by
  have hidle := h.idleTicks
  constructor
  · intro hresting
    rwa [elim_overtime_of_resting hresting] at hidle
  · have hovertime := hregular.elim_overtime_le
    omega

/-- What is buffered when a tick ends after which the call goes on. -/
theorem LeadsTo.awoken (h : (ofPorts ports (.retry limit)).LeadsTo false moment) {ticks : Nat}
    (hasleep : moment.turn? = some (.sleeping ticks)) (hticks : ticks < limit)
    (hrun : moment.follow false (.proceed :: signals) = some last) {port : Port α β} {lane : Lane α β}
    (hport : ports[index]? = some port) (hlane : moment.hub.lanes[index]? = some lane) :
    (moment.sentTo index).mapIdx port.convert <+: last.deliveredBy index ∨
      last.hub.idleTicks = moment.hub.idleTicks + 1 ∧
        last.delivered.length < moment.delivered.length + ports.length * lane.channel.buffer.size ∧
        last.Serving := by
  obtain ⟨woken, hwoken, hrest⟩ := foldlM_cons_eq_some.1 hrun
  have hregular := h.regular
  have hreached := h.trans (.ofStep .proceed hwoken)
  have hlater : woken.LeadsTo false last := ⟨signals, hrest⟩
  have hlast := (hreached.trans hlater).books
  have hindex := (List.getElem?_eq_some_iff.1 hport).1
  cases proceeds_of_step hregular.patience hregular.cancelled hwoken with
  | retry hturn _ =>
      by_cases hcaught : CaughtUp index moment last
      · exact .inl (hcaught.isPrefix hlast hlater.sent_prefix hport)
      · rcases hreached.books.tended hindex rfl hrest with hsame | ⟨since, h⟩
        · exact absurd hsame hcaught
        · have hfew := h.length_lt_of_not_caughtUp hreached.books hlast hindex hlane hcaught
          refine .inr ⟨h.idleTicks, ?_, h.serving hlast⟩
          rw [h.delivered, List.length_append]
          exact Nat.add_lt_add_left hfew _
  | pass hturn _ _ _ | serve hturn _ _ _ | finish hturn _ | doze hturn _ =>
      rw [hasleep] at hturn
      cases hturn
  | giveUp hturn hends =>
      rw [hasleep] at hturn
      cases hturn
      exact absurd hticks (Nat.not_lt.2 hends)

/-- A call that begins while a value is buffered is attentive to the channel to its end. -/
theorem Books.attentive (h : moment.Books ports)
    (hbegins : moment.turn? = some (.probing moment.hub.lanes.size 0))
    (hstocked : moment.hub.isStocked index = true) (hlast : SameCall moment last) :
    last.Books ports ∧ ∃ since, Attentive ports.length index moment last since := by
  refine SameCall.induction (P := fun traffic => traffic.Books ports ∧
    ∃ since, Attentive ports.length index moment traffic since)
    (fun traffic signal next hsignal ⟨hbooks, since, hattentive⟩ hstep => ⟨hbooks.step hstep, ?_⟩)
    ⟨h, [], .ofBegun h.size hbegins hstocked⟩ hlast
  cases signal with
  | outside action => exact ⟨since, hattentive.outside action hstep⟩
  | proceed => exact hattentive.proceed hbooks.sealed false hstep
  | elapse => exact absurd hstep hattentive.step_elapse_ne
  | call => exact absurd rfl hsignal

theorem Regular.exhausted (h : moment.Regular limit) (hexhausted : moment.hub.isExhausted = true)
    (hrun : moment.follow false signals = some last) : last.hub.idleTicks = moment.hub.idleTicks := by
  refine (foldlM_induction (P := fun traffic => traffic.Regular limit ∧ traffic.hub.isExhausted = true ∧
    traffic.hub.idleTicks = moment.hub.idleTicks)
    (fun traffic signal next _ ⟨hregular, hexhausted, hidle⟩ hstep => ?_) ⟨h, hexhausted, rfl⟩ hrun).2.2
  obtain ⟨arrived, passed, htouches, -⟩ := step_touches hstep
  exact ⟨hregular.step hstep, htouches.isExhausted hexhausted,
    (hregular.exhausted_step hexhausted hstep).trans hidle⟩

/-- **Every idle tick is accounted for.** Let the producers send and drop their senders between any
two moves of the calls, and let nobody cancel. -/
theorem idle_ticks_accounted (hlimit : limit < 2 ^ 32)
    (hreached : (ofPorts ports (.retry limit)).LeadsTo false moment) :
    moment.Accounted ports limit where
  counter ticks hticks := by
    have hle := hreached.regular.retries ticks hticks
    exact ⟨hle, Nat.lt_of_le_of_lt hle hlimit⟩
  run signals last hrun := by
    obtain ⟨hlast, since, hpaced⟩ := hreached.regular.paced hrun
    exact ⟨since, hpaced.delivered, hpaced.bounds hlast⟩
  whole signals hrun := by
    obtain ⟨hlast, since, hpaced⟩ := (Regular.ofPorts ports limit).paced hrun
    obtain rfl : moment.delivered = since := hpaced.delivered
    have hbound := (hpaced.bounds hlast).2
    rwa [← hreached.books.received, show (ofPorts ports (.retry limit)).hub.idleTicks = 0 from rfl,
      Nat.zero_add]
      at hbound
  call hbegins last hlast := hreached.regular.called hbegins hlast
  awoken ticks hasleep hticks signals last hrun index port lane hport hlane :=
    hreached.awoken hasleep hticks hrun hport hlane
  stocked hbegins index hstocked last hlast := by
    obtain ⟨hbooks, since, hattentive⟩ := hreached.books.attentive hbegins hstocked hlast
    exact ⟨hattentive.idleTicks, hattentive.serving hbooks⟩
  exhausted hexhausted signals last hrun := hreached.regular.exhausted hexhausted hrun

/-- Two calls. A value arrives in the first tick of the first one, and nothing in those of the
second one. -/
def twoCalls : List (Signal Nat) :=
  .call :: .replicate 4 .proceed ++ .outside (.send 2 7) :: .replicate 4 .proceed ++ .call ::
    .replicate 10 .proceed

/-- The second call is given up, and with its ticks the bound is attained. -/
theorem idle_ticks_accounted_to_the_last : ∃ last : Traffic Nat Nat,
    (ofPorts threePorts (.retry 1)).followRun false twoCalls = some last ∧ last.delivered = [⟨2, 7⟩] ∧
      last.hub.tally.idleTicks = 1 * last.hub.tally.received + 1 + 1 ∧ last.Accounted threePorts 1 := by
  have hruns : ((ofPorts threePorts (.retry 1)).followRun false twoCalls).any (fun last =>
      last.delivered == [⟨2, 7⟩] &&
        last.hub.tally.idleTicks == 1 * last.hub.tally.received + 1 + 1) = true := by
    decide +kernel
  obtain ⟨last, hrun, hgood⟩ := (Option.any_eq_true _ _).1 hruns
  obtain ⟨hdelivered, hidle⟩ := (Bool.and_eq_true _ _).mp hgood
  exact ⟨last, hrun, beq_iff_eq.1 hdelivered, beq_iff_eq.1 hidle,
    idle_ticks_accounted (by decide) (leadsTo_of_followRun hrun)⟩

end Traffic

end ParallelFilter
