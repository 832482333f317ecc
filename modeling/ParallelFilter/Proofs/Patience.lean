import ParallelFilter.Multiplexer.Arrivals
import ParallelFilter.Proofs.Senders

/-! What patience adds. Two readers of one multiplexer, of which one is more patient, see the same
until the less patient one gives up: nothing that happens around them depends on their patience, and
a sweep does not either. So whatever is handed on to the one is handed on to the other, and what the
more patient one receives after that is added at the end. A reader that ends because nothing can
come any more has not given up, so there all end alike. -/

namespace ParallelFilter

variable {σ α β : Type}

namespace Multiplexer

/-- The multiplexer as a reader of another patience has it. -/
def withPatience (hub : Multiplexer α β) (patience : Patience) : Multiplexer α β :=
  { hub with patience }

theorem withPatience_self (hub : Multiplexer α β) : hub.withPatience hub.patience = hub := rfl

/-- The end of a sleep. -/
theorem advance_sleeping (hub : Multiplexer α β) (ticks : Nat) : hub.advance (.sleeping ticks) =
    if hub.cancelled then (hub, .returned none)
    else ({ hub with idleTicks := hub.idleTicks + 1 },
      if hub.patience.goesOn ticks then .probing hub.lanes.size (ticks + 1) else .returned none) := by
  rw [advance, wake_eq]

theorem send_withPatience (hub : Multiplexer α β) (patience : Patience) (source : Nat) (value : α) :
    (hub.withPatience patience).send source value =
      ((hub.send source value).1, (hub.send source value).2.withPatience patience) := by
  by_cases hsource : source < hub.lanes.size
  · rw [send, send, dif_pos hsource,
      dif_pos (show source < (hub.withPatience patience).lanes.size from hsource)]
    by_cases hsenders : hub.lanes[source].channel.senders = 0
    · simp only [withPatience, hsenders, if_true]
    · simp only [withPatience, hsenders, if_false]
      generalize hub.lanes[source].channel.offer value = offered
      cases offered <;> rfl
  · rw [send, send, dif_neg hsource,
      dif_neg (show ¬source < (hub.withPatience patience).lanes.size from hsource)]

theorem perform_withPatience (hasToken : Bool) (hub : Multiplexer α β) (patience : Patience)
    (action : Action α) :
    Timeline.perform hasToken (hub.withPatience patience) action =
      (Timeline.perform hasToken hub action).withPatience patience := by
  cases action with
  | send source value => rw [Timeline.perform, send_withPatience, Timeline.perform]
  | close source | cancel => rfl

theorem probe_withPatience (hub : Multiplexer α β) (patience : Patience) (source left ticks : Nat) :
    (hub.withPatience patience).probe source left ticks =
      ((hub.probe source left ticks).1.withPatience patience, (hub.probe source left ticks).2) := by
  by_cases hsource : source < hub.lanes.size
  · rw [probe, probe, dif_pos hsource,
      dif_pos (show source < (hub.withPatience patience).lanes.size from hsource)]
    by_cases hclosed : hub.lanes[source].closed = true
    · simp only [withPatience, hclosed, if_true]
    · simp only [withPatience, hclosed, Bool.false_eq_true, if_false]
      generalize hub.lanes[source].channel.take = taken
      cases taken <;> rfl
  · rw [probe, probe, dif_neg hsource,
      dif_neg (show ¬source < (hub.withPatience patience).lanes.size from hsource)]

/-- No sweep depends on the patience. -/
theorem sweep_withPatience (hub : Multiplexer α β) (patience : Patience) (ticks left : Nat) :
    (hub.withPatience patience).sweep ticks left =
      ((hub.sweep ticks left).1.withPatience patience, (hub.sweep ticks left).2) := by
  induction left generalizing hub with
  | zero => rfl
  | succ left ih =>
      rw [sweep_succ, sweep_succ, probe_withPatience]
      dsimp only [withPatience]
      generalize hub.probe _ left ticks = probed
      obtain ⟨found, stands⟩ := probed
      cases stands with
      | probing more later => exact ih found
      | sleeping slept | returned item? => rfl

/-- What a producer does leaves the marks of the lanes as they are. -/
theorem perform_isExhausted (hasToken : Bool) (hub : Multiplexer α β) (action : Action α) :
    (Timeline.perform hasToken hub action).isExhausted = hub.isExhausted := by
  apply isExhausted_of_marks
  cases action with
  | send source value =>
      rw [Timeline.perform]
      rcases send_cases hub source value with ⟨-, hsame⟩ | ⟨hsource, -, hsent⟩
      · rw [hsame]
      · rw [hsent]
        exact map_set_of_eq hsource rfl
  | close source =>
      dsimp only [Timeline.perform, dropSender]
      apply map_modify_of_eq
      exact fun _ => rfl
  | cancel => rfl

/-- What happens during a pause does not depend on the patience, and no lane is found closed in it. -/
structure Surroundings.Blind (surroundings : Surroundings σ α β) : Prop where
  tick : ∀ hub around patience, surroundings.tick (hub.withPatience patience) around =
    ((surroundings.tick hub around).1.withPatience patience, (surroundings.tick hub around).2)
  served : ∀ hub around patience, surroundings.served (hub.withPatience patience) around =
    ((surroundings.served hub around).1.withPatience patience, (surroundings.served hub around).2)
  isExhausted : ∀ hub around, (surroundings.tick hub around).1.isExhausted = hub.isExhausted

end Multiplexer

section Producers

open Multiplexer

variable (hasToken : Bool) (act : Array (Channel α) → σ → List (Action α) × σ)
  (hub : Multiplexer α β) (around : σ)

theorem Arrivals.pause_withPatience (patience : Patience) :
    pause hasToken act (hub.withPatience patience) around =
    ((pause hasToken act hub around).1.withPatience patience, (pause hasToken act hub around).2) := by
  have hperform (actions : List (Action α)) (hub : Multiplexer α β) :
      actions.foldl (Timeline.perform hasToken) (hub.withPatience patience) =
        (actions.foldl (Timeline.perform hasToken) hub).withPatience patience := by
    induction actions generalizing hub with
    | nil => rfl
    | cons action actions ih => rw [List.foldl_cons, perform_withPatience, ih, List.foldl_cons]
  exact Prod.ext (hperform _ hub) rfl

theorem Arrivals.pause_isExhausted :
    (pause hasToken act hub around).1.isExhausted = hub.isExhausted := by
  have hperform (actions : List (Action α)) (hub : Multiplexer α β) :
      (actions.foldl (Timeline.perform hasToken) hub).isExhausted = hub.isExhausted := by
    induction actions generalizing hub with
    | nil => rfl
    | cons action actions ih => rw [List.foldl_cons, ih, perform_isExhausted]
  exact hperform _ hub

theorem Arrivals.surroundings_blind (arrivals : Arrivals σ α) :
    (arrivals.surroundings hasToken : Surroundings σ α β).Blind where
  tick hub around patience := pause_withPatience hasToken arrivals.tick hub around patience
  served hub around patience := pause_withPatience hasToken arrivals.served hub around patience
  isExhausted hub around := pause_isExhausted hasToken arrivals.tick hub around

end Producers

namespace Multiplexer

variable {hub after last : Multiplexer α β} {patience more : Patience}
  {surroundings : Surroundings σ α β} {around later final : σ} {reception : Reception β}
  {ticks granted : Nat} {items others : List (Delivery β)}

/-- A sweep is the end of its call, or the call sleeps after it. -/
theorem sweep_cases (hub : Multiplexer α β) (ticks left : Nat) :
    (∃ found item?, hub.sweep ticks left = (found, .returned item?)) ∨
      ∃ found, hub.sweep ticks left = (found, .sleeping ticks) := by
  induction left generalizing hub with
  | zero =>
      rw [sweep, advance]
      split
      · exact .inl ⟨hub, none, rfl⟩
      · exact .inr ⟨hub, rfl⟩
  | succ left ih =>
      rcases sweep_succ_cases hub ticks left with ⟨-, hgoes⟩ | ⟨item, hreturned, hends⟩
      · rw [hgoes]
        exact ih _
      · exact .inl ⟨_, some item, hends.trans (Prod.ext rfl hreturned)⟩

theorem sweep_patience {found : Multiplexer α β} {left : Nat} {turn : Turn β}
    (hsweep : hub.sweep ticks left = (found, turn)) : found.patience = hub.patience := by
  have hsame := sweep_withPatience hub hub.patience ticks left
  rw [withPatience_self, hsweep] at hsame
  exact congrArg (fun swept => swept.1.patience) hsame

theorem advance_sleeping_patience (hub : Multiplexer α β) (ticks : Nat) :
    (hub.advance (.sleeping ticks)).1.patience = hub.patience := by
  rw [advance_sleeping]
  split <;> rfl

/-- After a tick the more patient reader does as the other one, unless that one gives up. -/
theorem advance_sleeping_withPatience (hub : Multiplexer α β) (ticks : Nat)
    (hmore : hub.patience.goesOn ticks = true → more.goesOn ticks = true) :
    (hub.withPatience more).advance (.sleeping ticks) =
        ((hub.advance (.sleeping ticks)).1.withPatience more, (hub.advance (.sleeping ticks)).2) ∨
      (hub.advance (.sleeping ticks)).2 = .returned none ∧
        more.goesOn ticks = true ∧ hub.patience.goesOn ticks = false := by
  have hcancelled : (hub.withPatience more).cancelled = hub.cancelled := rfl
  have hpatience : (hub.withPatience more).patience = more := rfl
  rw [advance_sleeping, advance_sleeping, hcancelled, hpatience]
  cases hub.cancelled with
  | true => exact .inl rfl
  | false =>
      cases hgoes : hub.patience.goesOn ticks with
      | true =>
          rw [hmore hgoes]
          exact .inl rfl
      | false =>
          cases more.goesOn ticks with
          | true => exact .inr ⟨rfl, rfl, rfl⟩
          | false => exact .inl rfl

theorem goesOn_of_awake {left slept : Nat}
    (hagain : (hub.advance (.sleeping ticks)).2 = .probing left slept) :
    hub.patience.goesOn ticks = true := by
  rw [advance_sleeping] at hagain
  cases hgoes : hub.patience.goesOn ticks with
  | true => rfl
  | false =>
      rw [hgoes] at hagain
      cases hcancelled : hub.cancelled <;> rw [hcancelled] at hagain <;> cases hagain

theorem Surroundings.Blind.tick_patience (hblind : surroundings.Blind) (hub : Multiplexer α β)
    (around : σ) :
    (surroundings.tick hub around).1.patience = hub.patience :=
  congrArg (fun ticked => ticked.1.patience) (hblind.tick hub around hub.patience)

theorem Surroundings.Blind.served_patience (hblind : surroundings.Blind) (hub : Multiplexer α β)
    (around : σ) :
    (surroundings.served hub around).1.patience = hub.patience :=
  congrArg (fun served => served.1.patience) (hblind.served hub around hub.patience)

/-- One call made by two readers. The call of the more patient one ends alike, unless the other one
has given up after a tick after which it itself goes on; and something could still come then. -/
theorem next_withPatience (hblind : surroundings.Blind) (hub : Multiplexer α β) (around : σ)
    (ticks granted : Nat)
    (hmore : ∀ slept, hub.patience.goesOn slept = true → more.goesOn slept = true)
    (hnext : hub.next surroundings around ticks granted = (reception, after, later)) :
    (hub.withPatience more).next surroundings around ticks granted =
      (reception, after.withPatience more, later) ∨ reception = .ended ∧ after.isExhausted = false ∧
        ∃ slept, more.goesOn slept = true ∧ hub.patience.goesOn slept = false := by
  -- both have swept alike, so only the end of the tick can tell them apart
  have hswept := sweep_withPatience hub more ticks hub.lanes.size
  rcases sweep_cases hub ticks hub.lanes.size with ⟨found, item?, hsweep⟩ | ⟨found, hsweep⟩
  · rw [hsweep] at hswept
    rw [next_of_returned hsweep] at hnext
    cases hnext
    exact .inl (next_of_returned hswept)
  · rw [hsweep] at hswept
    cases granted with
    | zero =>
        rw [next_of_asleep hsweep] at hnext
        cases hnext
        exact .inl (next_of_asleep hswept)
    | succ granted =>
        have hticked := hblind.tick found around more
        have hkept : (surroundings.tick found around).1.patience = hub.patience :=
          (hblind.tick_patience found around).trans (sweep_patience hsweep)
        have hmoved :=
          advance_sleeping_withPatience (surroundings.tick found around).1 ticks (hkept ▸ hmore ticks)
        have hturn := advance_sleeping_cases (surroundings.tick found around).1 ticks
        rcases hmoved with hsame | ⟨hover, hgoes, hgives⟩
        · rcases hturn with hover | hagain
          · rw [next_of_ended hsweep hover] at hnext
            cases hnext
            rw [next_of_ended hswept (by rw [hticked, hsame, hover]), hticked, hsame]
            exact .inl rfl
          · rw [next_of_awake hsweep hagain] at hnext
            rw [next_of_awake hswept (by rw [hticked, hsame, hagain]), hticked, hsame, ← hkept,
              ← advance_sleeping_patience _ ticks]
            refine next_withPatience hblind _ _ _ granted ?_ hnext
            rwa [advance_sleeping_patience, hkept]
        · rw [next_of_ended hsweep hover] at hnext
          cases hnext
          refine .inr ⟨rfl, ?_, ticks, hgoes, hkept ▸ hgives⟩
          rw [isExhausted, advance_sleeping_lanes]
          exact (hblind.isExhausted found around).trans (not_exhausted_of_sweep hsweep)

theorem next_patience (hblind : surroundings.Blind)
    (hnext : hub.next surroundings around ticks granted = (reception, after, later)) :
    after.patience = hub.patience := by
  rcases next_withPatience hblind hub around ticks granted (fun _ hgoes => hgoes) hnext with
    hsame | ⟨-, -, slept, hgoes, hgives⟩
  · rw [withPatience_self, hnext] at hsame
    exact congrArg (fun called => called.2.1.patience) hsame
  · rw [hgoes] at hgives
    cases hgives

/-- A call that has ended does not use the ticks that it was granted beyond its own. -/
theorem next_of_le (hub : Multiplexer α β) (around : σ) (ticks granted : Nat) {allowed : Nat}
    (hgranted : granted ≤ allowed) (hawake : ∀ slept, reception ≠ .asleep slept)
    (hnext : hub.next surroundings around ticks granted = (reception, after, later)) :
    hub.next surroundings around ticks allowed = (reception, after, later) := by
  rcases sweep_cases hub ticks hub.lanes.size with ⟨found, item?, hsweep⟩ | ⟨found, hsweep⟩
  · rw [next_of_returned hsweep] at hnext ⊢
    exact hnext
  · cases granted with
    | zero =>
        rw [next_of_asleep hsweep] at hnext
        cases hnext
        exact absurd rfl (hawake ticks)
    | succ granted =>
        obtain ⟨allowed, rfl⟩ := Nat.exists_eq_add_of_le' (Nat.one_le_of_lt hgranted)
        rcases advance_sleeping_cases (surroundings.tick found around).1 ticks with hover | hagain
        · rw [next_of_ended hsweep hover] at hnext ⊢
          exact hnext
        · rw [next_of_awake hsweep hagain] at hnext ⊢
          exact next_of_le _ _ _ granted (Nat.le_of_succ_le_succ hgranted) hawake hnext

/-- A call ends in one way only. -/
theorem next_unique {allowed : Nat} {other : Reception β} {found : Multiplexer α β} {sofar : σ}
    (hnext : hub.next surroundings around ticks granted = (reception, after, later))
    (hother : hub.next surroundings around ticks allowed = (other, found, sofar))
    (hawake : ∀ slept, reception ≠ .asleep slept) (hotherAwake : ∀ slept, other ≠ .asleep slept) :
    (reception, after, later) = (other, found, sofar) :=
  (next_of_le hub around ticks granted (Nat.le_max_left granted allowed) hawake hnext).symm.trans
    (next_of_le hub around ticks allowed (Nat.le_max_right granted allowed) hotherAwake hother)

/-- A reader that retries so many times is not left asleep. -/
theorem next_of_retry (hblind : surroundings.Blind) (hub : Multiplexer α β) (around : σ)
    (ticks granted : Nat) {limit : Nat} (hpatience : hub.patience = .retry limit)
    (hgranted : limit - ticks < granted) (slept : Nat) :
    (hub.next surroundings around ticks granted).1 ≠ .asleep slept := by
  rcases sweep_cases hub ticks hub.lanes.size with ⟨found, item?, hsweep⟩ | ⟨found, hsweep⟩
  · rw [next_of_returned hsweep]
    cases item? <;> exact nofun
  · obtain ⟨granted, rfl⟩ := Nat.exists_eq_add_of_le' (Nat.one_le_of_lt hgranted)
    have hkept : (surroundings.tick found around).1.patience = .retry limit :=
      ((hblind.tick_patience found around).trans (sweep_patience hsweep)).trans hpatience
    rcases advance_sleeping_cases (surroundings.tick found around).1 ticks with hover | hagain
    · rw [next_of_ended hsweep hover]
      exact nofun
    · rw [next_of_awake hsweep hagain]
      have hgoes := goesOn_of_awake hagain
      rw [hkept, Patience.goesOn, decide_eq_true_eq] at hgoes
      exact next_of_retry hblind _ _ _ granted ((advance_sleeping_patience _ _).trans hkept)
        (by omega) slept

/-- Of two runs from one moment on, the one that has ended is the longer one. -/
theorem Delivers.initial (h : Delivers surroundings hub around items after later)
    (hothers : Delivers surroundings hub around others last final) {ended : Multiplexer α β} {sofar : σ}
    (hended : last.next surroundings final 0 granted = (.ended, ended, sofar)) : items <+: others := by
  induction h generalizing others with
  | nil => exact List.nil_prefix
  | cons hcall hrest ih =>
      cases hothers with
      | nil =>
          have hsame := next_unique hcall hended nofun nofun
          cases hsame
      | cons hother hmore =>
          have hsame := next_unique hcall hother nofun nofun
          cases hsame
          exact List.cons_prefix_cons.2 ⟨rfl, ih hmore⟩

theorem Delivers.withPatience (hblind : surroundings.Blind)
    (h : Delivers surroundings hub around items last final) {more : Patience}
    (hmore : ∀ slept, hub.patience.goesOn slept = true → more.goesOn slept = true) :
    Delivers surroundings (hub.withPatience more) around items (last.withPatience more) final := by
  induction h with
  | nil => exact .nil
  | cons hcall hrest ih =>
      rcases next_withPatience hblind _ _ _ _ hmore hcall with hsame | ⟨hended, -⟩
      · refine .cons hsame ?_
        rw [hblind.served]
        apply ih
        rwa [hblind.served_patience, next_patience hblind hcall]
      · cases hended

theorem Delivers.patience_eq (hblind : surroundings.Blind)
    (h : Delivers surroundings hub around items last final) :
    last.patience = hub.patience := by
  induction h with
  | nil => rfl
  | cons hcall hrest ih => rw [ih, hblind.served_patience, next_patience hblind hcall]

/-- What is collected ends with the first call, or goes on after it. -/
theorem collect_cases {allowed : Multiplexer α β → σ → Nat} {start out : Array (Delivery β)}
    {values : Nat}
    (h : hub.collect surroundings allowed around start values = some (out, last, final)) :
    out = start ∧ hub.next surroundings around 0 (allowed hub around) = (.ended, last, final) ∨
      ∃ item after later fewer, values = fewer + 1 ∧
        hub.next surroundings around 0 (allowed hub around) = (.item item, after, later) ∧
        (surroundings.served after later).1.collect surroundings allowed
          (surroundings.served after later).2
          (start.push item) fewer = some (out, last, final) := by
  cases hcall : hub.next surroundings around 0 (allowed hub around) with
  | mk reception state =>
      obtain ⟨after, later⟩ := state
      cases reception with
      | ended =>
          rw [collect_of_ended hcall] at h
          cases h
          exact .inl ⟨rfl, rfl⟩
      | asleep slept =>
          rw [collect.eq_def, hcall] at h
          cases h
      | item item =>
          cases values with
          | zero =>
              rw [collect.eq_def, hcall] at h
              cases h
          | succ fewer =>
              rw [collect_of_item hcall] at h
              exact .inr ⟨item, after, later, fewer, rfl, rfl, h⟩

theorem delivers_of_collect {allowed : Multiplexer α β → σ → Nat} {start out : Array (Delivery β)}
    {values : Nat}
    (h : hub.collect surroundings allowed around start values = some (out, last, final)) :
    ∃ items after later granted, out = start ++ items.toArray ∧
      Delivers surroundings hub around items after later ∧
      after.next surroundings later 0 granted = (.ended, last, final) := by
  induction values generalizing hub around start with
  | zero =>
      obtain ⟨rfl, hcall⟩ | ⟨_, _, _, _, hvalues, -⟩ := collect_cases h
      · exact ⟨[], hub, around, _, Array.append_empty.symm, .nil, hcall⟩
      · cases hvalues
  | succ values ih =>
      obtain ⟨rfl, hcall⟩ | ⟨item, _, _, _, hvalues, hcall, hrest⟩ := collect_cases h
      · exact ⟨[], hub, around, _, Array.append_empty.symm, .nil, hcall⟩
      · cases hvalues
        obtain ⟨items, after, later, granted, rfl, hdelivers, hended⟩ := ih hrest
        refine ⟨item :: items, after, later, granted, ?_, .cons hcall hdelivers, hended⟩
        simp

/-- What is handed on until a call ends can be collected, if every call may sleep long enough. -/
theorem collect_of_delivers (h : Delivers surroundings hub around items after later)
    (hended : after.next surroundings later 0 granted = (.ended, last, final)) :
    ∃ bound, ∀ allowed, bound ≤ allowed → ∀ start,
      hub.collect surroundings (fun _ _ => allowed) around start items.length =
        some (start ++ items.toArray, last, final) := by
  induction h with
  | nil =>
      refine ⟨granted, fun allowed hallowed start => ?_⟩
      rw [collect_of_ended (next_of_le _ _ _ _ hallowed nofun hended), Array.append_empty]
  | @cons _ _ _ _ _ _ used _ _ hcall hrest ih =>
      obtain ⟨bound, hbound⟩ := ih hended
      refine ⟨max used bound, fun allowed hallowed start => ?_⟩
      obtain ⟨hused, hle⟩ := Nat.max_le.1 hallowed
      rw [List.length_cons, collect_of_item (next_of_le _ _ _ _ hused nofun hcall), hbound allowed hle]
      simp

theorem collects_iff : Collects surroundings hub around items last ↔ ∃ after later granted final,
    Delivers surroundings hub around items after later ∧
      after.next surroundings later 0 granted = (.ended, last, final) := by
  constructor
  · rintro ⟨allowed, values, final, hcollect⟩
    obtain ⟨others, after, later, granted, hitems, hdelivers, hended⟩ := delivers_of_collect hcollect
    rw [Array.empty_append] at hitems
    obtain rfl : items = others := congrArg Array.toList hitems
    exact ⟨after, later, granted, final, hdelivers, hended⟩
  · rintro ⟨after, later, granted, final, hdelivers, hended⟩
    obtain ⟨bound, hbound⟩ := collect_of_delivers hdelivers hended
    refine ⟨_, _, final, (hbound bound (Nat.le_refl bound) #[]).trans ?_⟩
    rw [Array.empty_append]

/-- What is collected is collected also by the more patient reader, unless the other one has given
up while something could still come. -/
theorem Collects.withPatience (hblind : surroundings.Blind)
    (h : Collects surroundings hub around items last) {more : Patience}
    (hmore : ∀ slept, hub.patience.goesOn slept = true → more.goesOn slept = true) :
    Collects surroundings (hub.withPatience more) around items (last.withPatience more) ∨
      last.isExhausted = false ∧ ∃ slept, more.goesOn slept = true ∧
        hub.patience.goesOn slept = false := by
  obtain ⟨after, later, granted, final, hdelivers, hended⟩ := collects_iff.1 h
  have hkept := hdelivers.patience_eq hblind
  rcases next_withPatience hblind _ _ _ _ (hkept ▸ hmore) hended with hsame | ⟨-, hopen, hgives⟩
  · exact .inl (collects_iff.2 ⟨_, _, _, _, hdelivers.withPatience hblind hmore, hsame⟩)
  · exact .inr ⟨hopen, hkept ▸ hgives⟩

theorem Collects.withSame (hblind : surroundings.Blind) {one other : Patience}
    (h : Collects surroundings (hub.withPatience one) around items last)
    (hsame : ∀ slept, one.goesOn slept = other.goesOn slept) :
    Collects surroundings (hub.withPatience other) around items (last.withPatience other) := by
  rcases h.withPatience hblind fun slept hgoes => (hsame slept).symm.trans hgoes with
    halike | ⟨-, slept, hgoes, hgives⟩
  · exact halike
  · exact absurd ((hgives.symm.trans (hsame slept)).trans hgoes) nofun

/-- Two beginnings of one run are one longer than the other. -/
theorem Delivers.comparable (h : Delivers surroundings hub around items after later)
    (hothers : Delivers surroundings hub around others last final) :
    items <+: others ∨ others <+: items := by
  induction h generalizing others with
  | nil => exact .inl List.nil_prefix
  | cons hcall hrest ih =>
      cases hothers with
      | nil => exact .inr List.nil_prefix
      | cons hother hmore =>
          have hsame := next_unique hcall hother nofun nofun
          cases hsame
          rw [List.cons_prefix_cons, List.cons_prefix_cons]
          exact (ih hmore).imp (⟨rfl, ·⟩) (⟨rfl, ·⟩)

/-- A reader that retries so many times is handed on value after value, or its run ends. -/
theorem collects_or_delivers (hblind : surroundings.Blind) {limit : Nat}
    (hpatience : hub.patience = .retry limit) (around : σ) (count : Nat) :
    (∃ items last, Collects surroundings hub around items last) ∨
      ∃ items last final, Delivers surroundings hub around items last final ∧ items.length = count := by
  induction count generalizing hub around with
  | zero => exact .inr ⟨[], hub, around, .nil, rfl⟩
  | succ count ih =>
      have hanswers := next_of_retry hblind hub around 0 (limit + 1) hpatience (Nat.lt_succ_self _)
      cases hcall : hub.next surroundings around 0 (limit + 1) with
      | mk reception state =>
          obtain ⟨after, later⟩ := state
          rw [hcall] at hanswers
          cases reception with
          | asleep slept => exact absurd rfl (hanswers slept)
          | ended => exact .inl ⟨[], after, collects_iff.2 ⟨hub, around, _, later, .nil, hcall⟩⟩
          | item item =>
              have hkept : (surroundings.served after later).1.patience = .retry limit := by
                rw [hblind.served_patience, next_patience hblind hcall, hpatience]
              rcases ih hkept (surroundings.served after later).2 with
                ⟨items, last, hcollects⟩ | ⟨items, last, final, hdelivers, hlength⟩
              · obtain ⟨_, _, _, _, hdelivers, hended⟩ := collects_iff.1 hcollects
                exact .inl ⟨item :: items, last,
                  collects_iff.2 ⟨_, _, _, _, .cons hcall hdelivers, hended⟩⟩
              · exact .inr ⟨item :: items, last, final, .cons hcall hdelivers,
                  congrArg Nat.succ hlength⟩

/-- What two readers receive of which the second one is more patient. They read the same multiplexer
from the same moment on. -/
structure Extends (surroundings : Surroundings σ α β) (hub : Multiplexer α β) (around : σ)
    (less more : Patience) :
    Prop where
  /-- What is handed on to the first one is handed on to the second one, and counted alike. -/
  delivers : ∀ items last final, Delivers surroundings (hub.withPatience less) around items last final →
    Delivers surroundings (hub.withPatience more) around items (last.withPatience more) final ∧
      (last.withPatience more).tally = last.tally
  /-- With all that the first one collects begins what the second one is handed on, whether or not
  that ends. -/
  begins : ∀ items last, Collects surroundings (hub.withPatience less) around items last →
    (∃ after later, Delivers surroundings (hub.withPatience more) around items after later) ∧
      ∀ others after later, Delivers surroundings (hub.withPatience more) around others after later →
        items <+: others ∨ others <+: items
  /-- If it ends, the second one has collected at least as much. -/
  initial : ∀ items others last ended, Collects surroundings (hub.withPatience less) around items last →
    Collects surroundings (hub.withPatience more) around others ended → items <+: others
  /-- It is the same if the first run ends because nothing can come any more. -/
  exhausted : ∀ items last, Collects surroundings (hub.withPatience less) around items last →
    last.isExhausted = true →
      Collects surroundings (hub.withPatience more) around items (last.withPatience more) ∧
      (last.withPatience more).tally = last.tally

/-- Two readers that receive the same, and count the same. -/
structure Agrees (surroundings : Surroundings σ α β) (hub : Multiplexer α β) (around : σ)
    (one other : Patience) :
    Prop where
  collects : ∀ items tally,
    (∃ last, Collects surroundings (hub.withPatience one) around items last ∧ last.tally = tally) ↔
      ∃ last, Collects surroundings (hub.withPatience other) around items last ∧ last.tally = tally
  delivers : ∀ items tally,
    (∃ last final, Delivers surroundings (hub.withPatience one) around items last final ∧
      last.tally = tally) ↔
      ∃ last final, Delivers surroundings (hub.withPatience other) around items last final ∧
        last.tally = tally

theorem Extends.ofGoesOn (hblind : surroundings.Blind) (hub : Multiplexer α β) (around : σ)
    {less : Patience} (hmore : ∀ slept, less.goesOn slept = true → more.goesOn slept = true) :
    Extends surroundings hub around less more where
  delivers items last final hdelivers := by
    have hothers := hdelivers.withPatience hblind hmore
    exact ⟨hothers, rfl⟩
  begins items last hcollects := by
    obtain ⟨after, later, -, -, hdelivers, -⟩ := collects_iff.1 hcollects
    have hothers := hdelivers.withPatience hblind hmore
    exact ⟨⟨_, later, hothers⟩, fun _ _ _ h => hothers.comparable h⟩
  initial items others last ended hcollects hothers := by
    obtain ⟨after, later, -, -, hdelivers, -⟩ := collects_iff.1 hcollects
    obtain ⟨_, _, _, _, hlonger, hended⟩ := collects_iff.1 hothers
    exact (hdelivers.withPatience hblind hmore).initial hlonger hended
  exhausted items last hcollects hexhausted := by
    rcases hcollects.withPatience hblind hmore with hsame | ⟨hopen, -⟩
    · exact ⟨hsame, rfl⟩
    · rw [hopen] at hexhausted
      cases hexhausted

/-- Readers that go on after the same ticks do everything alike. -/
theorem Agrees.ofGoesOn (hblind : surroundings.Blind) (hub : Multiplexer α β) (around : σ)
    {one other : Patience} (hsame : ∀ slept, one.goesOn slept = other.goesOn slept) :
    Agrees surroundings hub around one other where
  collects items tally := by
    constructor
    · rintro ⟨last, hcollects, htally⟩
      exact ⟨_, hcollects.withSame hblind hsame, htally⟩
    · rintro ⟨last, hcollects, htally⟩
      exact ⟨_, hcollects.withSame hblind fun slept => (hsame slept).symm, htally⟩
  delivers items tally := by
    constructor
    · rintro ⟨last, final, hdelivers, htally⟩
      have halike := hdelivers.withPatience hblind fun slept hgoes => (hsame slept).symm.trans hgoes
      exact ⟨_, final, halike, htally⟩
    · rintro ⟨last, final, hdelivers, htally⟩
      have halike := hdelivers.withPatience hblind fun slept hgoes => (hsame slept).trans hgoes
      exact ⟨_, final, halike, htally⟩

/-- **Patience only extends what is received.** Let the producers do whatever they like in the
pauses of the loop, which are the deliveries and the idle ticks; in the multiplexer is what was sent
before. Who retries more often, or always, receives at least the same. To give up at once is not to
retry. Who retries so many times comes to an end or is handed on as many values as there may be
asked for. -/
theorem patience_extends (arrivals : Arrivals σ α) (hasToken : Bool) (hub : Multiplexer α β)
    (around : σ) {limit allowed : Nat} (hlimit : limit ≤ allowed) :
    Extends (arrivals.surroundings hasToken) hub around (.retry limit) (.retry allowed) ∧
      Extends (arrivals.surroundings hasToken) hub around (.retry limit) .forever ∧
      Agrees (arrivals.surroundings hasToken) hub around .exit (.retry 0) ∧
      ∀ count, (∃ items last,
          Collects (arrivals.surroundings hasToken) (hub.withPatience (.retry limit)) around
            items last) ∨
        ∃ items last final,
          Delivers (arrivals.surroundings hasToken) (hub.withPatience (.retry limit)) around items
            last final ∧ items.length = count := by
  have hblind := arrivals.surroundings_blind (β := β) hasToken
  refine ⟨.ofGoesOn hblind hub around fun slept hgoes => ?_, .ofGoesOn hblind hub around fun _ _ => rfl,
    .ofGoesOn hblind hub around fun slept => rfl, collects_or_delivers hblind rfl around⟩
  rw [Patience.goesOn, decide_eq_true_eq] at hgoes ⊢
  exact Nat.lt_of_lt_of_le hgoes hlimit

/-- A value is sent in the second pause. -/
def lateValue : Arrivals Nat Nat :=
  .ofPauses fun pause => if pause = 1 then [.send 0 6] else []

/-- A channel to which a value was sent. -/
def oneValue : Multiplexer Nat Nat :=
  Timeline.perform false (Traffic.ofPorts [⟨2, 1, fun _ value => value⟩] .exit).hub (.send 0 5)

/-- The second pause is an idle tick, after which a reader that does not retry gives up. -/
theorem patience_extends_by_late_value : ∃ last ended : Multiplexer Nat Nat,
    Collects (lateValue.surroundings false) (oneValue.withPatience (.retry 0)) 0 [⟨0, 5⟩] last ∧
      Collects (lateValue.surroundings false) (oneValue.withPatience (.retry 1)) 0
        [⟨0, 5⟩, ⟨0, 6⟩] ended ∧
      [Delivery.mk 0 5] <+: [⟨0, 5⟩, ⟨0, 6⟩] ∧
      ∃ after later,
        Delivers (lateValue.surroundings false) (oneValue.withPatience .forever) 0
          [⟨0, 5⟩] after later := by
  have hruns : (((oneValue.withPatience (.retry 0)).collect (lateValue.surroundings false)
      (fun _ _ => 1) 0 #[] 2).any
      (·.1 == #[⟨0, 5⟩]) && ((oneValue.withPatience (.retry 1)).collect (lateValue.surroundings false)
        (fun _ _ => 2) 0 #[] 2).any (·.1 == #[⟨0, 5⟩, ⟨0, 6⟩])) = true := by
    decide +kernel
  obtain ⟨hshort, hlong⟩ := (Bool.and_eq_true _ _).mp hruns
  obtain ⟨⟨items, last, final⟩, hless, hitems⟩ := (Option.any_eq_true _ _).1 hshort
  obtain ⟨⟨others, ended, later⟩, hmore, hothers⟩ := (Option.any_eq_true _ _).1 hlong
  cases beq_iff_eq.1 hitems
  cases beq_iff_eq.1 hothers
  obtain ⟨hretry, hforever, -⟩ := patience_extends lateValue false oneValue 0 (Nat.zero_le 1)
  exact ⟨last, ended, ⟨_, _, _, hless⟩, ⟨_, _, _, hmore⟩, hretry.initial _ _ _ _ ⟨_, _, _, hless⟩
    ⟨_, _, _, hmore⟩, (hforever.begins _ _ ⟨_, _, _, hless⟩).1⟩

end Multiplexer

end ParallelFilter
