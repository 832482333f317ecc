import Mathlib.Data.List.Basic

/-! Runs of a machine that takes one event after another, as long as it offers each of them. What
every step keeps, the whole run keeps, and a run can be taken up where another ends. -/

namespace ParallelFilter

variable {α β : Type} {step : α → β → Option α} {state next last : α} {events others : List β}

theorem foldlM_cons_eq_some {event : β} : (event :: events).foldlM step state = some last ↔
    ∃ next, step state event = some next ∧ events.foldlM step next = some last := by
  rw [List.foldlM_cons, Option.bind_eq_bind, Option.bind_eq_some_iff]

theorem foldlM_induction {P : α → Prop}
    (hstep : ∀ state event next, event ∈ events → P state → step state event = some next → P next)
    (h : P state) (hrun : events.foldlM step state = some last) : P last := by
  induction events generalizing state with
  | nil =>
      cases hrun
      exact h
  | cons event events ih =>
      obtain ⟨next, hnext, hrest⟩ := foldlM_cons_eq_some.1 hrun
      refine ih (fun state other next hmem => ?_) (hstep _ _ _ List.mem_cons_self h hnext) hrest
      exact hstep state other next (List.mem_cons_of_mem _ hmem)

theorem foldlM_trans (h : events.foldlM step state = some next)
    (hmore : others.foldlM step next = some last) :
    (events ++ others).foldlM step state = some last := by
  rw [List.foldlM_append, h]
  exact hmore

theorem optionRel_imp {γ : Type} {R S : α → γ → Prop}
    (himp : ∀ item counterpart, R item counterpart → S item counterpart)
    {item? : Option α} {counterpart? : Option γ} (h : Option.Rel R item? counterpart?) :
    Option.Rel S item? counterpart? := by
  cases h with
  | none => exact .none
  | some h => exact .some (himp _ _ h)

/-- Two machines that take each event alike take all of them alike. -/
theorem foldlM_rel {γ : Type} {R : α → γ → Prop} {other : γ → β → Option γ} {counterpart : γ}
    (hstep : ∀ state counterpart event, R state counterpart →
      Option.Rel R (step state event) (other counterpart event))
    (h : R state counterpart) :
    Option.Rel R (events.foldlM step state) (events.foldlM other counterpart) := by
  induction events generalizing state counterpart with
  | nil => exact .some h
  | cons event events ih =>
      have hnext := hstep state counterpart event h
      rw [List.foldlM_cons, List.foldlM_cons]
      generalize step state event = next?, other counterpart event = also? at hnext ⊢
      cases hnext with
      | none => exact .none
      | some hnext => exact ih hnext

/-- Some events, one after another, lead from the one state to the other. -/
def Reaches (step : α → β → Option α) (state next : α) : Prop :=
  ∃ events : List β, events.foldlM step state = some next

namespace Reaches

theorem refl (step : α → β → Option α) (state : α) : Reaches step state state :=
  ⟨[], rfl⟩

theorem ofStep (event : β) (h : step state event = some next) : Reaches step state next :=
  ⟨[event], by rw [List.foldlM_cons, h]; rfl⟩

theorem trans (h : Reaches step state next) (hmore : Reaches step next last) :
    Reaches step state last := by
  obtain ⟨events, hevents⟩ := h
  obtain ⟨others, hothers⟩ := hmore
  exact ⟨events ++ others, foldlM_trans hevents hothers⟩

end Reaches

end ParallelFilter
