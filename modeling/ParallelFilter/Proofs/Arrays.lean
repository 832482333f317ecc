import Mathlib.Algebra.GroupWithZero.Nat
import Mathlib.Data.List.Basic

/-! What becomes of an array when one of its places is written. The workers of a pool and the lanes
of a multiplexer move one at a time, so what holds of all of them, and what is added up over all of
them, is followed by these lemmas. -/

namespace ParallelFilter

variable {α : Type} {items : Array α} {index other : Nat} {next item : α} {P : α → Prop}

theorem getElem?_set_cases (hindex : index < items.size)
    (h : (items.set index next)[other]? = some item) :
    other = index ∧ item = next ∨ index ≠ other ∧ items[other]? = some item := by
  rw [Array.getElem?_set] at h
  by_cases heq : index = other
  · rw [if_pos heq, Option.some_inj] at h
    exact .inl ⟨heq.symm, h.symm⟩
  · rw [if_neg heq] at h
    exact .inr ⟨heq, h⟩

theorem forall_mem_set (hindex : index < items.size) (hitems : ∀ item ∈ items, P item)
    (hnext : P next) :
    ∀ item ∈ items.set index next, P item := by
  intro item hitem
  rcases Array.mem_or_eq_of_mem_set hitem with hitem | rfl
  · exact hitems item hitem
  · exact hnext

/-- What holds somewhere still does if it is not lost at the place that is written. -/
theorem exists_mem_set (hindex : index < items.size) (hitems : ∃ item ∈ items, P item)
    (hnext : P items[index] → P next) : ∃ item ∈ items.set index next, P item := by
  obtain ⟨item, hitem, hP⟩ := hitems
  obtain ⟨other, hother, rfl⟩ := Array.mem_iff_getElem.1 hitem
  by_cases hsame : index = other
  · subst hsame
    exact ⟨next, Array.mem_set hindex, hnext hP⟩
  · refine ⟨_, Array.mem_of_getElem? (i := other) ?_, hP⟩
    rw [Array.getElem?_set_ne hindex hsame, Array.getElem?_eq_getElem hother]

/-- What stands before the place, at it, and after it. -/
theorem exists_toList_set (hindex : index < items.size) (next : α) : ∃ before after,
    items.toList = before ++ items[index] :: after ∧
      (items.set index next).toList = before ++ next :: after := by
  refine ⟨items.toList.take index, items.toList.drop (index + 1), ?_, ?_⟩
  · rw [← Array.getElem_toList hindex, List.getElem_cons_drop, List.take_append_drop]
  · rw [Array.toList_set, List.set_eq_take_append_cons_drop, if_pos (by rwa [Array.length_toList])]

theorem setIfInBounds_eq_self (h : items[index]? = some item) :
    items.setIfInBounds index item = items := by
  obtain ⟨hindex, rfl⟩ := Array.getElem?_eq_some_iff.1 h
  rw [Array.setIfInBounds, dif_pos hindex, Array.set_getElem_self]

theorem map_set_of_eq {β : Type} {f : α → β} (hindex : index < items.size)
    (hsame : f next = f items[index]) :
    (items.set index next).map f = items.map f := by
  obtain ⟨before, after, hsplit, hset⟩ := exists_toList_set hindex next
  rw [← Array.toList_inj, Array.toList_map, Array.toList_map, hset, hsplit, List.map_append,
    List.map_append, List.map_cons, List.map_cons, hsame]

theorem map_modify_of_eq {β : Type} {f : α → β} {change : α → α}
    (hsame : ∀ item, f (change item) = f item) (items : Array α) (index : Nat) :
    (items.modify index change).map f = items.map f := by
  apply Array.ext_getElem?
  intro other
  rw [Array.getElem?_map, Array.getElem?_map, Array.getElem?_modify]
  split
  · rw [Option.map_map]
    exact congrArg (fun read => Option.map read items[other]?) (funext hsame)
  · rfl

theorem countP_set_of_eq {p : α → Bool} (hindex : index < items.size)
    (hsame : p next = p items[index]) :
    (items.set index next).countP p = items.countP p := by
  have hle := Array.boole_getElem_le_countP (p := p) hindex
  rw [Array.countP_set, hsame]
  omega

theorem countP_set_of_lost {p : α → Bool} (hindex : index < items.size)
    (hbefore : p items[index] = true) (hafter : p next = false) :
    (items.set index next).countP p + 1 = items.countP p := by
  have hle := Array.boole_getElem_le_countP (p := p) hindex
  rw [Array.countP_set, hbefore, hafter]
  rw [hbefore] at hle
  simp only [if_true, Bool.false_eq_true, if_false] at hle ⊢
  omega

theorem countP_set_of_gained {p : α → Bool} (hindex : index < items.size)
    (hbefore : p items[index] = false) (hafter : p next = true) :
    (items.set index next).countP p = items.countP p + 1 := by
  rw [Array.countP_set, hbefore, hafter]
  rfl

theorem sum_map_set (f : α → Nat) (hindex : index < items.size) (next : α) :
    ((items.set index next).toList.map f).sum + f items[index] = (items.toList.map f).sum + f next := by
  obtain ⟨before, after, hsplit, hset⟩ := exists_toList_set hindex next
  rw [hset, hsplit]
  simp only [List.map_append, List.map_cons, List.sum_append, List.sum_cons]
  omega

/-- Two arrays of one size that are related at each place. -/
structure Pointwise {β : Type} (R : α → β → Prop) (items : Array α) (others : Array β) : Prop where
  size_eq : items.size = others.size
  getElem : ∀ (index : Nat) (hindex : index < items.size) (hother : index < others.size),
    R items[index] others[index]

namespace Pointwise

variable {β : Type} {R : α → β → Prop} {others : Array β}

theorem set (h : Pointwise R items others) (hindex : index < items.size) (hother : index < others.size)
    {counterpart : β} (hnext : R next counterpart) :
    Pointwise R (items.set index next) (others.set index counterpart) where
  size_eq := by rw [Array.size_set, Array.size_set, h.size_eq]
  getElem place hplace hcounterpart := by
    rw [Array.getElem_set, Array.getElem_set]
    split
    · exact hnext
    · rw [Array.size_set] at hplace hcounterpart
      exact h.getElem place hplace hcounterpart

theorem getElem? (h : Pointwise R items others) (index : Nat) :
    Option.Rel R items[index]? others[index]? := by
  by_cases hindex : index < items.size
  · have hother : index < others.size := h.size_eq ▸ hindex
    rw [Array.getElem?_eq_getElem hindex, Array.getElem?_eq_getElem hother]
    exact .some (h.getElem index hindex hother)
  · have hother : ¬index < others.size := h.size_eq ▸ hindex
    rw [Array.getElem?_eq_none (Nat.not_lt.1 hindex), Array.getElem?_eq_none (Nat.not_lt.1 hother)]
    exact .none

/-- What related items have in common is the same at each place. -/
theorem map_eq {γ : Type} {f : α → γ} {g : β → γ} (h : Pointwise R items others)
    (hfg : ∀ item counterpart, R item counterpart → f item = g counterpart) :
    items.map f = others.map g := by
  apply Array.ext
  · rw [Array.size_map, Array.size_map, h.size_eq]
  · intro index hindex hother
    rw [Array.getElem_map, Array.getElem_map]
    rw [Array.size_map] at hindex hother
    exact hfg _ _ (h.getElem index hindex hother)

end Pointwise

end ParallelFilter
