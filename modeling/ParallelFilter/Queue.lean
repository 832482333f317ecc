/-! First-in, first-out queues that know their size. The list `toList`, oldest element first, is what a
queue means; it is kept as a front to take from and a reversed back to add to. -/

namespace ParallelFilter

structure Queue (α : Type) where
  front : List α
  back : List α
  size : Nat
  size_eq : size = front.length + back.length

namespace Queue

variable {α : Type}

def empty : Queue α := ⟨[], [], 0, rfl⟩

/-- The elements, oldest first. -/
def toList (queue : Queue α) : List α :=
  queue.front ++ queue.back.reverse

def push : Queue α → α → Queue α
  | ⟨front, back, size, size_eq⟩, value =>
    ⟨front, value :: back, size + 1, by simp [size_eq, Nat.add_assoc]⟩

/-- The oldest element and the queue without it. -/
def pop? : Queue α → Option (α × Queue α)
  | ⟨value :: front, back, size, size_eq⟩ =>
    some (value, ⟨front, back, size - 1, by simp at size_eq; omega⟩)
  | ⟨[], back, size, size_eq⟩ =>
    match h : back.reverse with
    | [] => none
    | value :: front =>
      some (value, ⟨front, [], size - 1, by
        have := congrArg List.length h
        simp at this size_eq
        simp; omega⟩)

theorem size_eq_length (queue : Queue α) : queue.size = queue.toList.length := by
  simp [toList, queue.size_eq]

@[simp] theorem toList_empty : (empty : Queue α).toList = [] := rfl

@[simp] theorem toList_push (queue : Queue α) (value : α) :
    (queue.push value).toList = queue.toList ++ [value] := by
  simp [push, toList]

theorem pop?_eq_none_iff {queue : Queue α} : queue.pop? = none ↔ queue.toList = [] := by
  unfold pop?
  split
  · simp [toList]
  · split <;> rename_i h <;> simp [toList, h]

theorem toList_of_pop? {queue rest : Queue α} {value : α} (h : queue.pop? = some (value, rest)) :
    queue.toList = value :: rest.toList := by
  unfold pop? at h
  split at h
  · cases h; rfl
  · split at h
    · cases h
    · rename_i hback
      cases h
      simp [toList, hback]

theorem eq_empty {queue : Queue α} (h : queue.toList = []) : queue = .empty := by
  obtain ⟨front, back, size, size_eq⟩ := queue
  obtain ⟨rfl, hback⟩ := List.append_eq_nil_iff.1 h
  obtain rfl := List.reverse_eq_nil_iff.1 hback
  obtain rfl : size = 0 := size_eq
  rfl

theorem pop?_of_toList {queue : Queue α} {value : α} {values : List α}
    (h : queue.toList = value :: values) :
    ∃ rest, queue.pop? = some (value, rest) ∧ rest.toList = values := by
  cases hpop : queue.pop? with
  | none =>
      rw [pop?_eq_none_iff.1 hpop] at h
      cases h
  | some popped =>
      obtain ⟨first, rest⟩ := popped
      rw [toList_of_pop? hpop] at h
      cases h
      exact ⟨rest, rfl, rfl⟩

end Queue

end ParallelFilter
