import ParallelFilter.Multiplexer
import Mathlib.Data.List.Basic
import Mathlib.Data.Nat.Basic

/-! The order of values that come in rounds. In each round every channel hands on the value that is
next in it, if there is one, and the channels do so one after the other. Such an order is counted
through by turns: the turn with a number is that of a certain channel in a certain round, whether
the channel has something to hand on then or not. -/

namespace ParallelFilter

variable {β : Type}

/-- The value at a place of a channel, where each channel holds so much. -/
def slot? (contents : List (List β)) (place source : Nat) : Option (Delivery β) :=
  (contents[source]?.bind fun values => values[place]?).map fun value => ⟨source, value⟩

/-- How many values there are in the channel that holds most. -/
def longest (contents : List (List β)) : Nat :=
  contents.foldr (fun values most => max values.length most) 0

/-- What the channels hold, by the places of the values, and at one place by the indices of the
channels. -/
def rounds (contents : List (List β)) : List (Delivery β) :=
  (List.range (longest contents)).flatMap fun place =>
    (List.range contents.length).filterMap (slot? contents place)

variable {contents : List (List β)} {values : List β} {size count more index place source : Nat}

theorem length_le_longest (h : values ∈ contents) : values.length ≤ longest contents := by
  induction contents with
  | nil => cases h
  | cons first others ih =>
      rcases List.mem_cons.1 h with rfl | h
      · exact Nat.le_max_left ..
      · exact Nat.le_trans (ih h) (Nat.le_max_right ..)

theorem slot?_eq_none (h : ∀ values, contents[source]? = some values → values.length ≤ place) :
    slot? contents place source = none := by
  rw [slot?, Option.map_eq_none_iff, Option.bind_eq_none_iff]
  exact fun values hvalues => List.getElem?_eq_none (h values hvalues)

theorem slot?_bySource (contents : List (List β)) (place source other : Nat) :
    ((slot? contents place other).bind fun item => if item.source = source then some item.value
      else none) =
      if other = source then contents[source]?.bind fun values => values[place]? else none := by
  rw [slot?, Option.bind_map]
  by_cases hsame : other = source
  · subst hsame
    simp only [Function.comp_def, if_true]
    exact Option.bind_fun_some _
  · simp only [Function.comp_def, if_neg hsame, Option.bind_fun_none]

/-- At each place, at most one value is from the channel. -/
theorem row_bySource (hsource : source < size) (contents : List (List β)) (place : Nat) :
    ((List.range size).filterMap (slot? contents place)).filterMap
        (fun item => if item.source = source then some item.value else none) =
      (contents[source]?.bind fun values => values[place]?).toList := by
  rw [List.filterMap_filterMap]
  simp only [slot?_bySource]
  induction size with
  | zero => exact absurd hsource (Nat.not_lt_zero _)
  | succ size ih =>
      rw [List.range_succ, List.filterMap_append]
      rcases Nat.lt_succ_iff_lt_or_eq.1 hsource with hlt | rfl
      · rw [ih hlt, List.filterMap_cons, if_neg (Nat.ne_of_gt hlt), List.filterMap_nil, List.append_nil]
      · rw [List.filterMap_eq_nil_iff.2 fun other hother =>
          if_neg (Nat.ne_of_lt (List.mem_range.1 hother)),
          List.nil_append, List.filterMap_cons, if_pos rfl]
        cases contents[source]?.bind fun values => values[place]? <;> rfl

/-- In the rounds, the values of each channel are all there, in their order. -/
theorem rounds_bySource (h : contents[source]? = some values) :
    ((rounds contents).filterMap fun item => if item.source = source then some item.value
      else none) = values := by
  have hsource : source < contents.length := (List.getElem?_eq_some_iff.1 h).1
  have htake (count : Nat) : (List.range count).flatMap (fun place => values[place]?.toList) =
      values.take count := by
    induction count with
    | zero => rfl
    | succ count ih =>
        rw [List.range_succ, List.flatMap_append, ih, List.flatMap_singleton, List.take_add_one]
  rw [rounds, List.filterMap_flatMap]
  simp only [row_bySource hsource, h, Option.bind_some]
  rw [htake, List.take_of_length_le (length_le_longest (List.mem_of_getElem? h))]

section Turns

/-- How often it was the turn of a channel, of so many, in the first turns. -/
def turns (size count index : Nat) : Nat :=
  count / size + if index < count % size then 1 else 0

theorem turns_zero (size index : Nat) : turns size 0 index = 0 := by
  rw [turns, Nat.zero_div, Nat.zero_mod, if_neg (Nat.not_lt_zero _)]

theorem turns_self (size count : Nat) : turns size count (count % size) = count / size := by
  rw [turns, if_neg (Nat.lt_irrefl _), Nat.add_zero]

theorem turns_mul_add (hsource : source < size) (place index : Nat) :
    turns size (size * place + source) index = place + if index < source then 1 else 0 := by
  rw [turns, Nat.mul_add_div (Nat.zero_lt_of_lt hsource), Nat.mul_add_mod, Nat.div_eq_of_lt hsource,
    Nat.mod_eq_of_lt hsource, Nat.add_zero]

/-- The turn that comes next is that of one channel. -/
theorem turns_succ (hindex : index < size) (count : Nat) :
    turns size (count + 1) index = turns size count index + if index = count % size then 1 else 0 := by
  have hsource := Nat.mod_lt count (Nat.zero_lt_of_lt hindex)
  have hcount := Nat.div_add_mod count size
  generalize count / size = place, count % size = source at hsource hcount
  subst hcount
  rw [turns_mul_add hsource]
  by_cases hlast : source + 1 < size
  · rw [Nat.add_assoc, turns_mul_add hlast]
    split <;> split <;> split <;> omega
  · have hwhole : size * place + source + 1 = size * (place + 1) + 0 := by
      rw [Nat.mul_succ]
      omega
    rw [hwhole, turns_mul_add (Nat.zero_lt_of_lt hindex)]
    split <;> split <;> split <;> omega

theorem turns_mono (hindex : index < size) (hle : count ≤ more) :
    turns size count index ≤ turns size more index := by
  induction hle with
  | refl => exact Nat.le_refl _
  | step _ ih => exact Nat.le_trans ih (turns_succ hindex _ ▸ Nat.le_add_right ..)

end Turns

/-- What is handed on in the first turns. -/
def handedOn (contents : List (List β)) (count : Nat) : List (Delivery β) :=
  (List.range count).filterMap fun turn => slot? contents (turn / contents.length)
    (turn % contents.length)

theorem handedOn_succ (contents : List (List β)) (count : Nat) : handedOn contents (count + 1) =
    handedOn contents count ++
      (slot? contents (count / contents.length) (count % contents.length)).toList := by
  rw [handedOn, List.range_succ, List.filterMap_append, ← handedOn, List.filterMap_cons]
  cases slot? contents (count / contents.length) (count % contents.length) <;> rfl

/-- Nothing more comes from turns in which there is nothing to hand on. -/
theorem handedOn_eq_of_none (hle : count ≤ more)
    (hnone : ∀ turn, count ≤ turn →
      slot? contents (turn / contents.length) (turn % contents.length) = none) :
    handedOn contents more = handedOn contents count := by
  induction hle with
  | refl => rfl
  | step hle ih =>
      rw [handedOn_succ, hnone _ hle, Option.toList_none, List.append_nil, ih]

/-- The first rounds are so many turns. -/
theorem handedOn_mul (contents : List (List β)) (places : Nat) :
    handedOn contents (contents.length * places) =
    (List.range places).flatMap fun place => (List.range contents.length).filterMap
      (slot? contents place) := by
  induction places with
  | zero => rfl
  | succ places ih =>
      have hround : ((List.range contents.length).map (contents.length * places + ·)).filterMap
          (fun turn => slot? contents (turn / contents.length) (turn % contents.length)) =
            (List.range contents.length).filterMap (slot? contents places) := by
        rw [List.filterMap_map]
        refine List.filterMap_congr fun source hsource => ?_
        have hlt := List.mem_range.1 hsource
        rw [Function.comp_apply, Nat.mul_add_div (Nat.zero_lt_of_lt hlt), Nat.mul_add_mod,
          Nat.div_eq_of_lt hlt, Nat.mod_eq_of_lt hlt, Nat.add_zero]
      rw [handedOn, Nat.mul_succ, List.range_add, List.filterMap_append, hround, ← handedOn, ih,
        List.range_succ, List.flatMap_append, List.flatMap_singleton]

/-- After as many turns of each channel as there are values in it, the rounds are over. -/
theorem handedOn_eq_rounds
    (hspent : ∀ source values, contents[source]? = some values →
      values.length ≤ turns contents.length count source) :
    handedOn contents count = rounds contents := by
  have hturned : handedOn contents (max count (contents.length * longest contents)) =
      handedOn contents count := by
    refine handedOn_eq_of_none (Nat.le_max_left ..) fun turn hturn =>
      slot?_eq_none fun values hvalues => ?_
    rw [← turns_self]
    exact Nat.le_trans (hspent _ _ hvalues) (turns_mono (List.getElem?_eq_some_iff.1 hvalues).1 hturn)
  have hwhole : handedOn contents (max count (contents.length * longest contents)) =
      handedOn contents (contents.length * longest contents) := by
    refine handedOn_eq_of_none (Nat.le_max_right ..) fun turn hturn =>
      slot?_eq_none fun values hvalues => ?_
    have hsize := Nat.zero_lt_of_lt (List.getElem?_eq_some_iff.1 hvalues).1
    calc
      values.length ≤ longest contents := length_le_longest (List.mem_of_getElem? hvalues)
      _ ≤ turn / contents.length := by rwa [Nat.le_div_iff_mul_le hsize, Nat.mul_comm]
  rw [← hturned, hwhole, handedOn_mul, rounds]

end ParallelFilter
