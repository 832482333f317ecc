import ParallelFilter.Proofs.Brevity
import Mathlib.Data.List.Chain
import Mathlib.Data.List.Nodup
import Mathlib.Data.List.Perm.Subperm

/-! Why no channel of a multiplexer starves. How far a channel lies ahead of the cursor, counted
around the circle, is its distance. A sweep that finds nothing on its way comes to the channel, so
while a value is buffered there, the sweep ends with a value, from that channel or from one before
it; and then the next sweep begins nearer. So the channels that are served before it are met one
after the other, each one once. -/

namespace ParallelFilter

variable {α β : Type}

namespace Multiplexer

variable {size cursor index offset : Nat}

/-- There is only one way around to a channel that does not come by the cursor again. -/
theorem distance_eq (cursor : Nat) (hoffset : offset < size) :
    distance size cursor ((cursor + offset) % size) = offset := by
  have hcursor := Nat.mod_lt cursor (Nat.zero_lt_of_lt hoffset)
  have hdivided := Nat.div_add_mod cursor size
  calc
    _ = (cursor + offset + (size - cursor % size)) % size := by rw [distance, Nat.mod_add_mod]
    _ = (offset + size * (cursor / size + 1)) % size := by
      rw [Nat.mul_succ]
      congr 1
      omega
    _ = offset := by rw [Nat.add_mul_mod_self_left, Nat.mod_eq_of_lt hoffset]

/-- What lies on the way is nearer by as much as it is ahead. -/
theorem distance_add (hindex : index < size) (hoffset : offset ≤ distance size cursor index) :
    distance size ((cursor + offset) % size) index = distance size cursor index - offset := by
  have hlt := distance_lt cursor hindex
  have hreached : ((cursor + offset) % size + (distance size cursor index - offset)) % size =
      index := by
    rw [Nat.mod_add_mod, Nat.add_assoc, Nat.add_sub_cancel' hoffset, add_distance cursor hindex]
  calc
    _ = distance size ((cursor + offset) % size)
          (((cursor + offset) % size + (distance size cursor index - offset)) % size) := by
            rw [hreached]
    _ = distance size cursor index - offset := distance_eq _ (by omega)

/-- Behind a channel that is not the one, the one is nearer. -/
theorem distance_succ_lt {source : Nat} (hindex : index < size) (hsource : source < size)
    (hne : source ≠ index) :
    distance size ((source + 1) % size) index < distance size source index := by
  have hpos : 0 < distance size source index := by
    refine Nat.pos_of_ne_zero fun hzero => hne ?_
    have hreached := add_distance source hindex
    rwa [hzero, Nat.add_zero, Nat.mod_eq_of_lt hsource] at hreached
  rw [distance_add hindex hpos]
  exact Nat.sub_lt hpos Nat.one_pos

/-- Whether a value is buffered in the channel. -/
def isStocked (hub : Multiplexer α β) (index : Nat) : Bool :=
  hub.lanes[index]?.any fun lane => lane.channel.buffer.size != 0

variable {hub after : Multiplexer α β} {arrived : Option (Nat × α)} {passed : Option (Delivery β)}

theorem isStocked_iff : hub.isStocked index = true ↔
    ∃ lane, hub.lanes[index]? = some lane ∧ lane.channel.buffer.toList ≠ [] := by
  simp only [isStocked, Option.any_eq_true, bne_iff_ne, Queue.size_eq_length, ne_eq,
    List.length_eq_zero_iff]

theorem lt_size_of_isStocked (h : hub.isStocked index = true) : index < hub.lanes.size := by
  obtain ⟨lane, hlane, -⟩ := isStocked_iff.1 h
  exact (Array.getElem?_eq_some_iff.1 hlane).1

/-- The values of a channel stay there while only others hand on theirs. -/
theorem Touches.isStocked (h : hub.Touches arrived passed after)
    (hothers : ∀ item ∈ passed, item.source ≠ index) (hstocked : hub.isStocked index = true) :
    after.isStocked index = true := by
  obtain ⟨lane, hlane, hbuffer⟩ := isStocked_iff.1 hstocked
  cases h with
  | none hlanes _ _ _ => exact isStocked_iff.2 ⟨lane, hlanes ▸ hlane, hbuffer⟩
  | @lane other hother value? handed? next after hmoves hlanes _ _ _ =>
      rw [isStocked_iff, hlanes]
      by_cases hsame : other = index
      · subst hsame
        obtain ⟨_, rfl⟩ := Array.getElem?_eq_some_iff.1 hlane
        refine ⟨next, Array.getElem?_set_self hother, ?_⟩
        cases hmoves with
        | push value _ =>
            exact Queue.toList_push _ value ▸ List.append_ne_nil_of_right_ne_nil _
              (List.cons_ne_nil _ _)
        | pop value _ _ _ => exact absurd rfl (hothers _ rfl)
        | drop | shut _ _ _ => exact hbuffer
      · exact ⟨lane, by rw [Array.getElem?_set_ne hother hsame, hlane], hbuffer⟩

/-- A sweep with so many channels left to probe has still to come to the channel, and a value is
buffered there. -/
structure Ahead (hub : Multiplexer α β) (index left : Nat) : Prop where
  stocked : hub.isStocked index = true
  left_le : left ≤ hub.lanes.size
  ahead : hub.lanes.size - left ≤ distance hub.lanes.size hub.cursor index

namespace Ahead

variable {left : Nat}

theorem ofStocked (hstocked : hub.isStocked index = true) : hub.Ahead index hub.lanes.size where
  stocked := hstocked
  left_le := Nat.le_refl _
  ahead := by
    rw [Nat.sub_self]
    exact Nat.zero_le _

/-- Such a sweep is not at its end. -/
theorem left_pos (h : hub.Ahead index left) : 0 < left := by
  have hlt := distance_lt hub.cursor (lt_size_of_isStocked h.stocked)
  have hahead := h.ahead
  omega

/-- It has still to come to it after a probe of another channel. -/
theorem next (h : hub.Ahead index (left + 1))
    (hne : (hub.cursor + (hub.lanes.size - (left + 1))) % hub.lanes.size ≠ index) :
    hub.Ahead index left where
  stocked := h.stocked
  left_le := Nat.le_of_succ_le h.left_le
  ahead := by
    have hlt : hub.lanes.size - (left + 1) < distance hub.lanes.size hub.cursor index := by
      refine Nat.lt_of_le_of_ne h.ahead fun hsame => hne ?_
      rw [hsame, add_distance _ (lt_size_of_isStocked h.stocked)]
    omega

theorem touches (h : hub.Ahead index left) (htouches : hub.Touches arrived passed after)
    (hothers : ∀ item ∈ passed, item.source ≠ index) (hcursor : after.cursor = hub.cursor) :
    after.Ahead index left where
  stocked := htouches.isStocked hothers h.stocked
  left_le := by
    rw [htouches.size_eq]
    exact h.left_le
  ahead := by
    rw [htouches.size_eq, hcursor]
    exact h.ahead

/-- What the next probe of such a sweep leads to. -/
theorem advance (h : hub.Ahead index (left + 1)) (hsealed : hub.Sealed) (ticks : Nat) :
    ((hub.advance (.probing (left + 1) ticks)).2 = .probing left ticks ∧
        (hub.advance (.probing (left + 1) ticks)).1.cursor = hub.cursor ∧
        (hub.advance (.probing (left + 1) ticks)).1.Ahead index left) ∨
      ∃ item, (hub.advance (.probing (left + 1) ticks)).2 = .returned (some item) ∧
        distance hub.lanes.size item.source index ≤ distance hub.lanes.size hub.cursor index ∧
        (item.source ≠ index →
          distance hub.lanes.size (hub.advance (.probing (left + 1) ticks)).1.cursor index <
            distance hub.lanes.size item.source index) := by
  have hindex := lt_size_of_isStocked h.stocked
  obtain ⟨lane, hlane, hbuffer⟩ := isStocked_iff.1 h.stocked
  have hnearer := (distance_add hindex h.ahead).trans_le (Nat.sub_le _ _)
  have hnext (hne : (hub.cursor + (hub.lanes.size - (left + 1))) % hub.lanes.size ≠ index) := h.next hne
  have hprobe :=
    probe_probes hub ((hub.cursor + (hub.lanes.size - (left + 1))) % hub.lanes.size) left ticks
  have htouches := hprobe.touches
  rw [Multiplexer.advance]
  generalize (hub.cursor + (hub.lanes.size - (left + 1))) % hub.lanes.size =
    source at hprobe htouches hnearer hnext
  generalize hub.probe source left ticks = probed at hprobe htouches
  obtain ⟨found, stands⟩ := probed
  cases hprobe with
  | serve hsource value rest hopen hfull =>
      exact .inr ⟨_, rfl, hnearer, distance_succ_lt hindex hsource⟩
  | shut hsource hopen hempty hsenders =>
      have hne : source ≠ index := by
        rintro rfl
        obtain ⟨_, rfl⟩ := Array.getElem?_eq_some_iff.1 hlane
        exact hbuffer hempty
      exact .inl ⟨rfl, rfl, (hnext hne).touches htouches
        (fun _ hitem => absurd hitem (Option.not_mem_none _)) rfl⟩
  | pass hnothing =>
      have hne : source ≠ index := by
        rintro rfl
        rcases hnothing lane hlane with hclosed | ⟨hempty, -⟩
        · exact hbuffer (hsealed lane (Array.mem_of_getElem? hlane) hclosed).2
        · exact hbuffer hempty
      exact .inl ⟨rfl, rfl, hnext hne⟩

/-- So the whole sweep ends with a value, and no tick is slept through. -/
theorem sweep (h : hub.Ahead index left) (hsealed : hub.Sealed) (ticks : Nat) : ∃ item,
    (hub.sweep ticks left).2 = .returned (some item) ∧
      (hub.sweep ticks left).1.idleTicks = hub.idleTicks := by
  induction left generalizing hub with
  | zero => exact absurd h.left_pos (Nat.lt_irrefl 0)
  | succ left ih =>
      have hkept :=
        (probe_kept hub ((hub.cursor + (hub.lanes.size - (left + 1))) % hub.lanes.size) left ticks).1
      rcases sweep_succ_cases hub ticks left with ⟨hmoved, hsweep⟩ | ⟨item, hreturned, hsweep⟩
      · rcases h.advance hsealed ticks with ⟨-, -, hahead⟩ | ⟨item, hreturned, -⟩
        · rw [hsweep, ← hkept]
          exact ih hahead (hsealed.moves (probe_probes ..).touches)
        · rw [hmoved] at hreturned
          cases hreturned
      · exact ⟨item, by rw [hsweep, hreturned], by rw [hsweep]; exact hkept⟩

end Ahead

/-- Where the latest call stands while the channel is stocked: it has returned with a value, or its
sweep has still to come to the channel. -/
inductive Underway (hub : Multiplexer α β) (index : Nat) : Option (Turn β) → Prop where
  | served (item : Delivery β) : Underway hub index (some (.returned (some item)))
  | probing (left ticks : Nat) (hahead : hub.Ahead index left) :
      Underway hub index (some (.probing left ticks))

/-- What happens outside the call leaves the cursor alone. -/
theorem perform_cursor (hasToken : Bool) (hub : Multiplexer α β) (action : Action α) :
    (Timeline.perform hasToken hub action).cursor = hub.cursor := by
  cases action with
  | send source value =>
      rcases send_cases hub source value with ⟨-, hsame⟩ | ⟨_, -, hsent⟩
      · rw [Timeline.perform, hsame]
      · rw [Timeline.perform, hsent]
  | close source | cancel => rfl

end Multiplexer

namespace Traffic

open Multiplexer (distance)

variable {hasToken : Bool} {ports : List (Port α β)} {patience : Patience} {size index : Nat}
  {moment traffic next last : Traffic α β} {signal : Signal α} {signals : List (Signal α)}
  {since : List (Delivery β)}

/-- What the signals do, where a call begins only while a value is buffered in the channel. -/
def stepStocked (hasToken : Bool) (index : Nat) (traffic : Traffic α β) :
    Signal α → Option (Traffic α β)
  | .outside action => traffic.step hasToken (.outside action)
  | .call => if traffic.hub.isStocked index then traffic.step hasToken .call else none
  | .proceed => traffic.step hasToken .proceed
  | .elapse => traffic.step hasToken .elapse

/-- The multiplexer after the signals, if they can come one after another, and a value is buffered
in the channel whenever a call begins. -/
def followStocked (hasToken : Bool) (index : Nat) (traffic : Traffic α β) (signals : List (Signal α)) :
    Option (Traffic α β) :=
  signals.foldlM (stepStocked hasToken index) traffic

theorem step_of_stepStocked (hstep : traffic.stepStocked hasToken index signal = some next) :
    traffic.step hasToken signal = some next := by
  cases signal with
  | outside action | proceed | elapse => exact hstep
  | call => exact (Option.ite_none_right_eq_some.1 hstep).2

theorem leadsTo_of_followStocked (hrun : traffic.followStocked hasToken index signals = some last) :
    traffic.LeadsTo hasToken last :=
  foldlM_induction (P := fun next => traffic.LeadsTo hasToken next)
    (fun _ signal _ _ hnext hstep => hnext.trans (.ofStep signal (step_of_stepStocked hstep)))
      (.refl traffic) hrun

/-- The value that comes next is from the channel, or from nearer to it. -/
def Approaches (size index : Nat) (earlier later : Delivery β) : Prop :=
  earlier.source ≠ index → distance size later.source index < distance size earlier.source index

/-- What has come of a multiplexer since a moment, while a value was buffered in the channel
whenever a call began. -/
structure Attentive (size index : Nat) (moment traffic : Traffic α β) (since : List (Delivery β)) :
    Prop where
  size_eq : traffic.hub.lanes.size = size
  delivered : traffic.delivered = moment.delivered ++ since
  idleTicks : traffic.hub.idleTicks = moment.hub.idleTicks
  underway : traffic.hub.Underway index traffic.turn?
  chain : since.IsChain (Approaches size index)
  /-- The sweep that follows begins behind what was served last. -/
  nearer : ∀ item ∈ since.getLast?, item.source ≠ index →
    distance size traffic.hub.cursor index < distance size item.source index

namespace Attentive

theorem outside (h : Attentive size index moment traffic since) (action : Action α)
    (hstep : traffic.step hasToken (.outside action) = some next) :
    Attentive size index moment next since := by
  have htouches := Multiplexer.perform_touches hasToken traffic.hub action
  have hcursor := Multiplexer.perform_cursor hasToken traffic.hub action
  cases hstep
  refine ⟨htouches.size_eq.trans h.size_eq, h.delivered, ?_, ?_, h.chain,
    by rw [hcursor]; exact h.nearer⟩
  · exact (Multiplexer.perform_idleTicks hasToken traffic.hub action).trans h.idleTicks
  · have hunderway := h.underway
    generalize traffic.turn? = turn? at hunderway
    cases hunderway with
    | served item => exact .served item
    | probing left ticks hahead =>
        exact .probing left ticks
          (hahead.touches htouches (fun _ hitem => absurd hitem (Option.not_mem_none _)) hcursor)

theorem call (h : Attentive size index moment traffic since)
    (hstocked : traffic.hub.isStocked index = true)
    (hstep : traffic.step hasToken .call = some next) : Attentive size index moment next since := by
  obtain rfl := eq_of_step_call hstep
  exact ⟨h.size_eq, h.delivered, h.idleTicks, .probing _ 0 (.ofStocked hstocked), h.chain, h.nearer⟩

/-- A move of the sweep that has still to come to the channel. -/
theorem probe (h : Attentive size index moment traffic since) (hsealed : traffic.hub.Sealed)
    {left : Nat} (ticks : Nat) (hahead : traffic.hub.Ahead index (left + 1)) :
    ∃ since, Attentive size index moment (traffic.proceed (.probing (left + 1) ticks)) since := by
  have htouches : traffic.hub.Touches none (traffic.hub.advance (.probing (left + 1) ticks)).2.item?
      (traffic.hub.advance (.probing (left + 1) ticks)).1 :=
        Multiplexer.advance_touches traffic.hub nofun
  have hsize := htouches.size_eq.trans h.size_eq
  have hidle : (traffic.hub.advance (.probing (left + 1) ticks)).1.idleTicks = moment.hub.idleTicks :=
    (Multiplexer.probe_kept ..).1.trans h.idleTicks
  rcases hahead.advance hsealed ticks with ⟨hmoved, hcursor, hstill⟩ | ⟨item, hmoved, hreaches, hpassed⟩
  · refine ⟨since, hsize, ?_, hidle, ?_, h.chain, ?_⟩
    · rw [Traffic.proceed, hmoved, h.delivered]
      exact List.append_nil _
    · rw [Traffic.proceed, hmoved]
      exact .probing left ticks hstill
    · rw [Traffic.proceed, hcursor]
      exact h.nearer
  · rw [h.size_eq] at hreaches hpassed
    refine ⟨since ++ [item], hsize, ?_, hidle, ?_, ?_, fun last hlast => ?_⟩
    · rw [Traffic.proceed, hmoved, h.delivered]
      exact List.append_assoc _ _ _
    · rw [Traffic.proceed, hmoved]
      exact .served item
    · refine h.chain.append (List.isChain_singleton item) fun earlier hearlier later hlater hother => ?_
      cases hlater
      exact Nat.lt_of_le_of_lt hreaches (h.nearer earlier hearlier hother)
    · rw [List.getLast?_concat] at hlast
      cases hlast
      exact hpassed

theorem proceed (h : Attentive size index moment traffic since) (hsealed : traffic.hub.Sealed)
    (hasToken : Bool) (hstep : traffic.step hasToken .proceed = some next) :
    ∃ since, Attentive size index moment next since := by
  have hunderway := h.underway
  simp only [Traffic.step] at hstep
  generalize traffic.turn? = turn? at hunderway hstep
  cases hunderway with
  | served item => cases hstep
  | probing left ticks hahead =>
      obtain ⟨left, rfl⟩ := Nat.exists_eq_succ_of_ne_zero (Nat.ne_of_gt hahead.left_pos)
      cases hstep
      exact h.probe hsealed ticks hahead

/-- There is no tick whose end could be noticed. -/
theorem step_elapse_ne (h : Attentive size index moment traffic since) :
    traffic.step hasToken .elapse ≠ some next := by
  intro hstep
  obtain ⟨ticks, hturn, -⟩ := eq_of_step_elapse hstep
  have hunderway := h.underway
  rw [hturn] at hunderway
  cases hunderway

theorem step (h : Attentive size index moment traffic since) (hsealed : traffic.hub.Sealed)
    (hstep : traffic.stepStocked hasToken index signal = some next) :
    ∃ since, Attentive size index moment next since := by
  cases signal with
  | outside action => exact ⟨since, h.outside action hstep⟩
  | call =>
      obtain ⟨hstocked, hstep⟩ := Option.ite_none_right_eq_some.1 hstep
      exact ⟨since, h.call hstocked hstep⟩
  | proceed => exact h.proceed hsealed hasToken hstep
  | elapse => exact absurd (step_of_stepStocked hstep) h.step_elapse_ne

end Attentive

/-- Values from other channels come from one channel each. -/
theorem nodup_of_chain (hchain : since.IsChain (Approaches size index))
    (hothers : ∀ item ∈ since, item.source ≠ index) : (since.map Delivery.source).Nodup := by
  have hfalls : (since.map fun item => distance size item.source index).IsChain (· > ·) := by
    rw [List.isChain_map]
    exact hchain.imp_of_mem_imp fun earlier _ hearlier _ happroaches =>
      happroaches (hothers earlier hearlier)
  have hdistances : ((since.map Delivery.source).map fun source =>
      distance size source index).Nodup := by
    rw [List.map_map]
    exact hfalls.pairwise.imp Nat.ne_of_gt
  exact hdistances.of_map _

/-- So there are fewer of them than channels. -/
theorem length_lt_of_nodup (hnodup : (index :: since.map Delivery.source).Nodup) (hindex : index < size)
    (hsources : ∀ item ∈ since, item.source < size) : since.length < size := by
  have hsubset : index :: since.map Delivery.source ⊆ List.range size := by
    refine List.cons_subset.2 ⟨List.mem_range.2 hindex, List.forall_mem_map.2 fun item hitem => ?_⟩
    exact List.mem_range.2 (hsources item hitem)
  have hlength := (List.subperm_of_subset hnodup hsubset).length_le
  rwa [List.length_cons, List.length_map, List.length_range] at hlength

theorem LeadsTo.sent_prefix (h : traffic.LeadsTo hasToken last) : traffic.sent <+: last.sent := by
  obtain ⟨signals, hrun⟩ := h
  refine foldlM_induction (P := fun next => traffic.sent <+: next.sent)
    (fun next _ after _ hprefix hstep => ?_)
    List.prefix_rfl hrun
  obtain ⟨arrived, passed, -, hsent, -⟩ := step_touches hstep
  exact hprefix.trans ⟨_, hsent.symm⟩

/-- What a channel hands on next is what is buffered first. -/
theorem Books.value_eq (hmoment : moment.Books ports) (hlast : last.Books ports)
    (hsent : moment.sent <+: last.sent) {before after : List (Delivery β)} {item : Delivery β}
    (hdelivered : last.delivered = moment.delivered ++ (before ++ item :: after))
    (hbefore : ∀ other ∈ before, other.source ≠ item.source) {lane : Lane α β} {value : α}
    {rest : List α} (hlane : moment.hub.lanes[item.source]? = some lane)
    (hbuffer : lane.channel.buffer.toList = value :: rest) :
    item.value = lane.convert lane.delivered value := by
  obtain ⟨port, hport, hconvert, ⟨taken, hsentThen, hcount, hhandedThen⟩, -⟩ := hmoment.lane hlane
  have hindex : item.source < last.hub.lanes.size := by
    rw [hlast.size, ← hmoment.size]
    exact (Array.getElem?_eq_some_iff.1 hlane).1
  obtain ⟨same, hsame, -, ⟨takenNow, hsentNow, -, hhandedNow⟩, -⟩ :=
    hlast.lane (Array.getElem?_eq_getElem hindex)
  rw [hport, Option.some_inj] at hsame
  subst hsame
  have hnone : before.filterMap (fun other => if other.source = item.source then some other.value
      else none) = [] :=
    List.filterMap_eq_nil_iff.2 fun other hother => if_neg (hbefore other hother)
  -- the place at which the value was sent is that at which it is handed on
  have hthen : (last.sentTo item.source)[lane.delivered]? = some value := by
    obtain ⟨more, hmore⟩ : moment.sentTo item.source <+: last.sentTo item.source := hsent.filterMap _
    rw [← hmore, hsentThen, hcount, hbuffer, List.append_assoc, List.getElem?_append_right
      (Nat.le_refl _), Nat.sub_self]
    rfl
  have hnow : (last.deliveredBy item.source)[lane.delivered]? = some item.value := by
    have hlength : (moment.deliveredBy item.source).length = lane.delivered := by
      rw [hhandedThen, List.length_mapIdx, hcount]
    rw [deliveredBy, hdelivered, List.filterMap_append, List.filterMap_append, hnone, List.nil_append,
      List.filterMap_cons, if_pos rfl, ← deliveredBy, ← hlength,
      List.getElem?_append_right (Nat.le_refl _), Nat.sub_self]
    rfl
  rw [hhandedNow, List.getElem?_mapIdx] at hnow
  obtain ⟨same, hsame, hvalue⟩ := Option.map_eq_some_iff.1 hnow
  rw [hsentNow, List.getElem?_append_left (List.getElem?_eq_some_iff.1 hsame).1, hsame,
    Option.some_inj] at hthen
  rw [← hvalue, hthen, hconvert]

/-- What comes of a channel in which a value is buffered whenever a call begins: the deliveries
since the moment. -/
structure Unstarved (size index : Nat) (moment last : Traffic α β) (since : List (Delivery β)) :
    Prop where
  delivered : last.delivered = moment.delivered ++ since
  idleTicks : last.hub.idleTicks = moment.hub.idleTicks
  /-- The latest call has returned with a value, or it is in the middle of its sweep. -/
  turn : (∃ item, last.turn? = some (.returned (some item))) ∨
    ∃ left ticks, last.turn? = some (.probing (left + 1) ticks) ∧ left < size
  /-- A call in the middle of its sweep returns with a value, at the latest with its last probe. -/
  proceed : ∀ left ticks, last.turn? = some (.probing (left + 1) ticks) →
    (∃ item, (last.proceed (.probing (left + 1) ticks)).turn? = some (.returned (some item))) ∨
      0 < left ∧ (last.proceed (.probing (left + 1) ticks)).turn? = some (.probing left ticks)
  /-- A whole call sleeps through no tick. -/
  next : last.hub.isStocked index = true →
    ∀ {σ : Type} (surroundings : Multiplexer.Surroundings σ α β) (around : σ)
    (granted : Nat), ∃ item after,
      last.hub.next surroundings around 0 granted = (.item item, after, around) ∧
        after.idleTicks = last.hub.idleTicks
  /-- Before the channel is served, each of the others is served once at most. -/
  once : ∀ segment, segment <:+: since → (∀ item ∈ segment, item.source ≠ index) →
    (segment.map Delivery.source).Nodup
  /-- So among as many deliveries as there are channels, there is one of the channel. -/
  soon : ∀ segment, segment <:+: since → size ≤ segment.length → ∃ item ∈ segment, item.source = index
  /-- The value that was the oldest at the moment is among the first deliveries. -/
  oldest : ∀ lane value rest, moment.hub.lanes[index]? = some lane →
    lane.channel.buffer.toList = value :: rest → size ≤ since.length → ∃ before after,
      since = before ++ ⟨index, lane.convert lane.delivered value⟩ :: after ∧ before.length < size ∧
        (index :: before.map Delivery.source).Nodup

namespace Attentive

variable (h : Attentive size index moment last since)

include h

theorem turn : (∃ item, last.turn? = some (.returned (some item))) ∨
    ∃ left ticks, last.turn? = some (.probing (left + 1) ticks) ∧ left < size := by
  obtain ⟨hsize, -, -, hunderway, -, -⟩ := h
  generalize last.turn? = turn? at hunderway
  cases hunderway with
  | served item => exact .inl ⟨item, rfl⟩
  | probing left ticks hahead =>
      obtain ⟨left, rfl⟩ := Nat.exists_eq_succ_of_ne_zero (Nat.ne_of_gt hahead.left_pos)
      exact .inr ⟨left, ticks, rfl, hsize ▸ hahead.left_le⟩

theorem returns (hsealed : last.hub.Sealed) {left ticks : Nat}
    (hturn : last.turn? = some (.probing (left + 1) ticks)) :
    (∃ item, (last.proceed (.probing (left + 1) ticks)).turn? = some (.returned (some item))) ∨
      0 < left ∧ (last.proceed (.probing (left + 1) ticks)).turn? = some (.probing left ticks) := by
  have hunderway := hturn ▸ h.underway
  cases hunderway with
  | probing _ _ hahead =>
      rcases hahead.advance hsealed ticks with ⟨hmoved, -, hstill⟩ | ⟨item, hmoved, -⟩
      · exact .inr ⟨hstill.left_pos, congrArg some hmoved⟩
      · exact .inl ⟨item, congrArg some hmoved⟩

theorem once {segment : List (Delivery β)} (hsegment : segment <:+: since)
    (hothers : ∀ item ∈ segment, item.source ≠ index) : (segment.map Delivery.source).Nodup :=
  have hchain : segment.IsChain (Approaches size index) := List.IsChain.infix h.chain hsegment
  nodup_of_chain hchain hothers

theorem nodup_cons {segment : List (Delivery β)} (hsegment : segment <:+: since)
    (hothers : ∀ item ∈ segment, item.source ≠ index) :
    (index :: segment.map Delivery.source).Nodup := by
  refine List.nodup_cons.2 ⟨fun hmem => ?_, h.once hsegment hothers⟩
  obtain ⟨item, hitem, hsource⟩ := List.mem_map.1 hmem
  exact hothers item hitem hsource

variable (hindex : index < size) (hsources : ∀ item ∈ since, item.source < size)

include hindex hsources

theorem length_lt {segment : List (Delivery β)} (hsegment : segment <:+: since)
    (hothers : ∀ item ∈ segment, item.source ≠ index) : segment.length < size :=
  length_lt_of_nodup (h.nodup_cons hsegment hothers) hindex fun item hitem =>
    hsources item (hsegment.subset hitem)

theorem soon {segment : List (Delivery β)} (hsegment : segment <:+: since)
    (hlength : size ≤ segment.length) :
    ∃ item ∈ segment, item.source = index := by
  by_contra hnone
  have hothers : ∀ item ∈ segment, item.source ≠ index :=
    fun item hitem hsource => hnone ⟨item, hitem, hsource⟩
  exact absurd (h.length_lt hindex hsources hsegment hothers) (Nat.not_lt.2 hlength)

/-- The first delivery of the channel is not far. -/
theorem exists_first (hlength : size ≤ since.length) : ∃ before value after,
    since = before ++ ⟨index, value⟩ :: after ∧ (∀ item ∈ before, item.source ≠ index) ∧
      before.length < size ∧ (index :: before.map Delivery.source).Nodup := by
  obtain ⟨item, hitem, hsource⟩ := h.soon hindex hsources List.infix_rfl hlength
  obtain ⟨first, hfirst⟩ := Option.isSome_iff_exists.1
    (List.find?_isSome.2 ⟨item, hitem, beq_iff_eq.2 hsource⟩ : (since.find? (·.source == index)).isSome)
  obtain ⟨hfound, before, after, rfl, hbefore⟩ := List.find?_eq_some_iff_append.1 hfirst
  obtain ⟨source, value⟩ := first
  obtain rfl := beq_iff_eq.1 hfound
  have hothers : ∀ item ∈ before, item.source ≠ source := by
    intro other hother hsame
    have hnot := hbefore other hother
    rw [beq_iff_eq.2 hsame] at hnot
    cases hnot
  have hsegment : before <:+: before ++ ⟨source, value⟩ :: after := (List.prefix_append ..).isInfix
  exact ⟨before, value, after, rfl, hothers, h.length_lt hindex hsources hsegment hothers,
    h.nodup_cons hsegment hothers⟩

end Attentive

/-- **No channel starves.** From a sweep on that begins while a value is buffered in the channel,
wherever the cursor is, and as long as one is buffered there whenever a call begins, every call
returns with a value and no tick passes, whatever the producers do. Each of the other channels is
served once at most before the channel is served, so its oldest value is among the next deliveries,
of which there are no more than channels. -/
theorem nobody_starves (hreached : (ofPorts ports patience).LeadsTo hasToken moment) {ticks : Nat}
    (hbegins : moment.turn? = some (.probing moment.hub.lanes.size ticks))
    (hstocked : moment.hub.isStocked index = true)
    (hrun : moment.followStocked hasToken index signals = some last) :
    ∃ since, Unstarved ports.length index moment last since := by
  have hmoment := hreached.books
  have hmore := leadsTo_of_followStocked hrun
  have hlast := (hreached.trans hmore).books
  have hbegun : Attentive ports.length index moment moment [] := by
    refine ⟨hmoment.size, (List.append_nil _).symm, rfl, ?_, .nil, nofun⟩
    rw [hbegins]
    exact .probing _ ticks (.ofStocked hstocked)
  obtain ⟨-, since, h⟩ := foldlM_induction
    (P := fun traffic => traffic.Books ports ∧
      ∃ since, Attentive ports.length index moment traffic since)
    (fun traffic signal next _ ⟨hbooks, _, h⟩ hstep =>
      ⟨hbooks.step (step_of_stepStocked hstep), h.step hbooks.sealed hstep⟩) ⟨hmoment, [], hbegun⟩ hrun
  have hindex : index < ports.length := hmoment.size ▸ Multiplexer.lt_size_of_isStocked hstocked
  have hsources : ∀ item ∈ since, item.source < ports.length := fun item hitem =>
    hlast.sources item (h.delivered ▸ List.mem_append_right _ hitem)
  refine ⟨since, h.delivered, h.idleTicks, h.turn, fun _ _ => h.returns hlast.sealed, ?_, fun _ =>
    h.once, fun _ => h.soon hindex hsources, ?_⟩
  · intro hstill σ surroundings around granted
    obtain ⟨item, hreturned, hidle⟩ := (Multiplexer.Ahead.ofStocked hstill).sweep hlast.sealed 0
    exact ⟨item, _, Multiplexer.next_of_returned (Prod.ext rfl hreturned), hidle⟩
  · intro lane value rest hlane hbuffer hlength
    obtain ⟨before, first, after, rfl, hothers, hlt, hnodup⟩ := h.exists_first hindex hsources hlength
    obtain rfl : first = lane.convert lane.delivered value :=
      hmoment.value_eq hlast hmore.sent_prefix h.delivered hothers hlane hbuffer
    exact ⟨before, after, rfl, hlt, hnodup⟩

/-- Three channels, with room for two values each. -/
def threePorts : List (Port Nat Nat) :=
  .replicate 3 ⟨2, 1, fun _ value => value⟩

/-- The sweep begins behind channel 0, where 20 was sent. Channel 1 is served first, filled again
and closed, then channel 2 is served, and then channel 0. -/
theorem nobody_starves_three_ports : ∃ moment last : Traffic Nat Nat, ∃ since,
    (ofPorts threePorts .exit).LeadsTo false moment ∧
      moment.turn? = some (.probing moment.hub.lanes.size 0) ∧
      moment.hub.isStocked 0 = true ∧ moment.followStocked false 0
        [.proceed, .outside (.send 1 51), .outside (.close 1), .call, .outside (.send 0 21),
          .proceed, .call, .proceed, .call, .proceed] = some last ∧
      last.delivered = [⟨0, 10⟩, ⟨1, 50⟩, ⟨2, 70⟩, ⟨0, 20⟩, ⟨1, 51⟩] ∧
        Unstarved 3 0 moment last since := by
  have hruns : ((ofPorts threePorts .exit).follow false
        [.outside (.send 0 10), .outside (.send 0 20), .outside (.send 2 70), .call, .proceed,
          .outside (.send 1 50)]).any (fun before => (before.step false .call).any fun moment =>
      moment.hub.isStocked 0 && (moment.followStocked false 0
        [.proceed, .outside (.send 1 51), .outside (.close 1), .call, .outside (.send 0 21),
          .proceed, .call, .proceed, .call, .proceed]).any fun last =>
        last.delivered == [⟨0, 10⟩, ⟨1, 50⟩, ⟨2, 70⟩, ⟨0, 20⟩, ⟨1, 51⟩]) = true := by
    decide +kernel
  obtain ⟨before, hbefore, hcalled⟩ := (Option.any_eq_true _ _).1 hruns
  obtain ⟨moment, hcall, hgood⟩ := (Option.any_eq_true _ _).1 hcalled
  obtain ⟨hstocked, hlate⟩ := (Bool.and_eq_true _ _).mp hgood
  obtain ⟨last, hlast, hdelivered⟩ := (Option.any_eq_true _ _).1 hlate
  have hreached : (ofPorts threePorts .exit).LeadsTo false moment :=
    LeadsTo.trans ⟨_, hbefore⟩ (.ofStep .call hcall)
  obtain rfl := eq_of_step_call hcall
  obtain ⟨since, hsince⟩ := nobody_starves hreached rfl hstocked hlast
  exact ⟨_, last, since, hreached, rfl, hstocked, hlast, beq_iff_eq.1 hdelivered, hsince⟩

end Traffic

end ParallelFilter
