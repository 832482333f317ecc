import ParallelFilter.Proofs.Lanes

/-! What a sweep knows. It probes every lane that is not marked closed, wherever it begins, so when
it finds no value, each lane is empty, and those whose senders are gone are marked. A marked lane is
not looked at: the multiplexer does the same whatever its channel is. -/

namespace ParallelFilter.Multiplexer

variable {α β : Type} {hub after : Multiplexer α β} {index : Nat} {turn : Turn β}

theorem isExhausted_of_marks (hmarks : after.lanes.map (·.closed) = hub.lanes.map (·.closed)) :
    after.isExhausted = hub.isExhausted := by
  have hall := congrArg (fun marks => marks.all id) hmarks
  rwa [Array.all_map, Array.all_map] at hall

/-- The multiplexer with another channel in one of its lanes. -/
def withChannel (hub : Multiplexer α β) (index : Nat) (channel : Channel α) : Multiplexer α β :=
  { hub with lanes := hub.lanes.modify index fun lane => { lane with channel } }

section Unread

variable (hclosed : ∀ lane, hub.lanes[index]? = some lane → lane.closed = true) (channel : Channel α)

theorem isExhausted_withChannel (hub : Multiplexer α β) (index : Nat) :
    (hub.withChannel index channel).isExhausted = hub.isExhausted := by
  apply isExhausted_of_marks
  dsimp only [withChannel]
  apply map_modify_of_eq
  exact fun _ => rfl

theorem probe_of_closed {source left ticks : Nat} (hsource : source < hub.lanes.size)
    (hclosed : hub.lanes[source].closed = true) :
    hub.probe source left ticks = (hub, .probing left ticks) := by
  simp only [probe, dif_pos hsource, hclosed, if_true]

include hclosed

theorem probe_withChannel (source left ticks : Nat) :
    (hub.withChannel index channel).probe source left ticks =
    ((hub.probe source left ticks).1.withChannel index channel, (hub.probe source left ticks).2) := by
  by_cases hsource : source < hub.lanes.size
  · have hstill : source < (hub.withChannel index channel).lanes.size :=
      Nat.lt_of_lt_of_eq hsource Array.size_modify.symm
    by_cases hsame : index = source
    · subst hsame
      have hskip := hclosed _ (Array.getElem?_eq_getElem hsource)
      rw [probe_of_closed hsource hskip, probe_of_closed hstill]
      simp only [withChannel, Array.getElem_modify_self, hskip]
    · have hlane : (hub.withChannel index channel).lanes[source] = hub.lanes[source] :=
        Array.getElem_modify_of_ne hsame _ hstill
      have hset (lane : Lane α β) : (hub.withChannel index channel).lanes.set source lane =
          (hub.lanes.set source lane).modify index fun lane => { lane with channel } := by
        apply Array.ext_getElem?
        intro other
        simp only [withChannel, Array.getElem?_set, Array.getElem?_modify]
        by_cases hindex : index = other
        · rw [if_pos hindex, if_pos hindex, if_neg (hindex ▸ Ne.symm hsame),
            if_neg (hindex ▸ Ne.symm hsame)]
        · rw [if_neg hindex, if_neg hindex]
      have hsize : (hub.withChannel index channel).lanes.size = hub.lanes.size := Array.size_modify
      simp only [probe, dif_pos hsource, hlane, hset, hsize]
      split
      · rfl
      · generalize hub.lanes[source].channel.take = taken
        cases taken <;> rfl
  · have hstill : ¬source < (hub.withChannel index channel).lanes.size := by
      rwa [withChannel, Array.size_modify]
    rw [probe, probe, dif_neg hsource, dif_neg hstill]

/-- A lane that is marked closed is not looked at. -/
theorem advance_withChannel (turn : Turn β) : (hub.withChannel index channel).advance turn =
    ((hub.advance turn).1.withChannel index channel, (hub.advance turn).2) := by
  have hsize : (hub.withChannel index channel).lanes.size = hub.lanes.size := Array.size_modify
  cases turn with
  | probing left ticks =>
      cases left with
      | zero =>
          rw [advance, advance, isExhausted_withChannel]
          rfl
      | succ left =>
          rw [advance, advance, hsize]
          exact probe_withChannel hclosed channel _ left ticks
  | sleeping ticks =>
      have hcancelled : (hub.withChannel index channel).cancelled = hub.cancelled := rfl
      rw [advance, advance, hcancelled]
      split
      · rfl
      · rw [wake, wake, hsize]
        rfl
  | returned item? => rfl

end Unread

/-- How many channels a sweep from the cursor on comes to before the one with the index. -/
def distance (size cursor index : Nat) : Nat :=
  (index + (size - cursor % size)) % size

theorem distance_lt (cursor : Nat) {index size : Nat} (hindex : index < size) :
    distance size cursor index < size :=
  Nat.mod_lt _ (Nat.zero_lt_of_lt hindex)

theorem add_distance (cursor : Nat) {index size : Nat} (hindex : index < size) :
    (cursor + distance size cursor index) % size = index := by
  have hcursor := Nat.mod_lt cursor (Nat.zero_lt_of_lt hindex)
  rw [distance, Nat.add_mod_mod, ← Nat.mod_add_mod, ← Nat.add_assoc, Nat.add_comm (cursor % size),
    Nat.add_assoc, Nat.add_sub_cancel' (Nat.le_of_lt hcursor), Nat.add_mod_right,
    Nat.mod_eq_of_lt hindex]

/-- A sweep that begins at the cursor comes to every lane. -/
theorem exists_offset (cursor : Nat) {index size : Nat} (hindex : index < size) :
    ∃ offset < size, (cursor + offset) % size = index :=
  ⟨distance size cursor index, distance_lt cursor hindex, add_distance cursor hindex⟩

theorem sweep_succ (ticks left : Nat) : hub.sweep ticks (left + 1) =
    match hub.probe ((hub.cursor + (hub.lanes.size - (left + 1))) % hub.lanes.size) left ticks with
    | (hub, .probing _ _) => hub.sweep ticks left
    | turned => turned := rfl

/-- The first probe of a sweep leaves the others to do, or it is the end of the sweep. -/
theorem sweep_succ_cases (hub : Multiplexer α β) (ticks left : Nat) :
    ((hub.advance (.probing (left + 1) ticks)).2 = .probing left ticks ∧
      hub.sweep ticks (left + 1) = (hub.advance (.probing (left + 1) ticks)).1.sweep ticks left) ∨
    ∃ item, (hub.advance (.probing (left + 1) ticks)).2 = .returned (some item) ∧
      hub.sweep ticks (left + 1) = hub.advance (.probing (left + 1) ticks) := by
  have hprobe :=
    probe_probes hub ((hub.cursor + (hub.lanes.size - (left + 1))) % hub.lanes.size) left ticks
  rw [sweep_succ, advance]
  generalize hub.probe _ left ticks = probed at hprobe
  obtain ⟨found, stands⟩ := probed
  cases hprobe with
  | serve hsource value rest hopen hbuffer => exact .inr ⟨_, rfl, rfl⟩
  | shut hsource hopen hbuffer hsenders => exact .inl ⟨rfl, rfl⟩
  | pass hnone => exact .inl ⟨rfl, rfl⟩

/-- A sweep that finds no value leaves every lane settled. `hprobed` is what it has seen so far. -/
theorem settled_of_sweep {ticks left : Nat} (hsealed : hub.Sealed) (hleft : left ≤ hub.lanes.size)
    (hprobed : ∀ offset < hub.lanes.size - left, ∀ lane,
      hub.lanes[(hub.cursor + offset) % hub.lanes.size]? = some lane → lane.Settled)
    (hsweep : hub.sweep ticks left = (after, turn)) (hnothing : turn.item? = none) :
    ∀ lane ∈ after.lanes, lane.Settled := by
  induction left generalizing hub with
  | zero =>
      cases hsweep
      intro lane hlane
      obtain ⟨index, hindex, rfl⟩ := Array.mem_iff_getElem.1 hlane
      obtain ⟨offset, hoffset, hsame⟩ := exists_offset after.cursor hindex
      exact hprobed offset hoffset _ (by rw [hsame, Array.getElem?_eq_getElem])
  | succ left ih =>
      -- the lane that is probed next is settled too
      have hnext {offset : Nat} (hoffset : offset < hub.lanes.size - left) :
          offset < hub.lanes.size - (left + 1) ∨ offset = hub.lanes.size - (left + 1) := by omega
      have hprobe :=
        probe_probes hub ((hub.cursor + (hub.lanes.size - (left + 1))) % hub.lanes.size) left ticks
      rw [sweep_succ] at hsweep
      generalize hub.probe _ left ticks = probed at hprobe hsweep
      obtain ⟨found, stands⟩ := probed
      have hfound := hsealed.moves hprobe.touches
      cases hprobe with
      | serve hsource value rest hopen hbuffer =>
          cases hsweep
          cases hnothing
      | shut hsource hopen hbuffer hsenders =>
          refine ih hfound ?_ ?_ hsweep
          · dsimp only
            rw [Array.size_set]
            exact Nat.le_of_succ_le hleft
          · intro offset hoffset lane hlane
            dsimp only at hoffset hlane
            rw [Array.size_set] at hoffset hlane
            rcases getElem?_set_cases hsource hlane with ⟨-, rfl⟩ | ⟨hne, hlane⟩
            · exact ⟨hbuffer, iff_of_true rfl hsenders⟩
            · rcases hnext hoffset with hoffset | rfl
              · exact hprobed offset hoffset lane hlane
              · exact absurd rfl hne
      | pass hnone =>
          refine ih hsealed (Nat.le_of_succ_le hleft) ?_ hsweep
          intro offset hoffset lane hlane
          rcases hnext hoffset with hoffset | rfl
          · exact hprobed offset hoffset lane hlane
          · have hdrained := hsealed lane (Array.mem_of_getElem? hlane)
            rcases hnone lane hlane with hclosed | ⟨hbuffer, hsenders⟩
            · obtain ⟨hsenders, hbuffer⟩ := hdrained hclosed
              exact ⟨hbuffer, iff_of_true hclosed hsenders⟩
            · exact ⟨hbuffer, iff_of_false (fun hclosed => hsenders (hdrained hclosed).1) hsenders⟩

/-- So nothing is buffered then, and it is known whether anything can still come. -/
theorem isExhausted_of_sweep {ticks : Nat} (hsealed : hub.Sealed)
    (hsweep : hub.sweep ticks hub.lanes.size = (after, turn)) (hnothing : turn.item? = none) :
    (∀ lane ∈ after.lanes, lane.channel.buffer.toList = []) ∧
      (after.isExhausted = true ↔ ∀ lane ∈ after.lanes, lane.Drained) := by
  have hsettled :=
    settled_of_sweep hsealed (Nat.le_refl _) (by rw [Nat.sub_self]; exact nofun) hsweep hnothing
  rw [isExhausted, Array.all_eq_true_iff_forall_mem]
  refine ⟨fun lane hlane => (hsettled lane hlane).1, fun hall lane hlane =>
    ?_, fun hdrained lane hlane => ?_⟩
  · obtain ⟨hbuffer, hmarked⟩ := hsettled lane hlane
    exact ⟨hmarked.1 (hall lane hlane), hbuffer⟩
  · exact (hsettled lane hlane).2.2 (hdrained lane hlane).1

/-- A call that returns when its tick is over does not wait forever. -/
theorem wake_eq_none {ticks : Nat} (hended : (hub.wake ticks).2 = .returned none) :
    hub.patience ≠ .forever := by
  intro hpatience
  rw [wake, hpatience] at hended
  cases hended

/-- A call that returns without a value does so because nothing can come any more, because of a
cancellation, or because its patience is at an end. -/
theorem advance_eq_none (hturn : ∀ item?, turn ≠ .returned item?)
    (hended : (hub.advance turn).2 = .returned none) :
    (hub.advance turn).1.isExhausted = true ∨ (hub.advance turn).1.cancelled = true ∨
      hub.patience ≠ .forever := by
  cases turn with
  | probing left ticks =>
      cases left with
      | zero =>
          rw [advance] at hended ⊢
          split at hended
          · rename_i hover
            rcases (Bool.or_eq_true _ _).mp hover with hexhausted | hcancelled
            · exact .inl hexhausted
            · exact .inr (.inl hcancelled)
          · cases hended
      | succ left =>
          rcases sweep_succ_cases hub ticks left with ⟨hmoved, -⟩ | ⟨item, hmoved, -⟩
          · rw [hmoved] at hended
            cases hended
          · rw [hmoved] at hended
            cases hended
  | sleeping ticks =>
      rw [advance] at hended ⊢
      split at hended
      · rename_i hcancelled
        rw [if_pos hcancelled]
        exact .inr (.inl hcancelled)
      · exact .inr (.inr (wake_eq_none hended))
  | returned item? => exact absurd rfl (hturn item?)

/-- A call that has slept begins another sweep, or returns without a value. -/
theorem advance_sleeping_cases (hub : Multiplexer α β) (ticks : Nat) :
    (hub.advance (.sleeping ticks)).2 = .returned none ∨
      (hub.advance (.sleeping ticks)).2 =
        .probing (hub.advance (.sleeping ticks)).1.lanes.size (ticks + 1) := by
  rw [advance]
  split
  · exact .inl rfl
  · exact hub.wake_cases ticks

theorem advance_sleeping_lanes (hub : Multiplexer α β) (ticks : Nat) :
    (hub.advance (.sleeping ticks)).1.lanes = hub.lanes := by
  rw [advance]
  split <;> rfl

/-- A sweep ends with a value, asleep, or at the end of the call. -/
theorem sweep_ne_probing (hub : Multiplexer α β) (ticks left more later : Nat) :
    (hub.sweep ticks left).2 ≠ .probing more later := by
  induction left generalizing hub with
  | zero =>
      rw [sweep, advance]
      intro hprobing
      dsimp only at hprobing
      split at hprobing <;> cases hprobing
  | succ left ih =>
      rcases sweep_succ_cases hub ticks left with ⟨-, hsweep⟩ | ⟨item, hreturned, hsweep⟩
      · rw [hsweep]
        exact ih _
      · rw [hsweep, hreturned]
        intro hprobing
        cases hprobing

section Next

variable {σ : Type} {surroundings : Surroundings σ α β} {around : σ} {found : Multiplexer α β}
  {ticks granted slept : Nat}

/-- A call whose sweep is its end. -/
theorem next_of_returned {item? : Option (Delivery β)}
    (hsweep : hub.sweep ticks hub.lanes.size = (found, .returned item?)) :
    hub.next surroundings around ticks granted = (item?.elim .ended .item, found, around) := by
  rw [next.eq_def, hsweep]
  cases item? <;> rfl

/-- A call whose sweep does not sleep is not left asleep. -/
theorem next_ne_asleep (hawake : ∀ slept, (hub.sweep ticks hub.lanes.size).2 ≠ .sleeping slept)
    (slept : Nat) :
    (hub.next surroundings around ticks granted).1 ≠ .asleep slept := by
  have hnever := sweep_ne_probing hub ticks hub.lanes.size
  cases hsweep : hub.sweep ticks hub.lanes.size with
  | mk found stands =>
      rw [hsweep] at hawake hnever
      cases stands with
      | probing more later => exact absurd rfl (hnever more later)
      | sleeping later => exact absurd rfl (hawake later)
      | returned item? =>
          rw [next_of_returned hsweep]
          cases item? <;> exact nofun

variable (hsweep : hub.sweep ticks hub.lanes.size = (found, .sleeping slept))

include hsweep

/-- A call that is left asleep. -/
theorem next_of_asleep : hub.next surroundings around ticks 0 = (.asleep slept, found, around) := by
  rw [next.eq_def, hsweep]

/-- A call that ends with a tick. -/
theorem next_of_ended
    (hover : ((surroundings.tick found around).1.advance (.sleeping slept)).2 = .returned none) :
    hub.next surroundings around ticks (granted + 1) =
      (.ended, ((surroundings.tick found around).1.advance (.sleeping slept)).1,
        (surroundings.tick found around).2) := by
  rw [next.eq_def, hsweep]
  cases hmoved : (surroundings.tick found around).1.advance (.sleeping slept) with
  | mk woken stands =>
      rw [hmoved] at hover
      obtain rfl : stands = .returned none := hover
      simp only [hmoved]

/-- A call that sweeps again after a tick. -/
theorem next_of_awake {more later : Nat}
    (hagain : ((surroundings.tick found around).1.advance (.sleeping slept)).2 = .probing more later) :
    hub.next surroundings around ticks (granted + 1) =
      ((surroundings.tick found around).1.advance (.sleeping slept)).1.next surroundings
        (surroundings.tick found around).2 later granted := by
  rw [next.eq_def, hsweep]
  cases hmoved : (surroundings.tick found around).1.advance (.sleeping slept) with
  | mk woken stands =>
      rw [hmoved] at hagain
      obtain rfl : stands = .probing more later := hagain
      simp only [hmoved]

end Next

section Collect

variable {σ : Type} {surroundings : Surroundings σ α β} {granted : Multiplexer α β → σ → Nat}
  {around later : σ}

theorem collect_of_ended
    (h : hub.next surroundings around 0 (granted hub around) = (.ended, after, later))
    (items : Array (Delivery β)) (values : Nat) :
    hub.collect surroundings granted around items values = some (items, after, later) := by
  rw [collect.eq_def, h]

theorem collect_of_item {item : Delivery β}
    (h : hub.next surroundings around 0 (granted hub around) = (.item item, after, later))
    (items : Array (Delivery β)) (values : Nat) :
    hub.collect surroundings granted around items (values + 1) =
      (surroundings.served after later).1.collect surroundings granted
        (surroundings.served after later).2
        (items.push item) values := by
  rw [collect.eq_def, h]

end Collect

end ParallelFilter.Multiplexer
