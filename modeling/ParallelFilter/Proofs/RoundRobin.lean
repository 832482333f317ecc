import ParallelFilter.Multiplexer.Timeline
import ParallelFilter.Proofs.Aftermath
import ParallelFilter.Proofs.Rounds

/-! Channels that were filled beforehand are collected in rounds. A probe is the turn of the channel
that is probed, and a sweep takes the turns up where the one before it has left off, whether that
was served or not. So what is handed on is known by the number of turns alone, and so is what is
left in each channel. -/

namespace ParallelFilter

variable {α β : Type}

namespace Lane

/-- What a lane that has handed on nothing yet is going to hand on, if nothing else comes in. -/
def contents (lane : Lane α β) : List β :=
  lane.channel.buffer.toList.mapIdx lane.convert

/-- The lane after so many of its turns, if nothing comes in. -/
structure Turned (start lane : Lane α β) (times : Nat) : Prop where
  convert_eq : lane.convert = start.convert
  senders_eq : lane.channel.senders = start.channel.senders
  buffer_eq : lane.channel.buffer.toList = start.channel.buffer.toList.drop times
  delivered_eq : lane.delivered = min times start.channel.buffer.toList.length
  drained : lane.closed = true → lane.Drained

namespace Turned

variable {start lane : Lane α β} {times : Nat}

theorem refl (hopen : lane.closed = false) (hdelivered : lane.delivered = 0) : lane.Turned lane 0 where
  convert_eq := rfl
  senders_eq := rfl
  buffer_eq := rfl
  delivered_eq := hdelivered.trans (Nat.zero_min _).symm
  drained hclosed := absurd (hopen.symm.trans hclosed) (by decide)

theorem length_le (h : start.Turned lane times) (hbuffer : lane.channel.buffer.toList = []) :
    start.channel.buffer.toList.length ≤ times :=
  List.drop_eq_nil_iff.1 (h.buffer_eq.symm.trans hbuffer)

/-- A turn of a lane that has nothing to hand on, which may be marked then. -/
theorem pass (h : start.Turned lane times) (hbuffer : lane.channel.buffer.toList = [])
    (marked : Bool) (hdrained : marked = true → lane.Drained) :
    start.Turned { lane with closed := marked } (times + 1) := by
  have hlength := h.length_le hbuffer
  refine ⟨h.convert_eq, h.senders_eq, ?_, ?_, hdrained⟩
  · exact hbuffer.trans (List.drop_eq_nil_of_le (Nat.le_succ_of_le hlength)).symm
  · have hdelivered := h.delivered_eq
    rw [Nat.min_eq_right hlength] at hdelivered
    rw [Nat.min_eq_right (Nat.le_succ_of_le hlength)]
    exact hdelivered

variable {value : α} {rest : Queue α} (h : start.Turned lane times)
  (hbuffer : lane.channel.buffer.toList = value :: rest.toList)

include h hbuffer

theorem lt_length : times < start.channel.buffer.toList.length := by
  by_contra hle
  have hnone := List.drop_eq_nil_of_le (Nat.not_lt.1 hle)
  rw [← h.buffer_eq, hbuffer] at hnone
  cases hnone

/-- A turn of a lane that has something to hand on. -/
theorem pop (hopen : lane.closed = false) :
    start.Turned { lane with channel.buffer := rest, delivered := lane.delivered + 1 } (times + 1) := by
  have hlt := h.lt_length hbuffer
  have hdelivered := h.delivered_eq
  rw [Nat.min_eq_left (Nat.le_of_lt hlt)] at hdelivered
  refine ⟨h.convert_eq, h.senders_eq, ?_, ?_, fun hmarked => absurd (hopen.symm.trans hmarked)
    (by decide)⟩
  · rw [← List.tail_drop, ← h.buffer_eq, hbuffer, List.tail_cons]
  · rw [Nat.min_eq_left hlt]
    exact congrArg (· + 1) hdelivered

theorem getElem?_contents : start.contents[times]? = some (lane.convert lane.delivered value) := by
  have hlt := h.lt_length hbuffer
  have hvalue : start.channel.buffer.toList[times]? = some value := by
    rw [← List.head?_drop, ← h.buffer_eq, hbuffer, List.head?_cons]
  rw [contents, List.getElem?_mapIdx, hvalue, h.convert_eq, h.delivered_eq,
    Nat.min_eq_left (Nat.le_of_lt hlt), Option.map_some]

end Turned

end Lane

namespace Multiplexer

/-- What the lanes are going to hand on, if nothing else comes in. -/
def contents (lanes : Array (Lane α β)) : List (List β) :=
  lanes.toList.map Lane.contents

variable {lanes : Array (Lane α β)} {patience : Patience} {count : Nat} {hub : Multiplexer α β}

theorem length_contents (lanes : Array (Lane α β)) : (contents lanes).length = lanes.size := by
  rw [contents, List.length_map, Array.length_toList]

theorem getElem?_contents (lanes : Array (Lane α β)) (index : Nat) :
    (contents lanes)[index]? = lanes[index]?.map Lane.contents := by
  rw [contents, List.getElem?_map, Array.getElem?_toList]

/-- The multiplexer after so many turns of its lanes, in which nothing has come in and nobody has
slept. -/
structure AfterTurns (lanes : Array (Lane α β)) (patience : Patience) (count : Nat)
    (hub : Multiplexer α β) :
    Prop where
  size_eq : hub.lanes.size = lanes.size
  lane : ∀ {index : Nat} {lane : Lane α β}, hub.lanes[index]? = some lane → ∃ start,
    lanes[index]? = some start ∧ start.Turned lane (turns lanes.size count index)
  received : hub.received = (handedOn (contents lanes) count).length
  patience_eq : hub.patience = patience
  idleTicks : hub.idleTicks = 0
  cancelled : hub.cancelled = false

namespace AfterTurns

theorem ofLanes (hfresh : ∀ lane ∈ lanes, lane.closed = false ∧ lane.delivered = 0)
    (patience : Patience) :
    AfterTurns lanes patience 0 { lanes, patience } where
  size_eq := rfl
  lane {index lane} hlane := by
    obtain ⟨hclosed, hdelivered⟩ := hfresh lane (Array.mem_of_getElem? hlane)
    refine ⟨lane, hlane, ?_⟩
    rw [turns_zero]
    exact .refl hclosed hdelivered
  received := rfl
  patience_eq := rfl
  idleTicks := rfl
  cancelled := rfl

theorem sealed (h : AfterTurns lanes patience count hub) : hub.Sealed := by
  intro lane hlane
  obtain ⟨index, hindex⟩ := Array.mem_iff_getElem?.1 hlane
  obtain ⟨start, -, hturned⟩ := h.lane hindex
  exact hturned.drained

/-- The turn of the lane that comes next. -/
theorem moves (h : AfterTurns lanes patience count hub) {source : Nat}
    (hsource : source < hub.lanes.size) (hturn : source = count % lanes.size) {next : Lane α β}
    {after : Multiplexer α β} {passed : Option (Delivery β)}
    (hmoved : ∀ start : Lane α β, start.Turned hub.lanes[source] (count / lanes.size) →
      start.Turned next (count / lanes.size + 1))
    (hlanes : after.lanes = hub.lanes.set source next) (htouches : hub.Touches none passed after)
    (hslot : slot? (contents lanes) (count / lanes.size) source = passed)
    (hidle : after.idleTicks = hub.idleTicks) (hcancelled : after.cancelled = hub.cancelled) :
    AfterTurns lanes patience (count + 1) after where
  size_eq := htouches.size_eq.trans h.size_eq
  lane {index lane} hlane := by
    rw [hlanes] at hlane
    rcases getElem?_set_cases hsource hlane with ⟨rfl, rfl⟩ | ⟨hne, hlane⟩
    · obtain ⟨start, hstart, hturned⟩ := h.lane (Array.getElem?_eq_getElem hsource)
      refine ⟨start, hstart, ?_⟩
      rw [turns_succ (h.size_eq ▸ hsource), if_pos hturn, hturn, turns_self]
      subst hturn
      rw [turns_self] at hturned
      exact hmoved start hturned
    · obtain ⟨start, hstart, hturned⟩ := h.lane hlane
      have hindex : index < lanes.size := (Array.getElem?_eq_some_iff.1 hstart).1
      refine ⟨start, hstart, ?_⟩
      rwa [turns_succ hindex, if_neg fun hsame => hne (hturn.trans hsame.symm), Nat.add_zero]
  received := by
    rw [htouches.received_eq, h.received, handedOn_succ, length_contents, ← hturn, hslot,
      List.length_append]
  patience_eq := htouches.patience_eq.trans h.patience_eq
  idleTicks := hidle.trans h.idleTicks
  cancelled := hcancelled.trans h.cancelled

/-- The lane whose turn it is. -/
theorem exists_turned (h : AfterTurns lanes patience count hub)
    (hsource : count % lanes.size < hub.lanes.size) :
    ∃ start, lanes[count % lanes.size]? = some start ∧
      start.Turned hub.lanes[count % lanes.size] (count / lanes.size) := by
  obtain ⟨start, hstart, hturned⟩ := h.lane (Array.getElem?_eq_getElem hsource)
  rw [turns_self] at hturned
  exact ⟨start, hstart, hturned⟩

/-- What there is to hand on in the turn that comes next. -/
theorem slot?_of_nil (h : AfterTurns lanes patience count hub)
    (hsource : count % lanes.size < hub.lanes.size)
    (hbuffer : hub.lanes[count % lanes.size].channel.buffer.toList = []) :
    slot? (contents lanes) (count / lanes.size) (count % lanes.size) = none := by
  obtain ⟨start, hstart, hturned⟩ := h.exists_turned hsource
  refine slot?_eq_none fun values hvalues => ?_
  rw [getElem?_contents, hstart, Option.map_some, Option.some_inj] at hvalues
  rw [← hvalues, Lane.contents, List.length_mapIdx]
  exact hturned.length_le hbuffer

theorem slot?_of_cons (h : AfterTurns lanes patience count hub)
    (hsource : count % lanes.size < hub.lanes.size) {value : α} {rest : Queue α}
    (hbuffer : hub.lanes[count % lanes.size].channel.buffer.toList = value :: rest.toList) :
    slot? (contents lanes) (count / lanes.size) (count % lanes.size) = some ⟨count % lanes.size,
      hub.lanes[count % lanes.size].convert hub.lanes[count % lanes.size].delivered value⟩ := by
  obtain ⟨start, hstart, hturned⟩ := h.exists_turned hsource
  rw [slot?, getElem?_contents, hstart, Option.map_some, Option.bind_some,
    hturned.getElem?_contents hbuffer, Option.map_some]

/-- A probe is one turn. -/
theorem probe (h : AfterTurns lanes patience count hub) (hnonempty : 0 < lanes.size)
    (left ticks : Nat) :
    AfterTurns lanes patience (count + 1) (hub.probe (count % lanes.size) left ticks).1 ∧
      ((slot? (contents lanes) (count / lanes.size) (count % lanes.size) = none ∧
          (hub.probe (count % lanes.size) left ticks).2 = .probing left ticks ∧
          (hub.probe (count % lanes.size) left ticks).1.cursor = hub.cursor) ∨
        ∃ item, slot? (contents lanes) (count / lanes.size) (count % lanes.size) = some item ∧
          (hub.probe (count % lanes.size) left ticks).2 = .returned (some item) ∧
          (hub.probe (count % lanes.size) left ticks).1.cursor = (count + 1) % lanes.size) := by
  have hsource := Nat.lt_of_lt_of_eq (Nat.mod_lt count hnonempty) h.size_eq.symm
  have hnil := h.slot?_of_nil hsource
  have hprobe := probe_probes hub (count % lanes.size) left ticks
  have htouches := hprobe.touches
  generalize hub.probe (count % lanes.size) left ticks = probed at hprobe htouches
  obtain ⟨found, stands⟩ := probed
  cases hprobe with
  | serve _ value rest hopen hbuffer =>
      have hsome := h.slot?_of_cons hsource hbuffer
      refine ⟨h.moves hsource rfl (fun _ hturned => hturned.pop hbuffer hopen) rfl htouches hsome
        rfl rfl, .inr ?_⟩
      refine ⟨_, hsome, rfl, ?_⟩
      dsimp only
      rw [h.size_eq, Nat.mod_add_mod]
  | shut _ hopen hbuffer hsenders =>
      refine ⟨?_, .inl ⟨hnil hbuffer, rfl, rfl⟩⟩
      exact h.moves hsource rfl (fun _ hturned => hturned.pass hbuffer true fun _ =>
        ⟨hsenders, hbuffer⟩) rfl htouches
        (hnil hbuffer) rfl rfl
  | pass hnothing =>
      have hdrained := h.sealed _ (Array.getElem_mem hsource)
      have hbuffer :=
        (hnothing _ (Array.getElem?_eq_getElem hsource)).elim (fun hclosed => (hdrained hclosed).2)
        And.left
      refine ⟨?_, .inl ⟨hnil hbuffer, rfl, rfl⟩⟩
      exact h.moves hsource rfl (fun _ hturned => hturned.pass hbuffer _ hdrained)
        (Array.set_getElem_self hsource).symm htouches (hnil hbuffer) rfl rfl

/-- A sweep takes the turns up where the cursor is. It ends with the turn in which there is
something to hand on, or after as many turns as there are lanes. -/
theorem sweep (h : AfterTurns lanes patience count hub) (hnonempty : 0 < lanes.size) (ticks : Nat)
    {left : Nat} (hleft : left ≤ lanes.size)
    (hcursor : (hub.cursor + (lanes.size - left)) % lanes.size = count % lanes.size) :
    (∃ item more, (hub.sweep ticks left).2 = .returned (some item) ∧
        AfterTurns lanes patience more (hub.sweep ticks left).1 ∧
        (hub.sweep ticks left).1.cursor = more % lanes.size ∧
        handedOn (contents lanes) more = handedOn (contents lanes) count ++ [item]) ∨
      ∃ found, hub.sweep ticks left = found.advance (.probing 0 ticks) ∧
        AfterTurns lanes patience (count + left) found ∧
        handedOn (contents lanes) (count + left) = handedOn (contents lanes) count := by
  induction left generalizing hub count with
  | zero => exact .inr ⟨hub, rfl, h, rfl⟩
  | succ left ih =>
      have hturn := handedOn_succ (contents lanes) count
      have hsource : (hub.cursor + (hub.lanes.size - (left + 1))) % hub.lanes.size =
          count % lanes.size := by
        rw [h.size_eq, hcursor]
      obtain ⟨hnext, hfound⟩ := h.probe hnonempty left ticks
      rw [sweep_succ, hsource]
      rw [length_contents] at hturn
      generalize hub.probe (count % lanes.size) left ticks = probed at hnext hfound
      obtain ⟨found, stands⟩ := probed
      dsimp only at hnext hfound
      rcases hfound with ⟨hnone, rfl, hsame⟩ | ⟨item, hsome, rfl, hafter⟩
      · rw [hnone, Option.toList_none, List.append_nil] at hturn
        have hahead : (found.cursor + (lanes.size - left)) % lanes.size = (count + 1) % lanes.size := by
          rw [hsame, ← Nat.mod_add_mod count, ← hcursor, Nat.mod_add_mod]
          congr 1
          omega
        rcases ih hnext (Nat.le_of_succ_le hleft) hahead with ⟨item, more, hitem⟩ | ⟨last, hlast⟩
        · rw [hturn] at hitem
          exact .inl ⟨item, more, hitem⟩
        · rw [hturn, Nat.add_right_comm] at hlast
          exact .inr ⟨last, hlast⟩
      · rw [hsome, Option.toList_some] at hturn
        exact .inl ⟨item, count + 1, rfl, hnext, hafter, hturn⟩

/-- What the lanes have become, each of them on its own. -/
theorem map_eq {γ : Type} {f g : Lane α β → γ} (h : AfterTurns lanes patience count hub)
    (hfg : ∀ start lane times, lane ∈ hub.lanes → Lane.Turned start lane times → f lane = g start) :
    hub.lanes.toList.map f = lanes.toList.map g := by
  apply List.ext_getElem?
  intro index
  rw [List.getElem?_map, List.getElem?_map, Array.getElem?_toList, Array.getElem?_toList]
  cases hlane : hub.lanes[index]? with
  | none =>
      rw [Array.getElem?_eq_none_iff, h.size_eq] at hlane
      rw [Array.getElem?_eq_none hlane]
      rfl
  | some lane =>
      obtain ⟨start, hstart, hturned⟩ := h.lane hlane
      rw [hstart, Option.map_some, Option.map_some,
        hfg start lane _ (Array.mem_of_getElem? hlane) hturned]

end AfterTurns

/-- Nothing happens to the multiplexer while a tick is slept through in one of these states, and it
leads to another one of them. -/
def Surroundings.IsQuiet {σ : Type} (surroundings : Surroundings σ α β) (quiet : σ → Prop) : Prop :=
  ∀ hub around, quiet around → (surroundings.tick hub around).1 = hub ∧
    quiet (surroundings.tick hub around).2

/-- So it is where nothing is laid down. -/
theorem sleep_isQuiet (hasToken : Bool) (duration : Nat) :
    ({ tick := Timeline.sleep hasToken duration } : Surroundings (Timeline α) α β).IsQuiet
      fun timeline => timeline.appointments = [] := by
  intro hub timeline hnothing
  dsimp only
  rw [Timeline.sleep, hnothing]
  exact ⟨rfl, rfl⟩

/-- A call that gives up at some time does so after a certain number of ticks. -/
theorem advance_sleeping_of_ne_forever (hcancelled : hub.cancelled = false)
    (hpatience : hub.patience ≠ .forever) (ticks : Nat) :
    hub.advance (.sleeping ticks) = ({ hub with idleTicks := hub.idleTicks + 1 },
      if hub.patience.ticks 0 ≤ ticks + 1 then .returned none
        else .probing hub.lanes.size (ticks + 1)) := by
  rw [advance, if_neg (Bool.eq_false_iff.1 hcancelled), wake]
  cases hsame : hub.patience with
  | exit => rw [Patience.ticks, if_pos (Nat.le_add_left 1 ticks)]
  | retry limit => simp only [Patience.ticks, Nat.add_le_add_iff_right]
  | forever => exact absurd hsame hpatience

section Settled

variable (hsettled : ∀ lane ∈ hub.lanes, lane.Settled)

include hsettled

/-- Where every lane is settled, a sweep changes nothing. -/
theorem sweep_of_settled (ticks left : Nat) :
    hub.sweep ticks left = hub.advance (.probing 0 ticks) := by
  induction left with
  | zero => rfl
  | succ left ih =>
      have hprobe :=
        probe_probes hub ((hub.cursor + (hub.lanes.size - (left + 1))) % hub.lanes.size) left ticks
      rw [sweep_succ]
      generalize hub.probe _ left ticks = probed at hprobe
      obtain ⟨found, stands⟩ := probed
      cases hprobe with
      | serve hsource value rest _ hbuffer =>
          rw [(hsettled _ (Array.getElem_mem hsource)).1] at hbuffer
          cases hbuffer
      | shut hsource hopen _ hsenders =>
          have hclosed := (hsettled _ (Array.getElem_mem hsource)).2.2 hsenders
          exact absurd (hopen.symm.trans hclosed) (by decide)
      | pass _ => exact ih

variable (hcancelled : hub.cancelled = false)

include hcancelled

variable {σ : Type} {surroundings : Surroundings σ α β} {quiet : σ → Prop}
  (hquiet : surroundings.IsQuiet quiet)

include hquiet

/-- A call that finds every lane settled, but not all of them closed, sleeps. -/
theorem next_of_open (hopen : hub.isExhausted = false) (hpatience : hub.patience ≠ .forever)
    {around : σ} (haround : quiet around) (ticks granted : Nat) :
    hub.next surroundings around ticks (granted + 1) =
      if hub.patience.ticks 0 ≤ ticks + 1 then
        (.ended, { hub with idleTicks := hub.idleTicks + 1 }, (surroundings.tick hub around).2)
      else { hub with idleTicks := hub.idleTicks + 1 }.next surroundings
        (surroundings.tick hub around).2 (ticks + 1)
        granted := by
  obtain ⟨hsame, -⟩ := hquiet hub around haround
  have hsweep : hub.sweep ticks hub.lanes.size = (hub, .sleeping ticks) := by
    rw [sweep_of_settled hsettled, advance, hopen, hcancelled]
    rfl
  have hwake := advance_sleeping_of_ne_forever hcancelled hpatience ticks
  rw [← hsame] at hwake
  split
  · rename_i hlast
    rw [hsame, if_pos hlast] at hwake
    rw [next_of_ended hsweep (by rw [hsame, hwake]), hsame, hwake]
  · rename_i hmore
    rw [hsame, if_neg hmore] at hwake
    rw [next_of_awake hsweep (by rw [hsame, hwake]), hsame, hwake]

/-- It sleeps through all the ticks that it has. -/
theorem next_of_open_ends (hopen : hub.isExhausted = false) (hpatience : hub.patience ≠ .forever)
    {around : σ} (haround : quiet around) {ticks more : Nat}
    (hticks : hub.patience.ticks 0 = ticks + (more + 1)) : ∃ later,
      hub.next surroundings around ticks (more + 1) =
        (.ended, { hub with idleTicks := hub.idleTicks + (more + 1) }, later) := by
  induction more generalizing hub around ticks with
  | zero =>
      rw [next_of_open hsettled hcancelled hquiet hopen hpatience haround, if_pos (Nat.le_of_eq hticks)]
      exact ⟨_, rfl⟩
  | succ more ih =>
      have hleft : hub.patience.ticks 0 = ticks + 1 + (more + 1) := by
        rw [Nat.add_right_comm]
        exact hticks
      obtain ⟨later, hlater⟩ :=
        @ih { hub with idleTicks := hub.idleTicks + 1 } hsettled hcancelled hopen hpatience _
        (hquiet hub around haround).2 _ hleft
      refine ⟨later, ?_⟩
      rw [next_of_open hsettled hcancelled hquiet hopen hpatience haround, if_neg (by omega), hlater]
      dsimp only
      rw [Nat.add_assoc, Nat.add_comm 1]

/-- So it ends without a value, after all the ticks that it has if something could still come. -/
theorem next_of_settled (hends : hub.patience = .forever → hub.isExhausted = true) {around : σ}
    (haround : quiet around) : ∃ later, hub.next surroundings around 0 (hub.patience.ticks 0) = (.ended,
      { hub with idleTicks := hub.idleTicks + if hub.isExhausted then 0 else hub.patience.ticks 0 },
        later) := by
  cases hexhausted : hub.isExhausted with
  | true =>
      have hsweep : hub.sweep 0 hub.lanes.size = (hub, .returned none) := by
        rw [sweep_of_settled hsettled, advance, hexhausted]
        rfl
      exact ⟨around, next_of_returned hsweep⟩
  | false =>
      have hpatience : hub.patience ≠ .forever := fun hsame => by
        rw [hends hsame] at hexhausted
        cases hexhausted
      have hticks : ∃ more, hub.patience.ticks 0 = 0 + (more + 1) := by
        cases hsame : hub.patience with
        | exit => exact ⟨0, rfl⟩
        | retry limit => exact ⟨limit, (Nat.zero_add _).symm⟩
        | forever => exact absurd hsame hpatience
      obtain ⟨more, hmore⟩ := hticks
      obtain ⟨later, hlater⟩ :=
        next_of_open_ends hsettled hcancelled hquiet hexhausted hpatience haround hmore
      rw [Nat.zero_add] at hmore
      exact ⟨later, by rw [hmore]; exact hlater⟩

end Settled

/-- A call is known by its first sweep. -/
theorem next_congr {σ : Type} {other : Multiplexer α β} {ticks : Nat}
    (hsame : hub.sweep ticks hub.lanes.size = other.sweep ticks other.lanes.size)
    (surroundings : Surroundings σ α β) (around : σ) (granted : Nat) :
    hub.next surroundings around ticks granted = other.next surroundings around ticks granted := by
  rw [next.eq_def, hsame, ← next.eq_def]

/-- What is collected from lanes that were filled beforehand, and how it is counted. -/
structure InRounds (lanes : Array (Lane α β)) (patience : Patience) (items : List (Delivery β))
    (tally : MultiplexTally) : Prop where
  inOrder : items = rounds (contents lanes)
  /-- Nothing is lost, and nothing comes twice. -/
  whole : ∀ index lane, lanes[index]? = some lane →
    (items.filterMap fun item => if item.source = index then some item.value else none) = lane.contents
  received : tally.received = items.length
  perSource : tally.perSource = lanes.toList.map fun lane => lane.channel.buffer.size
  closed : (∀ lane ∈ lanes, lane.channel.senders = 0) → tally.idleTicks = 0
  exit : patience = .exit → (∃ lane ∈ lanes, lane.channel.senders ≠ 0) → tally.idleTicks = 1
  retry : ∀ limit, patience = .retry limit → (∃ lane ∈ lanes, lane.channel.senders ≠ 0) →
    tally.idleTicks = limit + 1

namespace AfterTurns

theorem isExhausted_eq (h : AfterTurns lanes patience count hub)
    (hsettled : ∀ lane ∈ hub.lanes, lane.Settled) :
    hub.isExhausted = lanes.all fun lane => lane.channel.senders == 0 := by
  have hflags := h.map_eq (f := Lane.closed) (g := fun lane => lane.channel.senders == 0)
    fun start lane _ hlane hturned => by
      rw [← hturned.senders_eq, Bool.eq_iff_iff, beq_iff_eq]
      exact (hsettled lane hlane).2
  have hall := congrArg (fun flags => flags.all id) hflags
  rw [List.all_map, List.all_map] at hall
  rw [isExhausted, ← Array.all_toList, ← Array.all_toList]
  exact hall

/-- Where every lane is settled, the rounds are over. -/
theorem handedOn_eq (h : AfterTurns lanes patience count hub)
    (hsettled : ∀ lane ∈ hub.lanes, lane.Settled) :
    handedOn (contents lanes) count = rounds (contents lanes) := by
  refine handedOn_eq_rounds fun source values hvalues => ?_
  rw [length_contents]
  rw [getElem?_contents] at hvalues
  obtain ⟨start, hstart, rfl⟩ := Option.map_eq_some_iff.1 hvalues
  have hsource : source < hub.lanes.size := h.size_eq ▸ (Array.getElem?_eq_some_iff.1 hstart).1
  obtain ⟨same, hsame, hturned⟩ := h.lane (Array.getElem?_eq_getElem hsource)
  rw [hstart, Option.some_inj] at hsame
  subst hsame
  rw [Lane.contents, List.length_mapIdx]
  exact hturned.length_le (hsettled _ (Array.getElem_mem hsource)).1

theorem inRounds (h : AfterTurns lanes patience count hub)
    (hsettled : ∀ lane ∈ hub.lanes, lane.Settled) :
    InRounds lanes patience (handedOn (contents lanes) count)
      { hub with idleTicks := hub.idleTicks + if hub.isExhausted then 0
        else hub.patience.ticks 0 }.tally := by
  have hinOrder := h.handedOn_eq hsettled
  have hopen (hsome : ∃ lane ∈ lanes, lane.channel.senders ≠ 0) : hub.isExhausted = false := by
    obtain ⟨lane, hlane, hsenders⟩ := hsome
    rw [h.isExhausted_eq hsettled, Bool.eq_false_iff, ne_eq, Array.all_eq_true_iff_forall_mem]
    exact fun hall => hsenders (beq_iff_eq.1 (hall lane hlane))
  refine ⟨hinOrder, fun index lane hlane => ?_, h.received, ?_, fun hclosed =>
    ?_, fun hpatience hsome => ?_, fun limit hpatience hsome => ?_⟩
  · rw [hinOrder]
    exact rounds_bySource ((getElem?_contents lanes index).trans
      (congrArg (Option.map Lane.contents) hlane))
  · refine h.map_eq fun start lane _ hlane hturned => ?_
    rw [hturned.delivered_eq, Nat.min_eq_right (hturned.length_le (hsettled lane hlane).1),
      Queue.size_eq_length]
  · have hexhausted : hub.isExhausted = true := by
      rw [h.isExhausted_eq hsettled, Array.all_eq_true_iff_forall_mem]
      exact fun lane hlane => beq_iff_eq.2 (hclosed lane hlane)
    rw [tally, hexhausted, h.idleTicks]
    rfl
  · rw [tally, hopen hsome, h.idleTicks, h.patience_eq, hpatience]
    rfl
  · rw [tally, hopen hsome, h.idleTicks, h.patience_eq, hpatience]
    exact Nat.zero_add _

section Calls

variable {σ : Type} {surroundings : Surroundings σ α β} (h : AfterTurns lanes patience count hub)
  (hnonempty : 0 < lanes.size) (hcursor : hub.cursor = count % lanes.size)
  {quiet : σ → Prop} (hquiet : surroundings.IsQuiet quiet) {around : σ} (haround : quiet around)
  (hends : patience = .forever → ∀ lane ∈ lanes, lane.channel.senders = 0)

include h hnonempty hcursor hquiet haround hends

/-- A call hands on what comes next, or it ends because the rounds are over. -/
theorem next :
    (∃ item more after, hub.next surroundings around 0 (hub.patience.ticks 0) =
      (.item item, after, around) ∧
        AfterTurns lanes patience more after ∧ after.cursor = more % lanes.size ∧
        handedOn (contents lanes) more = handedOn (contents lanes) count ++ [item] ∧
        after.buffered + 1 = hub.buffered) ∨
      ∃ after later, hub.next surroundings around 0 (hub.patience.ticks 0) = (.ended, after, later) ∧
        InRounds lanes patience (handedOn (contents lanes) count) after.tally := by
  have hbegins : (hub.cursor + (lanes.size - lanes.size)) % lanes.size = count % lanes.size := by
    rw [Nat.sub_self, Nat.add_zero, hcursor, Nat.mod_mod]
  have hbalance := (sweep_kept h.sealed 0 lanes.size).2.2
  rcases h.sweep hnonempty 0 (Nat.le_refl _) hbegins with
    ⟨item, more, hreturned, hmore, hafter, hhanded⟩ | ⟨found, hsweep, hfound, hhanded⟩
  · rw [hreturned, Turn.item?, Option.toList_some, List.length_singleton] at hbalance
    rw [← h.size_eq] at hreturned hmore hafter hbalance
    exact .inl ⟨item, more, _, next_of_returned (Prod.ext rfl hreturned), hmore, h.size_eq ▸ hafter,
      hhanded, hbalance⟩
  · rw [← h.size_eq] at hsweep
    have hsettled : ∀ lane ∈ found.lanes, lane.Settled := by
      have hnone : ∀ offset, ¬offset < hub.lanes.size - hub.lanes.size := by
        rw [Nat.sub_self]
        exact Nat.not_lt_zero
      refine settled_of_sweep h.sealed (Nat.le_refl _)
        (fun _ hoffset => absurd hoffset (hnone _)) hsweep ?_
      split <;> rfl
    have hsame : hub.sweep 0 hub.lanes.size = found.sweep 0 found.lanes.size := by
      rw [hsweep, sweep_of_settled hsettled]
    have hover : found.patience = .forever → found.isExhausted = true := by
      intro hpatience
      rw [hfound.isExhausted_eq hsettled, Array.all_eq_true_iff_forall_mem]
      exact fun lane hlane => beq_iff_eq.2 (hends (hfound.patience_eq.symm.trans hpatience) lane hlane)
    obtain ⟨later, hlater⟩ := next_of_settled hsettled hfound.cancelled hquiet hover haround
    refine .inr ⟨_, later, ?_, hhanded ▸ hfound.inRounds hsettled⟩
    rw [next_congr hsame, h.patience_eq, ← hfound.patience_eq, hlater]

theorem collect (hserved : ∀ hub around, surroundings.served hub around = (hub, around))
    {granted : Multiplexer α β → σ → Nat}
    (hgranted : ∀ hub, granted hub around = hub.patience.ticks 0) {items : Array (Delivery β)}
    (hitems : items.toList = handedOn (contents lanes) count) {values : Nat}
    (hvalues : hub.buffered = values) : ∃ found after later,
      hub.collect surroundings granted around items values = some (found, after, later) ∧
        InRounds lanes patience found.toList after.tally := by
  induction values generalizing hub count items with
  | zero =>
      rcases h.next hnonempty hcursor hquiet haround hends with
        ⟨item, more, after, -, -, -, -, hbalance⟩ | ⟨after, later, hover, hrounds⟩
      · rw [hvalues] at hbalance
        cases hbalance
      · rw [← hgranted] at hover
        exact ⟨items, after, later, collect_of_ended hover items 0, hitems ▸ hrounds⟩
  | succ values ih =>
      rcases h.next hnonempty hcursor hquiet haround hends with
        ⟨item, more, after, hitem, hmore, hafter, hhanded, hbalance⟩ | ⟨after, later, hover, hrounds⟩
      · rw [← hgranted] at hitem
        have hpushed : (items.push item).toList = handedOn (contents lanes) more := by
          rw [Array.toList_push, hitems, hhanded]
        obtain ⟨found, last, later, hcollect, hrounds⟩ :=
          ih hmore hafter hpushed (Nat.succ_injective (hbalance.trans hvalues))
        refine ⟨found, last, later, ?_, hrounds⟩
        rw [collect_of_item hitem, hserved]
        exact hcollect
      · rw [← hgranted] at hover
        exact ⟨items, after, later, collect_of_ended hover items _, hitems ▸ hrounds⟩

end Calls

end AfterTurns

/-- How many ticks each call of `collectAll` may sleep through. -/
def granted (tick : Nat) (hub : Multiplexer α β) (timeline : Timeline α) : Nat :=
  hub.patience.ticks (timeline.ticksLeft tick)

section Preloaded

variable (hnonempty : 0 < lanes.size)
  (hfresh : ∀ lane ∈ lanes, lane.closed = false ∧ lane.delivered = 0)

include hnonempty hfresh

theorem collectAll_inRounds (hends : patience = .forever → ∀ lane ∈ lanes, lane.channel.senders = 0)
    (tick now : Nat) (hasToken : Bool) : ∃ items after later,
      collectAll tick hasToken { lanes, patience } ⟨now, []⟩ = some (.ok items, after, later) ∧
        InRounds lanes patience items after.tally := by
  have hbegins : (0 : Nat) = 0 % lanes.size := (Nat.zero_mod _).symm
  have hgranted (hub : Multiplexer α β) : hub.granted tick ⟨now, []⟩ = hub.patience.ticks 0 := rfl
  have hitems : (#[] : Array (Delivery β)).toList = handedOn (contents lanes) 0 := rfl
  obtain ⟨items, after, later, hcollect, hrounds⟩ :=
    (AfterTurns.ofLanes hfresh patience).collect hnonempty hbegins
    (sleep_isQuiet hasToken tick) rfl hends (fun _ _ => rfl) hgranted hitems rfl
  refine ⟨items.toList, after, later, ?_, hrounds⟩
  have hsome : lanes.isEmpty = false := by
    rw [Array.isEmpty, decide_eq_false (Nat.ne_of_gt hnonempty)]
  rw [collectAll, hsome, if_neg Bool.false_ne_true]
  exact congrArg (Option.map _) hcollect

/-- **Channels that were filled beforehand are collected in rounds.** Whatever is buffered in the
channels, and whether their senders are gone or not, all of it is handed on once, by the places of
the values in their channels and, at one place, by the indices of the channels. A tick is only slept
through at the end, if some sender is left. -/
theorem collects_in_rounds (hends : patience = .forever → ∀ lane ∈ lanes, lane.channel.senders = 0)
    (tick now : Nat) (hasToken : Bool) : ∃ items after later,
      collectAll tick hasToken { lanes, patience } ⟨now, []⟩ = some (.ok items, after, later) ∧
        InRounds lanes patience items after.tally ∧ collectUntilIdle tick lanes = some (.ok items) := by
  obtain ⟨items, after, later, hcollect, hrounds⟩ :=
    collectAll_inRounds hnonempty hfresh hends tick now hasToken
  have hidle : Patience.exit = .forever → ∀ lane ∈ lanes, lane.channel.senders = 0 := nofun
  obtain ⟨same, _, _, hsame, hagain⟩ := collectAll_inRounds hnonempty hfresh hidle tick 0 false
  refine ⟨items, after, later, hcollect, hrounds, ?_⟩
  rw [collectUntilIdle, hsame, hrounds.inOrder, ← hagain.inOrder]
  rfl

end Preloaded

/-- Four channels: one is open and holds two values, one is closed and empty, one is closed and
holds three values, and one is open and empty. -/
def unevenLanes : Array (Lane Nat (Nat × Nat)) :=
  (([.send 0 10, .send 2 30, .send 2 31, .send 2 32, .close 2, .send 0 11, .close 1] :
      List (Action Nat)).foldl (Timeline.perform false)
    { lanes := .replicate 4 { channel := .ofCapacity 3 1, convert := Prod.mk },
      patience := .exit }).lanes

theorem collects_in_rounds_uneven_lanes : ∃ items after later,
    collectAll 5 false { lanes := unevenLanes, patience := .retry 2 } ⟨0, []⟩ =
      some (.ok items, after, later) ∧
      items = [⟨0, (0, 10)⟩, ⟨2, (0, 30)⟩, ⟨0, (1, 11)⟩, ⟨2, (1, 31)⟩, ⟨2, (2, 32)⟩] ∧
      after.tally = ⟨5, [2, 0, 3, 0], 3⟩ ∧ collectUntilIdle 5 unevenLanes = some (.ok items) := by
  have hfresh : ∀ lane ∈ unevenLanes, lane.closed = false ∧ lane.delivered = 0 := by
    decide +kernel
  have hnonempty : 0 < unevenLanes.size := by
    decide +kernel
  have hends : Patience.retry 2 = .forever → ∀ lane ∈ unevenLanes, lane.channel.senders = 0 := nofun
  obtain ⟨items, after, later, hcollect, hrounds, hidle⟩ :=
    collects_in_rounds hnonempty hfresh hends 5 0 false
  have hitems : items = [⟨0, (0, 10)⟩, ⟨2, (0, 30)⟩, ⟨0, (1, 11)⟩, ⟨2, (1, 31)⟩, ⟨2, (2, 32)⟩] :=
    hrounds.inOrder.trans (by decide +kernel)
  have hperSource : after.tally.perSource = [2, 0, 3, 0] := hrounds.perSource.trans (by decide +kernel)
  have hidleTicks : after.tally.idleTicks = 3 := hrounds.retry 2 rfl (by decide +kernel)
  have hreceived : after.tally.received = 5 := hrounds.received.trans (by rw [hitems]; rfl)
  refine ⟨items, after, later, hcollect, hitems, ?_, hidle⟩
  rw [← hperSource, ← hidleTicks, ← hreceived]

end Multiplexer

end ParallelFilter
