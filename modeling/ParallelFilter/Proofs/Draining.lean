import ParallelFilter.ResultChannel.Life
import ParallelFilter.Proofs.Channels
import ParallelFilter.Proofs.Runs

/-! The drain's side of a result channel, whatever order its users act in. What was sent has been
given out or is buffered. The drain ends at one poll, the first that finds the channel closed and
empty, and this moment decides whether there is a violation; what comes before it is values and
waiting, and what comes after it is the end over again. A poll that the receiver puts off is
waiting, and changes nothing. A collection is so many polls, and its result is settled at the same
moment. -/

namespace ParallelFilter

namespace Polled

def value? : Polled → Option Nat
  | .value given => some given
  | .violation _ | .finished | .pending => none

/-- Whether the drain says that it has ended, be it with a violation. -/
def isEnd : Polled → Bool
  | .violation _ | .finished => true
  | .value _ | .pending => false

end Polled

namespace ResultChannel.Life

/-- What the drain has given out, oldest first. -/
def delivered (life : Life) : List Nat :=
  life.answers.filterMap Polled.value?

def buffered (life : Life) : List Nat :=
  life.link.channel.buffer.toList

/-- Whether the drain was collected. -/
def isCollected (life : Life) : Bool :=
  match life.custody with
  | .collected _ => true
  | .held | .collecting _ => false

/-- The life after the drain has answered. -/
def answered (life : Life) (answer : Polled) (link : ResultChannel) : Life :=
  { life with link, custody := life.custody.note answer, answers := life.answers ++ [answer] }

variable {life next last : Life} {event : Event} {events : List Event}

/-- What may happen, with all that each event needs and changes. -/
inductive Happens (life : Life) : Event → Life → Prop where
  | send (value : Nat) (hheld : life.link.channel.senders ≠ 0)
      (hroom : life.link.channel.buffer.size < life.link.channel.capacity) :
      Happens life (.send value)
        { life with link := life.link.put value, sent := life.sent ++ [value] }
  | refuse (value : Nat) (hheld : life.link.channel.senders ≠ 0)
      (hfull : life.link.channel.receiving = true →
        life.link.channel.capacity ≤ life.link.channel.buffer.size) :
      Happens life (.send value) life
  | dropTicket (hheld : life.link.barrier.remaining ≠ 0) :
      Happens life .dropTicket { life with link := life.link.dropTicket }
  | dropSender (hheld : life.link.channel.senders ≠ 0) :
      Happens life .dropSender { life with link := life.link.dropSender }
  | poll (answer : Polled) (link : ResultChannel) (hopen : life.isCollected = false)
      (hpolls : life.link.Polls answer link) : Happens life .poll (life.answered answer link)
  | stall (hopen : life.isCollected = false) :
      Happens life .stall (life.answered life.link.stalled life.link)
  | collect (hheld : life.custody = .held) :
      Happens life .collect { life with custody := .collecting [] }

/-- There is a drain to poll until it was collected. -/
theorem asked_eq (life : Life) (stalls : Bool) : life.asked stalls =
    if life.isCollected then none
    else some (life.answered (life.link.ask stalls).1 (life.link.ask stalls).2) := by
  unfold isCollected
  cases hcustody : life.custody with
  | collected _ => simp only [asked, hcustody, if_true]
  | held | collecting _ =>
      simp only [asked, hcustody, Bool.false_eq_true, if_false, answered]

theorem step_poll (hopen : life.isCollected = false) :
    life.step .poll = some (life.answered life.link.poll.1 life.link.poll.2) :=
  (life.asked_eq false).trans (if_neg (Bool.eq_false_iff.1 hopen))

theorem step_happens (h : life.step event = some next) : Happens life event next := by
  cases event with
  | send value =>
      simp only [step] at h
      split at h
      · rename_i hheld
        cases hoffer : life.link.channel.offer value with
        | sent channel =>
            rw [hoffer] at h
            cases h
            obtain ⟨-, hroom, rfl⟩ := Channel.offer_eq_sent.1 hoffer
            exact .send value (Nat.ne_of_gt hheld) hroom
        | full | closed =>
            rw [hoffer] at h
            cases h
            refine .refuse value (Nat.ne_of_gt hheld) fun hopen => Nat.not_lt.1 fun hroom => ?_
            rw [Channel.offer_eq_sent.2 ⟨hopen, hroom, rfl⟩] at hoffer
            cases hoffer
      · cases h
  | dropTicket =>
      simp only [step] at h
      split at h
      · rename_i hheld
        cases h
        exact .dropTicket (Nat.ne_of_gt hheld)
      · cases h
  | dropSender =>
      simp only [step] at h
      split at h
      · rename_i hheld
        cases h
        exact .dropSender (Nat.ne_of_gt hheld)
      · cases h
  | poll =>
      rw [step, asked_eq, Option.ite_none_left_eq_some] at h
      obtain ⟨hopen, h⟩ := h
      cases h
      exact .poll _ _ (Bool.eq_false_iff.2 hopen) life.link.polls
  | stall =>
      rw [step, asked_eq, Option.ite_none_left_eq_some, ask_true] at h
      obtain ⟨hopen, h⟩ := h
      cases h
      exact .stall (Bool.eq_false_iff.2 hopen)
  | collect =>
      simp only [step] at h
      split at h
      · rename_i hheld
        cases h
        exact .collect hheld
      · cases h
      · cases h

section Answered

variable {answer : Polled} {link : ResultChannel}

theorem delivered_answered :
    (life.answered answer link).delivered = life.delivered ++ answer.value?.toList := by
  rw [delivered, answered, List.filterMap_append, delivered]
  cases answer <;> rfl

theorem delivered_answered_of_none (hanswer : answer.value? = none) :
    (life.answered answer link).delivered = life.delivered := by
  rw [delivered_answered, hanswer, Option.toList_none, List.append_nil]

/-- A collection is over with the answer that ends the drain. -/
theorem isCollected_answered (hopen : life.isCollected = false) (hanswer : answer.isEnd = false) :
    (life.answered answer link).isCollected = false := by
  unfold isCollected at hopen ⊢
  rw [answered]
  cases hcustody : life.custody with
  | held => cases answer <;> rfl
  | collecting values =>
      cases answer with
      | value _ | pending => rfl
      | violation _ | finished => cases hanswer
  | collected result =>
      rw [hcustody] at hopen
      cases hopen

end Answered

/-- What holds at every moment: nothing that was sent is lost, and the drain ends once. -/
structure Sound (life : Life) : Prop where
  sent : life.sent = life.delivered ++ life.buffered
  received : life.link.received = life.delivered.length
  running : life.link.finished = false →
    (∀ answer ∈ life.answers, answer.isEnd = false) ∧ life.isCollected = false
  ended : life.link.finished = true →
    (life.link.channel.senders = 0 ∧ life.buffered = []) ∧
      ∃ before closing count, life.answers = before ++ closing :: .replicate count .finished ∧
        (∀ answer ∈ before, answer.isEnd = false) ∧ closing.isEnd = true

theorem Sound.ofLink {capacity workers : Nat} {link : ResultChannel}
    (hlink : make capacity workers = .ok link) : (ofLink link).Sound := by
  obtain ⟨-, -, rfl⟩ := make_eq_ok.1 hlink
  exact ⟨rfl, rfl, fun _ => ⟨nofun, rfl⟩, nofun⟩

/-- Waiting changes nothing but the answers. -/
theorem Sound.waiting (h : life.Sound) (hopen : life.isCollected = false)
    (hrunning : life.link.finished = false) : (life.answered .pending life.link).Sound := by
  have hdelivered : (life.answered .pending life.link).delivered = life.delivered :=
    delivered_answered_of_none rfl
  refine ⟨?_, ?_, fun _ => ⟨fun other hother => ?_, isCollected_answered hopen rfl⟩, fun hended => ?_⟩
  · rw [hdelivered]
    exact h.sent
  · rw [hdelivered]
    exact h.received
  · rcases List.mem_append.1 hother with hother | hother
    · exact (h.running hrunning).1 other hother
    · rw [List.mem_singleton.1 hother]
      rfl
  · exact absurd (hrunning.symm.trans hended) (by decide)

theorem Sound.answered (h : life.Sound) (hopen : life.isCollected = false) {answer : Polled}
    {link : ResultChannel} (hpolls : life.link.Polls answer link) :
    (life.answered answer link).Sound := by
  have hsame (hanswer : answer.value? = none)
      (hbuffer : link.channel.buffer = life.link.channel.buffer) :
      (life.answered answer link).sent =
        (life.answered answer link).delivered ++ (life.answered answer link).buffered := by
    rw [delivered_answered_of_none hanswer, buffered, Life.answered, hbuffer]
    exact h.sent
  have hreceived (hanswer : answer.value? = none) (hlink : link.received = life.link.received) :
      (life.answered answer link).link.received = (life.answered answer link).delivered.length := by
    rw [delivered_answered_of_none hanswer]
    exact hlink.trans h.received
  have hrunning (hfinished : life.link.finished = false) (hanswer : answer.isEnd = false) :
      (∀ other ∈ (life.answered answer link).answers, other.isEnd = false) ∧
        (life.answered answer link).isCollected = false := by
    refine ⟨fun other hother => ?_, isCollected_answered hopen hanswer⟩
    rcases List.mem_append.1 hother with hother | hother
    · exact (h.running hfinished).1 other hother
    · rwa [List.mem_singleton.1 hother]
  have hends (hfinished : life.link.finished = false) (hanswer : answer.isEnd = true) :
      ∃ before closing count, (life.answered answer link).answers =
          before ++ closing :: .replicate count .finished ∧
        (∀ other ∈ before, other.isEnd = false) ∧ closing.isEnd = true :=
    ⟨life.answers, answer, 0, rfl, (h.running hfinished).1, hanswer⟩
  cases hpolls with
  | ended hfinished =>
      obtain ⟨hclosed, before, closing, count, hanswers, hbefore, hclosing⟩ := h.ended hfinished
      refine ⟨hsame rfl rfl, hreceived rfl rfl, fun hfalse => ?_,
        fun _ => ⟨hclosed, before, closing, count + 1, ?_, hbefore, hclosing⟩⟩
      · exact absurd (hfinished.symm.trans hfalse) (by decide)
      · rw [Life.answered, hanswers, List.replicate_succ', List.append_assoc, List.cons_append]
  | deliver value rest hfinished hbuffer =>
      refine ⟨?_, ?_, fun _ => hrunning hfinished rfl, fun htrue => ?_⟩
      · rw [delivered_answered, List.append_assoc]
        exact h.sent.trans (congrArg _ hbuffer)
      · rw [delivered_answered, List.length_append]
        exact congrArg (· + 1) h.received
      · exact absurd (hfinished.symm.trans htrue) (by decide)
  | wait hfinished _ _ => exact h.waiting hopen hfinished
  | finish hfinished hbuffer hsenders _ | violate hfinished hbuffer hsenders _ =>
      refine ⟨hsame rfl rfl, hreceived rfl rfl, nofun, fun _ =>
        ⟨⟨hsenders, hbuffer⟩, hends hfinished rfl⟩⟩

theorem Sound.stalled (h : life.Sound) (hopen : life.isCollected = false) :
    (life.answered life.link.stalled life.link).Sound := by
  unfold ResultChannel.stalled
  cases hfinished : life.link.finished with
  | false => exact h.waiting hopen hfinished
  | true => exact h.answered hopen (.ended hfinished)

theorem Sound.step (h : life.Sound) (hstep : life.step event = some next) : next.Sound := by
  cases step_happens hstep with
  | send value hheld _ =>
      refine ⟨?_, h.received, h.running, fun hfinished => absurd (h.ended hfinished).1.1 hheld⟩
      show life.sent ++ [value] = life.delivered ++ (life.link.channel.buffer.push value).toList
      rw [Queue.toList_push, h.sent, List.append_assoc]
      rfl
  | refuse _ _ _ => exact h
  | dropTicket _ => exact ⟨h.sent, h.received, h.running, h.ended⟩
  | dropSender hheld =>
      exact ⟨h.sent, h.received, h.running, fun hfinished => absurd (h.ended hfinished).1.1 hheld⟩
  | poll answer link hopen hpolls => exact h.answered hopen hpolls
  | stall hopen => exact h.stalled hopen
  | collect _ => exact ⟨h.sent, h.received, fun hfinished => ⟨(h.running hfinished).1, rfl⟩, h.ended⟩

theorem Sound.follow (h : life.Sound) (hrun : life.follow events = some last) : last.Sound :=
  foldlM_induction (fun _ _ _ _ h hstep => h.step hstep) h hrun

/-- Each drop is of one ticket, or of the sender, and nothing else is. -/
theorem follow_counts (hrun : life.follow events = some last) :
    last.link.barrier.remaining + events.count .dropTicket = life.link.barrier.remaining ∧
      last.link.barrier.expected = life.link.barrier.expected ∧
        last.link.channel.senders + events.count .dropSender = life.link.channel.senders := by
  induction events generalizing life with
  | nil =>
      cases hrun
      exact ⟨rfl, rfl, rfl⟩
  | cons event events ih =>
      obtain ⟨next, hnext, hrest⟩ := foldlM_cons_eq_some.1 hrun
      obtain ⟨htickets, hexpected, hsenders⟩ := ih hrest
      simp only [List.count_cons, beq_iff_eq]
      cases step_happens hnext with
      | send _ _ _ | refuse _ _ _ | stall _ | collect _ => exact ⟨htickets, hexpected, hsenders⟩
      | dropTicket hheld =>
          simp only [dropTicket, Barrier.arrive_remaining] at htickets
          refine ⟨?_, hexpected.trans (Barrier.arrive_expected _), hsenders⟩
          rw [if_pos rfl]
          omega
      | dropSender hheld =>
          simp only [ResultChannel.dropSender, Channel.dropSender] at hsenders
          refine ⟨htickets, hexpected, ?_⟩
          rw [if_pos rfl]
          omega
      | poll answer link _ hpolls =>
          obtain ⟨hbarrier, hkept⟩ := hpolls.kept
          rw [← hbarrier, ← hkept]
          exact ⟨htickets, hexpected, hsenders⟩

/-- When the drain has ended, nothing is sent any more, and a collection keeps its result. -/
theorem Sound.step_of_finished (h : life.Sound) (hfinished : life.link.finished = true)
    (hstep : life.step event = some next) :
    next.link.finished = true ∧ next.sent = life.sent ∧
      (life.isCollected = true → next.custody = life.custody) := by
  have hsenders := (h.ended hfinished).1.1
  cases step_happens hstep with
  | send _ hheld _ => exact absurd hsenders hheld
  | refuse _ _ _ | dropTicket _ | dropSender _ => exact ⟨hfinished, rfl, fun _ => rfl⟩
  | poll answer link hopen hpolls =>
      refine ⟨?_, rfl, fun hcollected => absurd (hcollected.symm.trans hopen) (by decide)⟩
      cases hpolls with
      | ended _ => exact hfinished
      | finish _ _ _ _ | violate _ _ _ _ => rfl
      | deliver _ _ hrunning _ | wait hrunning _ _ =>
          exact absurd (hfinished.symm.trans hrunning) (by decide)
  | stall hopen =>
      exact ⟨hfinished, rfl, fun hcollected => absurd (hcollected.symm.trans hopen) (by decide)⟩
  | collect hheld =>
      refine ⟨hfinished, rfl, fun hcollected => ?_⟩
      rw [isCollected, hheld] at hcollected
      cases hcollected

theorem Sound.follow_of_finished (h : life.Sound) (hfinished : life.link.finished = true)
    (hrun : life.follow events = some last) :
    last.link.finished = true ∧ last.sent = life.sent ∧
      (life.isCollected = true → last.custody = life.custody) := by
  induction events generalizing life with
  | nil =>
      cases hrun
      exact ⟨hfinished, rfl, fun _ => rfl⟩
  | cons event events ih =>
      obtain ⟨next, hnext, hrest⟩ := foldlM_cons_eq_some.1 hrun
      obtain ⟨hended, hsent, hcustody⟩ := h.step_of_finished hfinished hnext
      obtain ⟨hlast, hmore, hkept⟩ := ih (h.step hnext) hended hrest
      refine ⟨hlast, hmore.trans hsent, fun hcollected => ?_⟩
      have hsame := hcustody hcollected
      refine (hkept ?_).trans hsame
      rwa [isCollected, hsame, ← isCollected]

/-- The moment at which a drain ends: a poll that finds the channel closed and empty. -/
theorem Sound.exists_moment (h : life.Sound) (hfinished : life.link.finished = false)
    (hrun : life.follow events = some last) (hlast : last.link.finished = true) :
    ∃ before after moment, events = before ++ .poll :: after ∧ life.follow before = some moment ∧
      moment.Sound ∧ moment.isCollected = false ∧ moment.link.finished = false ∧
        moment.buffered = [] ∧ moment.link.channel.senders = 0 ∧
          (moment.answered moment.link.poll.1 moment.link.poll.2).follow after = some last := by
  induction events generalizing life with
  | nil =>
      cases hrun
      exact absurd (hfinished.symm.trans hlast) (by decide)
  | cons event events ih =>
      obtain ⟨next, hnext, hrest⟩ := foldlM_cons_eq_some.1 hrun
      cases hended : next.link.finished with
      | false =>
          obtain ⟨before, after, moment, rfl, hbefore, hmoment⟩ := ih (h.step hnext) hended hrest
          refine ⟨event :: before, after, moment, rfl, ?_, hmoment⟩
          rw [Life.follow, List.foldlM_cons, hnext]
          exact hbefore
      | true =>
          cases step_happens hnext with
          | poll answer link hopen hpolls =>
              have hstep := step_poll hopen
              rw [hnext] at hstep
              rw [Option.some_inj.1 hstep] at hrest
              refine ⟨[], events, life, rfl, rfl, h, hopen, hfinished, ?_⟩
              cases hpolls with
              | finish _ hbuffer hsenders _ | violate _ hbuffer hsenders _ =>
                  exact ⟨hbuffer, hsenders, hrest⟩
              | ended htrue => exact absurd (hfinished.symm.trans htrue) (by decide)
              | deliver _ _ _ _ | wait _ _ _ => exact absurd (hfinished.symm.trans hended) (by decide)
          | _ => exact absurd (hfinished.symm.trans hended) (by decide)

/-- A collection that began when `base` had been given out is over, or has taken what was given out
since. -/
def Collects (base : List Nat) (life : Life) : Prop :=
  life.isCollected = true ∨
    ∃ values, life.custody = .collecting values ∧ life.delivered = base ++ values

theorem Collects.answered {base : List Nat} (h : life.Collects base) (hopen : life.isCollected = false)
    {answer : Polled} {link : ResultChannel} : (life.answered answer link).Collects base := by
  rcases h with hcollected | ⟨values, hcustody, hdelivered⟩
  · exact absurd (hcollected.symm.trans hopen) (by decide)
  · rw [Collects, isCollected, delivered_answered, hdelivered, Life.answered, hcustody]
    cases answer with
    | value value => exact .inr ⟨values ++ [value], rfl, List.append_assoc _ _ _⟩
    | pending => exact .inr ⟨values, rfl, List.append_nil _⟩
    | finished | violation _ => exact .inl rfl

theorem Collects.step {base : List Nat} (h : life.Collects base) (hstep : life.step event = some next) :
    next.Collects base := by
  cases step_happens hstep with
  | send _ _ _ | refuse _ _ _ | dropTicket _ | dropSender _ => exact h
  | collect hheld =>
      rcases h with hcollected | ⟨values, hcustody, -⟩
      · rw [isCollected, hheld] at hcollected
        cases hcollected
      · rw [hheld] at hcustody
        cases hcustody
  | poll _ _ hopen _ | stall hopen => exact h.answered hopen

theorem Collects.follow {base : List Nat} (h : life.Collects base)
    (hrun : life.follow events = some last) :
    last.Collects base :=
  foldlM_induction (fun _ _ _ _ h hstep => h.step hstep) h hrun

/-- What a collection gives whose drain ends as the channel stands. -/
def verdict (link : ResultChannel) (values : List Nat) : Except Error (List Nat) :=
  if link.barrier.remaining = 0 then .ok values else .error (.orderingViolation link.orderingFault)

/-- The poll that finds the channel closed and empty settles a collection. -/
theorem custody_answered {values : List Nat} (hcustody : life.custody = .collecting values)
    (hrunning : life.link.finished = false) (hbuffer : life.buffered = [])
    (hsenders : life.link.channel.senders = 0) :
    (life.answered life.link.poll.1 life.link.poll.2).custody = .collected (verdict life.link values) ∧
      (life.answered life.link.poll.1 life.link.poll.2).link.finished = true := by
  rw [poll_of_drained hrunning hbuffer hsenders, answered, hcustody, verdict, closing]
  split <;> exact ⟨rfl, rfl⟩

/-- The life in which the drain begins to be collected. -/
def begun (life : Life) : Life :=
  { life with custody := .collecting [] }

theorem follow_collect (hheld : life.custody = .held) :
    life.follow (.collect :: events) = life.begun.follow events := by
  have hstep : life.step .collect = some life.begun := by simp only [step, hheld, begun]
  rw [follow, List.foldlM_cons, hstep]
  rfl

theorem Sound.begun (h : life.Sound) (hrunning : life.link.finished = false) : life.begun.Sound :=
  ⟨h.sent, h.received, fun hfinished => ⟨(h.running hfinished).1, rfl⟩,
    fun hfinished => absurd (hrunning.symm.trans hfinished) (by decide)⟩

theorem begun_collects : life.begun.Collects life.delivered :=
  .inr ⟨[], rfl, (List.append_nil _).symm⟩

/-- A collection is over at the moment at which the drain ends, and gives all values that were still
to come if no ticket is held at that moment. -/
theorem Sound.settled (h : life.Sound) (hrunning : life.link.finished = false)
    (hrun : life.begun.follow events = some last) (hlast : last.link.finished = true) :
    ∃ before after moment values, events = before ++ .poll :: after ∧
      life.begun.follow before = some moment ∧ moment.buffered = [] ∧
        moment.link.channel.senders = 0 ∧ last.sent = life.delivered ++ values ∧
          last.custody = .collected (verdict moment.link values) := by
  obtain ⟨before, after, moment, rfl, hbefore, hsound, hopen, hmoment, hbuffer, hsenders, hafter⟩ :=
    (h.begun hrunning).exists_moment hrunning hrun hlast
  rcases begun_collects.follow hbefore with hcollected | ⟨values, hcustody, hdelivered⟩
  · exact absurd (hcollected.symm.trans hopen) (by decide)
  · obtain ⟨hsettled, hfinished⟩ := custody_answered hcustody hmoment hbuffer hsenders
    obtain ⟨-, hsent, hkept⟩ :=
      (hsound.answered hopen moment.link.polls).follow_of_finished hfinished hafter
    refine ⟨before, after, moment, values, rfl, hbefore, hbuffer, hsenders, ?_, ?_⟩
    · rw [hsent, ← hdelivered]
      show moment.sent = moment.delivered
      rw [hsound.sent, hbuffer, List.append_nil]
    · rw [hkept (by rw [isCollected, hsettled]), hsettled]

/-- The channel once the drain has given out a value, with the others still buffered. -/
def leaving (link : ResultChannel) (rest : Queue Nat) : ResultChannel :=
  { link with channel.buffer := rest, received := link.received + 1 }

/-- While there is something buffered, a poll gives the oldest of it. -/
theorem exists_deliver (hrunning : life.link.finished = false) (hbuffer : life.buffered ≠ []) :
    ∃ value rest, life.buffered = value :: rest.toList ∧
      life.link.poll = (.value value, leaving life.link rest) := by
  have hpolls := life.link.polls
  generalize life.link.poll = polled at hpolls ⊢
  obtain ⟨answer, link⟩ := polled
  cases hpolls with
  | ended hfinished => exact absurd (hfinished.symm.trans hrunning) (by decide)
  | deliver value rest _ hfull => exact ⟨value, rest, hfull, rfl⟩
  | wait _ hempty _ | finish _ hempty _ _ | violate _ hempty _ _ => exact absurd hempty hbuffer

/-- Once the sender is gone, so many polls as there are values left, and one, bring the drain to its
end. That settles a collection. -/
theorem exists_ended (hopen : life.isCollected = false) (hrunning : life.link.finished = false)
    (hsenders : life.link.channel.senders = 0) :
    ∃ last, life.follow (.replicate (life.buffered.length + 1) .poll) = some last ∧
      last.link.finished = true ∧
      last.answers = life.answers ++ (life.buffered.map .value ++ [life.link.closing]) ∧
      ∀ values, life.custody = .collecting values →
        last.custody = .collected (verdict life.link (values ++ life.buffered)) := by
  generalize hlength : life.buffered.length = count
  induction count generalizing life with
  | zero =>
      have hbuffer := List.eq_nil_of_length_eq_zero hlength
      have hpoll := poll_of_drained hrunning hbuffer hsenders
      refine ⟨life.answered life.link.poll.1 life.link.poll.2, ?_, ?_, ?_, fun values hcustody => ?_⟩
      · rw [Life.follow, List.replicate_one, List.foldlM_cons, step_poll hopen]
        rfl
      · rw [hpoll, answered]
      · rw [hbuffer, hpoll, answered]
        rfl
      · rw [(custody_answered hcustody hrunning hbuffer hsenders).1, hbuffer, List.append_nil]
  | succ count ih =>
      obtain ⟨value, rest, hbuffer, hpoll⟩ :=
        exists_deliver hrunning fun hnil => absurd (hlength.symm.trans (congrArg _ hnil))
          (Nat.succ_ne_zero _)
      rw [hbuffer, List.length_cons] at hlength
      have hstep := step_poll hopen
      rw [hpoll] at hstep
      have hkept : (life.answered (.value value) (leaving life.link rest)).isCollected = false :=
        isCollected_answered hopen rfl
      obtain ⟨last, hrun, hlast, hanswers, hsettled⟩ :=
        ih hkept hrunning hsenders (Nat.succ_inj.1 hlength)
      refine ⟨last, ?_, hlast, ?_, fun values hcustody => ?_⟩
      · rw [Life.follow, List.replicate_succ, List.foldlM_cons, hstep]
        exact hrun
      · rw [hanswers, answered, hbuffer, List.append_assoc]
        rfl
      · have hnext := congrArg (Custody.note · (.value value)) hcustody
        rw [hsettled _ hnext, hbuffer, List.append_assoc]
        rfl

/-- What a collection gives whose drain nobody sends to meanwhile. -/
theorem collect_eq (hrunning : life.link.finished = false) :
    life.link.collect =
      if life.link.channel.senders = 0 then some (verdict life.link life.buffered) else none := by
  rw [collect, takeBuffered_eq]
  dsimp only
  have hpolls := polls { life.link with
    channel.buffer := .empty
    received := life.link.received + life.link.channel.buffer.size }
  generalize poll _ = polled at hpolls ⊢
  obtain ⟨answer, link⟩ := polled
  cases hpolls with
  | ended hfinished => exact absurd (hfinished.symm.trans hrunning) (by decide)
  | deliver value rest _ hfull => cases hfull
  | wait _ _ hheld => exact (if_neg hheld).symm
  | finish _ _ hsenders hcomplete =>
      rw [if_pos hsenders, verdict, if_pos hcomplete]
      rfl
  | violate _ _ hsenders hheld =>
      rw [if_pos hsenders, verdict, if_neg hheld]
      rfl

/-- What is known of a drain after the events, the next poll included, whether the receiver puts it
off or not. -/
structure Faithful (workers : Nat) (events : List Event) (life : Life) : Prop where
  /-- What was given out is what was sent, up to what is still buffered. -/
  sent : life.sent = life.delivered ++ life.buffered
  received : life.link.received = life.delivered.length
  /-- A poll that is not put off is pending just where nothing is buffered and the sender is held.
  One that the receiver puts off is pending as long as the drain has not ended. -/
  waits : ∀ stalls, (life.link.ask stalls).1 = .pending ↔
    stalls = true ∧ life.link.finished = false ∨ life.buffered = [] ∧ .dropSender ∉ events
  idle : ∀ stalls, (life.link.ask stalls).1 = .pending → (life.link.ask stalls).2 = life.link
  ends : ∀ stalls, life.link.finished = false →
    ((life.link.ask stalls).2.finished = true ↔
      stalls = false ∧ life.buffered = [] ∧ .dropSender ∈ events)
  violates : ∀ stalls fault, (life.link.ask stalls).1 = .violation fault ↔
    stalls = false ∧ life.link.finished = false ∧ life.buffered = [] ∧ .dropSender ∈ events ∧
      events.count .dropTicket < workers ∧ fault = .closedEarly (events.count .dropTicket) workers
  fused : life.link.finished = true → ∀ stalls, life.link.ask stalls = (.finished, life.link)
  terminated : life.link.finished = true ↔ ∃ answer ∈ life.answers, answer.isEnd = true
  /-- It has ended once: after values and waiting it gave one answer, then only the end over again. -/
  ended : life.link.finished = true → life.delivered = life.sent ∧
    ∃ before closing count, life.answers = before ++ closing :: .replicate count .finished ∧
      (∀ answer ∈ before, answer.isEnd = false) ∧ closing.isEnd = true

theorem Sound.faithful (h : life.Sound) {workers : Nat}
    (hexpected : life.link.barrier.expected = workers)
    (htickets : life.link.barrier.remaining + events.count .dropTicket = workers)
    (hsender : life.link.channel.senders = 0 ↔ .dropSender ∈ events) :
    life.Faithful workers events := by
  refine ⟨h.sent, h.received, fun stalls => ?_, fun _ => pending_ask, fun stalls hrunning => ?_,
    fun stalls fault => ?_, fun hfinished _ => ask_of_finished hfinished, ?_, ?_⟩
  · -- the sender is dropped before the drain ends
    have hopen (hheld : life.link.channel.senders ≠ 0) : life.link.finished = false :=
      eq_false_of_ne_true fun hfinished => hheld (h.ended hfinished).1.1
    rw [ask_eq_pending, ← hsender]
    constructor
    · rintro ⟨hrunning, hstalls | hwaits⟩
      · exact .inl ⟨hstalls, hrunning⟩
      · exact .inr hwaits
    · rintro (⟨hstalls, hrunning⟩ | ⟨hbuffer, hheld⟩)
      · exact ⟨hrunning, .inl hstalls⟩
      · exact ⟨hopen hheld, .inr ⟨hbuffer, hheld⟩⟩
  · rw [finished_ask hrunning, hsender]
    rfl
  · have harrived : life.link.barrier.arrived = events.count .dropTicket := by
      rw [Barrier.arrived, hexpected]
      omega
    have hlate : life.link.barrier.remaining ≠ 0 ↔ events.count .dropTicket < workers := by omega
    rw [ask_eq_violation, hsender, orderingFault, harrived, hexpected, hlate]
    rfl
  · constructor
    · intro hfinished
      obtain ⟨-, before, closing, count, hanswers, -, hclosing⟩ := h.ended hfinished
      exact ⟨closing, by rw [hanswers]; simp, hclosing⟩
    · rintro ⟨answer, hanswer, hend⟩
      refine eq_true_of_ne_false fun hrunning => ?_
      exact absurd (((h.running hrunning).1 answer hanswer).symm.trans hend) (by decide)
  · intro hfinished
    obtain ⟨⟨-, hbuffer⟩, hanswers⟩ := h.ended hfinished
    exact ⟨by rw [h.sent, hbuffer, List.append_nil], hanswers⟩

/-- What a collection gives, whatever happens while it goes on, and that it comes to an end. -/
structure Delivers (start : Life) (more : List Event) (last : Life) : Prop where
  /-- The result is settled at the poll that finds the channel closed and empty. -/
  result : ∀ result, last.custody = .collected result →
    ∃ before after moment values, more = before ++ .poll :: after ∧
      start.begun.follow before = some moment ∧ moment.buffered = [] ∧
        moment.link.channel.senders = 0 ∧ last.sent = start.delivered ++ values ∧
          result = verdict moment.link values
  /-- Once the sender is gone, so many polls as there are values left, and one, bring the result. -/
  ends : last.isCollected = false → last.link.channel.senders = 0 →
    ∃ values done, last.sent = start.delivered ++ values ∧
      last.follow (.replicate (last.buffered.length + 1) .poll) = some done ∧
        done.custody = .collected (verdict last.link values)

theorem Sound.delivers (h : life.Sound) (hrunning : life.link.finished = false)
    (hrun : life.begun.follow events = some last) : life.Delivers events last := by
  have hsound := (h.begun hrunning).follow hrun
  constructor
  · intro result hresult
    have hlast : last.link.finished = true := by
      refine eq_true_of_ne_false fun hfalse => ?_
      have hopen := (hsound.running hfalse).2
      rw [isCollected, hresult] at hopen
      cases hopen
    obtain ⟨before, after, moment, values, hmore, hbefore, hbuffer, hsenders, hsent, hcustody⟩ :=
      h.settled hrunning hrun hlast
    rw [hresult, Custody.collected.injEq] at hcustody
    exact ⟨before, after, moment, values, hmore, hbefore, hbuffer, hsenders, hsent, hcustody⟩
  · intro hopen hsenders
    have hlast : last.link.finished = false := by
      refine eq_false_of_ne_true fun htrue => ?_
      obtain ⟨_, _, _, _, -, -, -, -, -, hcustody⟩ := h.settled hrunning hrun htrue
      rw [isCollected, hcustody] at hopen
      cases hopen
    rcases begun_collects.follow hrun with hcollected | ⟨values, hcustody, hdelivered⟩
    · exact absurd (hcollected.symm.trans hopen) (by decide)
    · obtain ⟨done, hdone, -, -, hsettled⟩ := exists_ended hopen hlast hsenders
      refine ⟨values ++ last.buffered, done, ?_, hdone, hsettled values hcustody⟩
      rw [hsound.sent, hdelivered, List.append_assoc]

/-- **Draining.** A channel is made and its users act in any order. Whatever was sent has been given
out in order or is still buffered. A poll waits where nothing is buffered and the sender is held,
and where the receiver puts it off, which changes nothing. The drain ends at the first poll that
finds the channel closed and empty, and it reports a violation at this poll only, if tickets are held
then. A collection that begins while the drain has not ended gives all values still to come, or that
violation. Without anybody in between it gives what `collect` gives. -/
theorem drains_faithfully {capacity workers : Nat} {link : ResultChannel}
    (hlink : make capacity workers = .ok link) (hrun : (ofLink link).follow events = some last) :
    last.Faithful workers events ∧
      (last.link.finished = false →
        (last.custody = .held → ∀ more final, last.follow (.collect :: more) = some final →
          last.Delivers more final) ∧
        last.link.collect =
          if .dropSender ∈ events then some (verdict last.link last.buffered) else none) := by
  have h := (Sound.ofLink hlink).follow hrun
  obtain ⟨htickets, hexpected, hsenders⟩ := follow_counts hrun
  obtain ⟨-, -, rfl⟩ := make_eq_ok.1 hlink
  have hsender : last.link.channel.senders = 0 ↔ .dropSender ∈ events := by
    rw [← List.count_pos_iff]
    have hone : last.link.channel.senders + events.count .dropSender = 1 := hsenders
    omega
  refine ⟨h.faithful hexpected htickets hsender, fun hrunning => ⟨?_, ?_⟩⟩
  · intro hheld more final hmore
    rw [follow_collect hheld] at hmore
    exact h.delivers hrunning hmore
  · rw [collect_eq hrunning]
    exact if_congr hsender rfl rfl

/-- One of two tickets outlives the sender: the drain reports it once, and no more when it goes at
last. Had it been collected before, the collection would have failed. The first poll after the value
was sent is put off. -/
theorem drains_faithfully_late_ticket :
    ∃ last, (ofLink ⟨.ofCapacity 1 1, .ofExpected 2, 0, false⟩).follow
        [.poll, .send 4, .send 8, .stall, .dropTicket, .dropSender, .poll, .poll, .dropTicket, .poll] =
          some last ∧
      last.answers = [.pending, .pending, .value 4, .violation (.closedEarly 1 2), .finished] ∧
        last.Faithful 2
          [.poll, .send 4, .send 8, .stall, .dropTicket, .dropSender, .poll, .poll,
            .dropTicket, .poll] ∧
    ∃ start final, (ofLink ⟨.ofCapacity 1 1, .ofExpected 2, 0, false⟩).follow
        [.poll, .send 4, .dropTicket] = some start ∧
      start.follow [.collect, .stall, .poll, .dropSender, .poll] = some final ∧
        start.Delivers [.stall, .poll, .dropSender, .poll] final := by
  have hlink : make 1 2 = .ok ⟨.ofCapacity 1 1, .ofExpected 2, 0, false⟩ := rfl
  refine ⟨_, rfl, rfl, (drains_faithfully hlink rfl).1, ?_⟩
  have hstart : (ofLink ⟨.ofCapacity 1 1, .ofExpected 2, 0, false⟩).follow
      [.poll, .send 4, .dropTicket] = some _ := rfl
  exact ⟨_, _, hstart, rfl, ((drains_faithfully hlink hstart).2 rfl).1 rfl _ _ rfl⟩

end ResultChannel.Life

end ParallelFilter
