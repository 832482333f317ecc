import ParallelFilter.Proofs.Draining

/-! What the hint of a drain is worth. Whoever polls a drain to its end is given items: the values,
and the violation if there is one. The hint counts the values that are buffered. That is never too
many, and once the sender is gone it is all the values there will be; but the violation is not among
them, so where tickets are still held then, one item more may come than the hint allows. -/

namespace ParallelFilter

namespace Polled

def isViolation : Polled → Bool
  | .violation _ => true
  | .value _ | .finished | .pending => false

/-- Whether the drain gives something with the answer. -/
def isItem (answer : Polled) : Bool :=
  answer.value?.isSome || answer.isViolation

variable {answer : Polled} {answers : List Polled}

theorem isViolation_of_isEnd (h : answer.isEnd = false) : answer.isViolation = false := by
  cases answer with
  | violation fault => cases h
  | value _ | finished | pending => rfl

/-- Every item is a value or a violation, and none is both. -/
theorem countP_isItem (answers : List Polled) :
    answers.countP isItem = (answers.filterMap value?).length + answers.countP isViolation := by
  induction answers with
  | nil => rfl
  | cons answer answers ih =>
      rw [List.countP_cons, ih, List.countP_cons]
      cases answer with
      | value given =>
          have hgiven : value? (.value given) = some given := rfl
          rw [List.filterMap_cons_some hgiven, List.length_cons]
          exact Nat.add_right_comm _ _ _
      | violation fault | finished | pending =>
          rw [List.filterMap_cons_none rfl]
          rfl

theorem countP_isViolation_of_running (h : ∀ answer ∈ answers, answer.isEnd = false) :
    answers.countP isViolation = 0 := by
  rw [List.countP_eq_zero]
  exact fun answer hanswer => Bool.eq_false_iff.1 (isViolation_of_isEnd (h answer hanswer))

end Polled

namespace ResultChannel.Life

variable {now next last : Life} {event : Event} {events more : List Event}

/-- What the drain has answered since an earlier moment. -/
def answersSince (last now : Life) : List Polled :=
  last.answers.drop now.answers.length

theorem answersSince_eq {later : List Polled} (h : last.answers = now.answers ++ later) :
    last.answersSince now = later := by
  rw [answersSince, h, List.drop_left]

/-- What comes in after a moment. Without the sender it is nothing. -/
structure Grows (now last : Life) : Prop where
  answers : ∃ later, last.answers = now.answers ++ later
  sent : ∃ arrivals, last.sent = now.sent ++ arrivals ∧ (now.link.channel.senders = 0 → arrivals = [])
  senders : now.link.channel.senders = 0 → last.link.channel.senders = 0

theorem Grows.refl (now : Life) : now.Grows now where
  answers := ⟨[], (List.append_nil _).symm⟩
  sent := ⟨[], (List.append_nil _).symm, fun _ => rfl⟩
  senders hsenders := hsenders

theorem Grows.answered (h : now.Grows last) {answer : Polled} {link : ResultChannel}
    (hkept : link.channel.senders = last.link.channel.senders) :
    now.Grows (last.answered answer link) := by
  obtain ⟨later, hanswers⟩ := h.answers
  refine ⟨⟨later ++ [answer], ?_⟩, h.sent, fun hzero => hkept.trans (h.senders hzero)⟩
  rw [Life.answered, hanswers, List.append_assoc]

theorem Grows.step (h : now.Grows last) (hstep : last.step event = some next) : now.Grows next := by
  cases step_happens hstep with
  | send value hheld _ =>
      obtain ⟨arrivals, hsent, -⟩ := h.sent
      have hgone : now.link.channel.senders ≠ 0 := fun hzero => hheld (h.senders hzero)
      refine ⟨h.answers, ⟨arrivals ++ [value], ?_, fun hzero => absurd hzero hgone⟩, h.senders⟩
      rw [hsent, List.append_assoc]
  | refuse _ _ _ | dropTicket _ | collect _ => exact ⟨h.answers, h.sent, h.senders⟩
  | dropSender hheld => exact ⟨h.answers, h.sent, fun hzero => absurd (h.senders hzero) hheld⟩
  | poll answer link _ hpolls => exact h.answered hpolls.kept.2
  | stall _ => exact h.answered rfl

theorem grows_of_follow (hrun : now.follow more = some last) : now.Grows last :=
  foldlM_induction (P := now.Grows) (fun _ _ _ _ h hstep => h.step hstep) (.refl now) hrun

/-- A drain that has ended answers so, and nothing else. -/
theorem Sound.answers_of_finished (h : now.Sound) (hfinished : now.link.finished = true)
    (hrun : now.follow more = some last) :
    ∃ count, last.answers = now.answers ++ .replicate count .finished := by
  have hkept : (last.Sound ∧ last.link.finished = true) ∧
      ∃ count, last.answers = now.answers ++ .replicate count .finished := by
    refine foldlM_induction (P := fun life : Life => (life.Sound ∧ life.link.finished = true) ∧
      ∃ count, life.answers = now.answers ++ .replicate count .finished) ?_
      ⟨⟨h, hfinished⟩, 0, (List.append_nil _).symm⟩ hrun
    rintro life event next - ⟨⟨hsound, hended⟩, count, hanswers⟩ hstep
    refine ⟨⟨hsound.step hstep, (hsound.step_of_finished hended hstep).1⟩, ?_⟩
    have hmore (link : ResultChannel) :
        (life.answered .finished link).answers = now.answers ++ .replicate (count + 1) .finished := by
      rw [Life.answered, hanswers, List.replicate_succ', List.append_assoc]
    cases step_happens hstep with
    | send _ _ _ | refuse _ _ _ | dropTicket _ | dropSender _ | collect _ => exact ⟨count, hanswers⟩
    | poll answer link _ hpolls =>
        have hpoll : answer = .finished := by
          cases hpolls with
          | ended _ | finish _ _ _ _ => rfl
          | deliver _ _ hrunning _ | wait hrunning _ _ | violate hrunning _ _ _ =>
              exact absurd (hended.symm.trans hrunning) (by decide)
        exact ⟨count + 1, hpoll ▸ hmore link⟩
    | stall _ =>
        rw [ResultChannel.stalled, if_pos hended]
        exact ⟨count + 1, hmore _⟩
  exact hkept.2

/-- How a drain comes to its end: what was buffered is given out, with what is sent meanwhile, and
then there is one answer that depends on the tickets held at that moment. -/
theorem Sound.exists_ending (h : now.Sound) (hrunning : now.link.finished = false)
    (hrun : now.follow more = some last) (hlast : last.link.finished = true) :
    ∃ given closing count arrivals, last.answers = now.answers ++
      (given ++ closing :: .replicate count .finished) ∧
      (∀ answer ∈ given, answer.isEnd = false) ∧
        given.filterMap Polled.value? = now.buffered ++ arrivals ∧
      (now.link.channel.senders = 0 → arrivals = []) ∧ closing.isEnd = true ∧
      (closing.isViolation = true → now.link.barrier.remaining ≠ 0) := by
  obtain ⟨before, after, moment, -, hbefore, hsound, hopen, hmoment, hbuffer, hsenders, hafter⟩ :=
    h.exists_moment hrunning hrun hlast
  obtain ⟨⟨given, hgiven⟩, ⟨arrivals, hsent, hnone⟩, -⟩ := grows_of_follow hbefore
  have hends : moment.link.poll.1.isEnd = true ∧
      (moment.link.poll.1.isViolation = true → moment.link.barrier.remaining ≠ 0) := by
    rw [poll_of_drained hmoment hbuffer hsenders, closing]
    by_cases hcomplete : moment.link.barrier.remaining = 0
    · rw [if_pos hcomplete]
      exact ⟨rfl, fun hviolates => by cases hviolates⟩
    · rw [if_neg hcomplete]
      exact ⟨rfl, fun _ => hcomplete⟩
  obtain ⟨hend, hviolation⟩ := hends
  obtain ⟨count, hcount⟩ := (hsound.answered hopen moment.link.polls).answers_of_finished
    ((finished_poll hmoment).2 ⟨hbuffer, hsenders⟩) hafter
  refine ⟨given, moment.link.poll.1, count, arrivals, ?_, fun answer hanswer => ?_, ?_, hnone, hend,
    fun hviolates hzero => hviolation hviolates ?_⟩
  · rw [hcount, Life.answered, hgiven, List.append_assoc, List.append_assoc]
    rfl
  · exact (hsound.running hmoment).1 answer (hgiven ▸ List.mem_append_right _ hanswer)
  · have hall : moment.delivered = now.delivered ++ (now.buffered ++ arrivals) := by
      rw [← List.append_assoc, ← h.sent, ← hsent, hsound.sent, hbuffer, List.append_nil]
    rwa [delivered, hgiven, List.filterMap_append, ← delivered, List.append_cancel_left_eq] at hall
  · have hcounts := (follow_counts hbefore).1
    omega

/-- What came after a moment, counted when the drain has ended. -/
theorem Sound.count_ending (h : now.Sound) (hrunning : now.link.finished = false)
    (hrun : now.follow more = some last) (hlast : last.link.finished = true) :
    ∃ arrivals, (last.answersSince now).filterMap Polled.value? = now.buffered ++ arrivals ∧
      (now.link.channel.senders = 0 → arrivals = []) ∧
      (last.answersSince now).countP Polled.isViolation ≤ 1 ∧
      (now.link.barrier.remaining = 0 → (last.answersSince now).countP Polled.isViolation = 0) := by
  obtain ⟨given, closing, count, arrivals, hanswers, hgiven, hvalues, hnone, hend, hviolates⟩ :=
    h.exists_ending hrunning hrun hlast
  have hvalue : closing.value? = none := by
    cases closing with
    | value _ => cases hend
    | violation _ | finished | pending => rfl
  have hviolations : (last.answersSince now).countP Polled.isViolation =
      if closing.isViolation then 1 else 0 := by
    rw [answersSince_eq hanswers, List.countP_append, Polled.countP_isViolation_of_running hgiven,
      Nat.zero_add, List.countP_cons, List.countP_replicate, if_neg (by decide), Nat.zero_add]
  refine ⟨arrivals, ?_, hnone, ?_, fun hcomplete => ?_⟩
  · rw [answersSince_eq hanswers, List.filterMap_append, List.filterMap_cons_none hvalue,
      List.filterMap_replicate_of_none rfl, List.append_nil, hvalues]
  · rw [hviolations]
    split <;> decide
  · rw [hviolations, if_neg fun hviolation => hviolates hviolation hcomplete]

/-- What the hint of a moment says of the items that came after it. -/
structure Estimated (now last : Life) : Prop where
  lower : now.link.sizeHint.1 ≤ (last.answersSince now).countP Polled.isItem
  /-- The bound counts the values, all of them. -/
  values : ∀ high, now.link.sizeHint.2 = some high →
    ((last.answersSince now).filterMap Polled.value?).length = high
  upper : ∀ high, now.link.sizeHint.2 = some high →
    (last.answersSince now).countP Polled.isItem ≤ high + 1
  /-- The bound holds wherever no violation can come any more. -/
  exact : now.link.finished = true ∨ now.link.barrier.remaining = 0 →
    ∀ high, now.link.sizeHint.2 = some high →
    (last.answersSince now).countP Polled.isItem = high

theorem sizeHint_of_finished (hfinished : now.link.finished = true) :
    now.link.sizeHint = (0, some 0) := by
  rw [sizeHint, if_pos hfinished]

theorem sizeHint_of_running (hrunning : now.link.finished = false) : now.link.sizeHint =
    (now.buffered.length, if now.link.channel.senders = 0 then some now.buffered.length else none) := by
  rw [sizeHint, hrunning, if_neg (by decide), buffered, ← Queue.size_eq_length]

theorem Sound.estimated (h : now.Sound) (hrun : now.follow more = some last)
    (hlast : last.link.finished = true) : now.Estimated last := by
  cases hended : now.link.finished with
  | true =>
      obtain ⟨count, hanswers⟩ := h.answers_of_finished hended hrun
      have hvalues : (last.answersSince now).filterMap Polled.value? = [] := by
        rw [answersSince_eq hanswers, List.filterMap_replicate_of_none rfl]
      have hitems : (last.answersSince now).countP Polled.isItem = 0 := by
        rw [answersSince_eq hanswers, List.countP_replicate, if_neg (by decide)]
      have hnone {high : Nat} (hhigh : now.link.sizeHint.2 = some high) : high = 0 := by
        rw [sizeHint_of_finished hended, Option.some_inj] at hhigh
        exact hhigh.symm
      refine ⟨?_, fun high hhigh => ?_, fun high _ => ?_, fun _ high hhigh => ?_⟩
      · rw [sizeHint_of_finished hended]
        exact Nat.zero_le _
      · rw [hvalues, hnone hhigh, List.length_nil]
      · rw [hitems]
        exact Nat.zero_le _
      · rw [hitems, hnone hhigh]
  | false =>
      obtain ⟨arrivals, hvalues, hnone, hviolations, hcomplete⟩ := h.count_ending hended hrun hlast
      have hitems := Polled.countP_isItem (last.answersSince now)
      have hclosed {high : Nat} (hhigh : now.link.sizeHint.2 = some high) :
          ((last.answersSince now).filterMap Polled.value?).length = high := by
        rw [sizeHint_of_running hended] at hhigh
        dsimp only at hhigh
        split at hhigh
        · rename_i hsenders
          rw [hvalues, hnone hsenders, List.append_nil]
          exact Option.some_inj.1 hhigh
        · cases hhigh
      refine ⟨?_, fun high hhigh => hclosed hhigh, fun high hhigh => ?_, fun hsure high hhigh => ?_⟩
      · rw [sizeHint_of_running hended, hitems, hvalues, List.length_append]
        omega
      · rw [hitems, hclosed hhigh]
        exact Nat.add_le_add_left hviolations high
      · rcases hsure with hfinished | hremaining
        · exact absurd (hended.symm.trans hfinished) (by decide)
        · rw [hitems, hclosed hhigh, hcomplete hremaining, Nat.add_zero]

/-- **The hint is right about the values, and one too low where a violation comes.** Whatever
happens to a channel between a moment and the end of its drain, at least as many items come as the
hint of that moment says. Its upper bound, which it gives once the sender is gone, is the number of
values; a violation comes on top of it. So the bound is exceeded just where the sender went before
the tickets: by no more than one, and by one if the drain is polled without delay. -/
theorem hints_but_for_violation {capacity workers : Nat} {link : ResultChannel}
    (hlink : make capacity workers = .ok link) (hrun : (ofLink link).follow events = some now) :
    (∀ more last, now.follow more = some last → last.link.finished = true → now.Estimated last) ∧
      (now.link.finished = false → now.link.channel.senders = 0 → now.link.barrier.remaining ≠ 0 →
        ∃ more last high, now.follow more = some last ∧ last.link.finished = true ∧
          now.link.sizeHint = (high, some high) ∧
            (last.answersSince now).countP Polled.isItem = high + 1) := by
  have h := (Sound.ofLink hlink).follow hrun
  refine ⟨fun more last hmore hlast => h.estimated hmore hlast, fun hrunning hsenders hheld => ?_⟩
  obtain ⟨last, hmore, hlast, hanswers, -⟩ := exists_ended (h.running hrunning).2 hrunning hsenders
  refine ⟨_, last, now.buffered.length, hmore, hlast, ?_, ?_⟩
  · rw [sizeHint_of_running hrunning, if_pos hsenders]
  · rw [answersSince_eq hanswers, List.countP_append, List.countP_map, closing, if_neg hheld]
    have hall : (Polled.isItem ∘ Polled.value) = fun _ => true := rfl
    rw [hall, List.countP_true]
    rfl

/-- The sender goes before one of two tickets: the hint says one item, and two come. -/
theorem hints_but_for_violation_late_ticket : ∃ now last,
    (ofLink ⟨.ofCapacity 1 1, .ofExpected 2, 0, false⟩).follow [.send 4, .dropTicket, .dropSender] =
      some now ∧ now.link.sizeHint = (1, some 1) ∧ now.follow [.poll, .poll] = some last ∧
      last.answersSince now = [.value 4, .violation (.closedEarly 1 2)] ∧ now.Estimated last := by
  have hlink : make 1 2 = .ok ⟨.ofCapacity 1 1, .ofExpected 2, 0, false⟩ := rfl
  have hnow : (ofLink ⟨.ofCapacity 1 1, .ofExpected 2, 0, false⟩).follow
      [.send 4, .dropTicket, .dropSender] =
    some _ := rfl
  exact ⟨_, _, hnow, rfl, rfl, rfl, (hints_but_for_violation hlink hnow).1 [.poll, .poll] _ rfl rfl⟩

/-- So the hint of a drain is no bound on its items. The sender of a channel goes while the only
ticket is held: the hint says that nothing comes, and then the violation comes. -/
theorem hint_exceeded :
    ¬∀ (capacity workers : Nat) (link : ResultChannel) (events more : List Event) (now last : Life),
      make capacity workers = .ok link → (ofLink link).follow events = some now →
        now.follow more = some last → last.link.finished = true →
          now.link.sizeHint.1 ≤ (last.answersSince now).countP Polled.isItem ∧
            ∀ high, now.link.sizeHint.2 = some high →
              (last.answersSince now).countP Polled.isItem ≤ high := by
  intro hbounds
  have hlink : make 1 1 = .ok ⟨.ofCapacity 1 1, .ofExpected 1, 0, false⟩ := rfl
  have hone := (hbounds 1 1 _ [.dropSender] [.poll] _ _ hlink rfl rfl rfl).2 0 rfl
  exact absurd hone (by decide)

end ResultChannel.Life

end ParallelFilter
