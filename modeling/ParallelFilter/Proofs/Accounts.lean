import ParallelFilter.Proofs.Moves
import ParallelFilter.Proofs.Sequential

/-! The accounts of one worker. Whatever happens around it, what the worker has sent so far and the
value that it has in hand, or gave up, are together the accepted values among those it has decided. A
stopped worker shows why it stopped. `Accounts.moves` says that every move keeps the books. -/

namespace ParallelFilter

namespace Worker

/-- `rest` is what the worker has accepted and not sent, and the worker stands where it can stand with
that. At most one value is left over, and then it is the one decided last. -/
def Holds (predicate : Predicate) (worker : Worker) (rest : List Nat) : Prop :=
  match worker.phase with
  | .ready | .yielding => rest = []
  | .evaluating => rest = [] ∧ worker.evaluated < worker.range.length
  | .offering value | .waiting value => rest = [value] ∧ value + 1 = worker.next
  | .stopped .completed _ => rest = [] ∧ worker.evaluated = worker.range.length
  | .stopped .cancelled _ =>
    rest = [] ∧ worker.evaluated < worker.range.length ∨
      ∃ value, rest = [value] ∧ value + 1 = worker.next
  | .stopped .disconnected _ => ∃ value, rest = [value] ∧ value + 1 = worker.next
  | .stopped (.failed reason) _ =>
    rest = [] ∧ worker.evaluated < worker.range.length ∧ predicate worker.next = .failed reason
  | .stopped (.panicked payload) _ =>
    rest = [] ∧ worker.evaluated < worker.range.length ∧ predicate worker.next = .panicked payload

/-- The books of a worker that has sent `sent`. -/
structure Accounts (predicate : Predicate) (worker : Worker) (sent : List Nat) : Prop where
  accepted : worker.accepted = sent.length
  evaluated_le : worker.evaluated ≤ worker.range.length
  decided : ∀ value ∈ worker.range.firstValues worker.evaluated, predicate.decides value = true
  balance : ∃ rest, sent ++ rest = predicate.hits worker.range worker.evaluated ∧
    worker.Holds predicate rest

variable {predicate : Predicate} {worker : Worker} {sent : List Nat}

theorem phase_of_ending? {ending : Ending} (h : worker.ending? = some ending) :
    ∃ remains, worker.phase = .stopped ending remains := by
  unfold ending? at h
  split at h
  · rename_i hphase
    cases h
    exact ⟨_, hphase⟩
  · cases h

theorem accounts_ofRange (id : Nat) (range : Span) : Accounts predicate (ofRange id range) [] where
  accepted := rfl
  evaluated_le := Nat.zero_le _
  decided := by
    intro value hvalue
    simp [ofRange, Span.firstValues] at hvalue
  balance := ⟨[], by simp [ofRange], rfl⟩

theorem holds_of_inHand? {rest : List Nat} {value : Nat} (h : worker.inHand? = some value) :
    worker.Holds predicate rest ↔ rest = [value] ∧ value + 1 = worker.next := by
  rcases phase_of_inHand? h with hphase | hphase <;> simp only [Holds, hphase]

theorem holds_afterValue (rules : Rules) (evaluated accepted count : Nat) :
    ({ worker with evaluated, accepted, phase := Station.afterValue rules count } : Worker).Holds
      predicate [] := by
  rcases Station.afterValue_cases rules count with h | h <;> simp only [Holds, h]

namespace Accounts

/-- One more value was decided: the accepted values among the decided ones grow by it if it is
accepted. -/
theorem decide_next (h : worker.Accounts predicate sent)
    (hlt : worker.evaluated < worker.range.length) {accepted : Bool} {cancels : Option Scope}
    (hcall : predicate worker.next = .decided accepted cancels) :
    (∀ value ∈ worker.range.firstValues (worker.evaluated + 1), predicate.decides value = true) ∧
      predicate.hits worker.range (worker.evaluated + 1) =
        predicate.hits worker.range worker.evaluated ++ if accepted then [worker.next] else [] := by
  have hcall' : predicate (worker.range.start + worker.evaluated) = .decided accepted cancels := hcall
  constructor
  · intro value hvalue
    rw [Span.firstValues_succ hlt, List.mem_append, List.mem_singleton] at hvalue
    rcases hvalue with hvalue | rfl
    · exact h.decided value hvalue
    · simp only [Predicate.decides, hcall']
  · rw [Predicate.hits_succ hlt]
    simp only [Predicate.accepts, hcall', next]

/-- There is a value to call the predicate on. -/
theorem lt_of_evaluating (h : worker.Accounts predicate sent) (hphase : worker.phase = .evaluating) :
    worker.evaluated < worker.range.length := by
  obtain ⟨rest, -, hholds⟩ := h.balance
  simp only [Holds, hphase] at hholds
  exact hholds.2

/-- A move that leaves the counts alone keeps the books if the worker can stand where it leads. -/
theorem stand (h : worker.Accounts predicate sent) {phase : Phase}
    (hholds : ∀ rest, worker.Holds predicate rest →
      ({ worker with phase } : Worker).Holds predicate rest) :
    ({ worker with phase } : Worker).Accounts predicate sent := by
  obtain ⟨rest, hrest, hrests⟩ := h.balance
  exact ⟨h.accepted, h.evaluated_le, h.decided, rest, hrest, hholds rest hrests⟩

theorem moves {rules : Rules} {kept : Nat} {before after : Station} {published : Option Nat}
    (h : before.worker.Accounts rules.predicate sent)
    (hmoves : Station.Moves rules kept before published after) :
    after.worker.Accounts rules.predicate (sent ++ published.toList) := by
  obtain ⟨rest, hrest, hrests⟩ := h.balance
  cases hmoves with
  | enter hphase hlt _ =>
      rw [Option.toList_none, List.append_nil]
      refine h.stand fun rest hrest => ?_
      simp only [Holds, hphase] at hrest ⊢
      exact ⟨hrest, hlt⟩
  | complete hphase hend =>
      rw [Option.toList_none, List.append_nil]
      refine h.stand fun rest hrest => ?_
      simp only [Holds, hphase] at hrest ⊢
      exact ⟨hrest, Nat.le_antisymm h.evaluated_le hend⟩
  | quit hphase hlt _ =>
      rw [Option.toList_none, List.append_nil]
      refine h.stand fun rest hrest => ?_
      simp only [Holds, hphase] at hrest ⊢
      exact .inl ⟨hrest, hlt⟩
  | fail reason hphase hcall =>
      rw [Option.toList_none, List.append_nil]
      refine h.stand fun rest hrest => ?_
      simp only [Holds, hphase] at hrest ⊢
      exact ⟨hrest.1, hrest.2, hcall⟩
  | panic payload hphase hcall =>
      rw [Option.toList_none, List.append_nil]
      refine h.stand fun rest hrest => ?_
      simp only [Holds, hphase] at hrest ⊢
      exact ⟨hrest.1, hrest.2, hcall⟩
  | reject cancels hphase hcall =>
      simp only [Holds, hphase] at hrests
      obtain ⟨rfl, hlt⟩ := hrests
      obtain ⟨hdecided, hhits⟩ := h.decide_next hlt hcall
      refine ⟨?_, hlt, hdecided, [], ?_, holds_afterValue rules _ _ _⟩
      · simpa using h.accepted
      · rw [hhits, ← hrest]
        simp
  | accept cancels hphase hcall =>
      -- the value counts as decided from now on, and as accepted only when it is sent
      simp only [Holds, hphase] at hrests
      obtain ⟨rfl, hlt⟩ := hrests
      obtain ⟨hdecided, hhits⟩ := h.decide_next hlt hcall
      refine ⟨?_, hlt, hdecided, [_], ?_, rfl, rfl⟩
      · simpa using h.accepted
      · rw [hhits, ← hrest]
        simp
  | send value hhand _ _ _ =>
      obtain ⟨rfl, -⟩ := (holds_of_inHand? hhand).1 hrests
      refine ⟨?_, h.evaluated_le, h.decided, [], ?_, holds_afterValue rules _ _ _⟩
      · simpa using h.accepted
      · rw [List.append_nil]
        exact hrest
  | disconnect value hhand _ _ =>
      rw [Option.toList_none, List.append_nil]
      exact h.stand fun rest hrest => ⟨value, (holds_of_inHand? hhand).1 hrest⟩
  | giveUp value hhand _ _ =>
      rw [Option.toList_none, List.append_nil]
      exact h.stand fun rest hrest => .inr ⟨value, (holds_of_inHand? hhand).1 hrest⟩
  | suspend value hphase _ _ _ =>
      rw [Option.toList_none, List.append_nil]
      refine h.stand fun rest hrest => ?_
      simp only [Holds, hphase] at hrest ⊢
      exact hrest
  | goOn hphase =>
      rw [Option.toList_none, List.append_nil]
      refine h.stand fun rest hrest => ?_
      simp only [Holds, hphase] at hrest ⊢
      exact hrest
  | dropSender ending hphase | dropTicket ending hphase | alarm ending hphase =>
      -- where a stopped worker stands depends on its ending only, not on what it still holds
      rw [Option.toList_none, List.append_nil]
      refine h.stand fun rest hrest => ?_
      cases ending <;> simp only [Holds, hphase] at hrest ⊢ <;> exact hrest

/-- What was sent is the beginning of the accepted values of the range, so as many of them as were
counted. -/
theorem sent_eq_take (h : worker.Accounts predicate sent) :
    sent = (worker.range.values.filter predicate.accepts).take worker.accepted := by
  obtain ⟨rest, hrest, -⟩ := h.balance
  have hprefix : sent <+: worker.range.values.filter predicate.accepts :=
    List.IsPrefix.trans ⟨rest, hrest⟩ (Predicate.hits_prefix _ _)
  rw [h.accepted]
  exact List.prefix_iff_eq_take.1 hprefix

/-- It is the beginning of what the worker publishes on its own, too. -/
theorem sent_prefix (h : worker.Accounts predicate sent) :
    sent <+: predicate.soloValues worker.range := by
  obtain ⟨rest, hrest, -⟩ := h.balance
  rw [Predicate.soloValues, Predicate.reached_eq_append h.evaluated_le h.decided, List.filter_append]
  exact List.IsPrefix.trans ⟨rest, hrest⟩ (List.prefix_append _ _)

section Ended

variable (h : worker.Accounts predicate sent)

include h

theorem of_completed (hending : worker.ending? = some .completed) :
    worker.evaluated = worker.range.length ∧ sent = predicate.hits worker.range worker.evaluated := by
  obtain ⟨remains, hphase⟩ := phase_of_ending? hending
  obtain ⟨rest, hrest, hrests⟩ := h.balance
  simp only [Holds, hphase] at hrests
  obtain ⟨rfl, hend⟩ := hrests
  rw [List.append_nil] at hrest
  exact ⟨hend, hrest⟩

theorem of_failed {reason : String} (hending : worker.ending? = some (.failed reason)) :
    worker.evaluated < worker.range.length ∧ sent = predicate.hits worker.range worker.evaluated ∧
      predicate worker.next = .failed reason := by
  obtain ⟨remains, hphase⟩ := phase_of_ending? hending
  obtain ⟨rest, hrest, hrests⟩ := h.balance
  simp only [Holds, hphase] at hrests
  obtain ⟨rfl, hlt, hcall⟩ := hrests
  rw [List.append_nil] at hrest
  exact ⟨hlt, hrest, hcall⟩

theorem of_panicked {payload : PanicPayload} (hending : worker.ending? = some (.panicked payload)) :
    worker.evaluated < worker.range.length ∧ sent = predicate.hits worker.range worker.evaluated ∧
      predicate worker.next = .panicked payload := by
  obtain ⟨remains, hphase⟩ := phase_of_ending? hending
  obtain ⟨rest, hrest, hrests⟩ := h.balance
  simp only [Holds, hphase] at hrests
  obtain ⟨rfl, hlt, hcall⟩ := hrests
  rw [List.append_nil] at hrest
  exact ⟨hlt, hrest, hcall⟩

/-- A worker that went to the end of its range did what it does on its own. -/
theorem solo_of_end (hend : worker.evaluated = worker.range.length)
    (hsent : sent = predicate.hits worker.range worker.evaluated) :
    sent = predicate.soloValues worker.range ∧ predicate.obstacle? worker.range = none ∧
      predicate.soloSummary worker.id worker.range =
        ⟨worker.id, worker.range, worker.evaluated, worker.accepted, .completed⟩ := by
  obtain ⟨hreached, hobstacle⟩ := Predicate.reached_of_complete h.evaluated_le h.decided hend
  have hvalues : sent = predicate.soloValues worker.range := by
    rw [hsent, Predicate.soloValues, hreached, Predicate.hits]
  refine ⟨hvalues, hobstacle, ?_⟩
  rw [Predicate.soloSummary, hreached, hobstacle, ← hvalues, ← h.accepted,
    Span.length_firstValues h.evaluated_le]
  rfl

/-- So did a worker that stopped at a value that is not decided. -/
theorem solo_of_obstacle (hlt : worker.evaluated < worker.range.length)
    (hsent : sent = predicate.hits worker.range worker.evaluated)
    (hnot : predicate.decides worker.next = false) :
    sent = predicate.soloValues worker.range ∧ predicate.obstacle? worker.range = some worker.next ∧
      predicate.soloSummary worker.id worker.range =
        ⟨worker.id, worker.range, worker.evaluated, worker.accepted, .faulted⟩ := by
  obtain ⟨hreached, hobstacle⟩ := Predicate.reached_of_obstacle h.evaluated_le h.decided hlt hnot
  have hvalues : sent = predicate.soloValues worker.range := by
    rw [hsent, Predicate.soloValues, hreached, Predicate.hits]
  refine ⟨hvalues, hobstacle, ?_⟩
  rw [Predicate.soloSummary, hreached, hobstacle, ← hvalues, ← h.accepted,
    Span.length_firstValues h.evaluated_le]
  rfl

end Ended

end Accounts

end Worker

end ParallelFilter
