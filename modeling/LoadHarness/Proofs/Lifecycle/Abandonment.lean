import LoadHarness.Proofs.Lifecycle.Course
import LoadHarness.Proofs.Lifecycle.Ledger

/-!
# Abandoned operations

A cancelled action abandons an attempt that waits for a resource or for its operation. The attempt
then has failed, with the error that stands for a cancellation, and this error goes the way of all
others: through the classifier. One that was not made with cancellations in mind takes it for a
failure like any other, the action ends with that failure and its worker counts it, as in
`abandoned_yet_counted`. `abandoned_as_classified` says what becomes of an abandoned attempt under
every classifier.
-/

namespace LoadHarness

variable {κ ρ : Type}

namespace RetryPolicy

open LoadHarness.Action

variable {p : RetryPolicy} {n : UInt32} {slot : Nat} {a b : Action ρ} {m : ActionMove ρ}
  {broken : Prop}

/-- What an action comes to whose attempt `n` is abandoned. -/
def abandoned (p : RetryPolicy) (n : UInt32) : RetryError :=
  match p.classify .cancelled with
  | .cancelled => .cancelled
  | .nonTransient => .nonTransient n .cancelled
  | _ => if p.config.hasAttemptsRemaining n then .cancelled else .exhausted n .cancelled

/-- The action comes to a cancellation just where the classifier takes it for one, or where another
attempt would have followed. -/
theorem abandoned_eq_cancelled_iff (p : RetryPolicy) (n : UInt32) :
    p.abandoned n = .cancelled ↔ p.classify .cancelled = .cancelled ∨
      (p.classify .cancelled).isTransient = true ∧ p.config.hasAttemptsRemaining n = true := by
  unfold abandoned
  cases p.classify .cancelled <;> simp [FailureClass.isTransient]

/-- An action whose attempt `n` is abandoned, or is about to be by a cancelled token, and where it
may have broken off. -/
inductive Abandons (p : RetryPolicy) (n : UInt32) (broken : Prop) : Action ρ → Prop where
  | acquiring : p.Abandons n broken (acquiring n)
  | running : p.Abandons n broken (running n)
  | rollingBack : p.Abandons n broken (rollingBack n (p.judge .cancelled))
  | closing : p.Abandons n broken (closing n (.error (p.judge .cancelled)))
  | backingOff {d} (last : p.abandoned n = .cancelled) : p.Abandons n broken (backingOff n d)
  | ended : p.Abandons n broken (ended (.error (p.abandoned n)))
  | crashed {text slot} (last : p.abandoned n = .cancelled)
      (long : p.config.delay? n slot = none) : p.Abandons n broken (crashed text)
  | brokeOff {text} (why : broken) : p.Abandons n broken (crashed text)

/-- An attempt that waits for its resource or its operation can be abandoned. -/
theorem abandons_of_attempting (attempting : a.attempting? = some n) : p.Abandons n broken a := by
  unfold attempting? at attempting
  split at attempting <;> cases attempting
  · exact .acquiring
  · exact .running

/-- The most moves that a cancelled action still makes from this phase. -/
def movesLeft : Action ρ → Nat
  | running _ => 4
  | committing _ _ => 4
  | rollingBack _ _ => 3
  | closing _ _ => 2
  | acquiring _ => 2
  | backingOff _ _ => 1
  | _ => 0

/-- As long as an action is not over it has a move left. -/
theorem movesLeft_pos (going : a.isOver = false) : 0 < movesLeft a := by
  cases a <;> first | exact Nat.succ_pos _ | cases going

theorem Abandons.given_up (last : p.abandoned n = .cancelled) :
    p.Abandons n broken (.ended (.error .cancelled) : Action ρ) := by
  rw [← last]
  exact .ended

/-- Where another attempt would follow, the action comes to a cancellation. -/
theorem abandons_approach (last : p.abandoned n = .cancelled) (slot : Nat) :
    p.Abandons n broken (p.approach true slot n : Action ρ) ∧
      movesLeft (p.approach true slot n : Action ρ) ≤ 1 := by
  unfold approach
  split
  · next long => exact ⟨.crashed last long, Nat.zero_le _⟩
  · split
    · exact ⟨.given_up last, Nat.zero_le _⟩
    · exact ⟨.backingOff last, Nat.le_refl _⟩

/-- The classifier settles what follows an abandoned attempt. -/
theorem abandons_afterFailure (slot : Nat) :
    p.Abandons n broken (p.afterFailure true slot n (p.judge .cancelled) : Action ρ) ∧
      movesLeft (p.afterFailure true slot n (p.judge .cancelled) : Action ρ) ≤ 1 := by
  have settles {e : RetryError} (comes : p.abandoned n = e) :
      p.Abandons n broken (.ended (.error e) : Action ρ) ∧
        movesLeft (.ended (.error e) : Action ρ) ≤ 1 := by
    subst comes
    exact ⟨.ended, Nat.zero_le _⟩
  unfold afterFailure
  dsimp only [judge]
  split
  · next verdict => exact settles (by simp only [abandoned, verdict])
  · next verdict => exact settles (by simp only [abandoned, verdict])
  · next cancels fatal =>
    have transient : p.abandoned n =
        if p.config.hasAttemptsRemaining n then .cancelled else .exhausted n .cancelled := by
      unfold abandoned
      split <;> first | contradiction | rfl
    split
    · next more => exact abandons_approach (transient.trans (if_pos more)) slot
    · next spent => exact settles (transient.trans (if_neg spent))

/-- The step: an abandoned action stays one, and has fewer moves left. -/
theorem Abandons.step (h : p.Abandons n broken a) (why : m.breaksOff = true → broken)
    (moved : p.Moves true slot a m b) : p.Abandons n broken b ∧ movesLeft b < movesLeft a := by
  have some := movesLeft_pos (isOver_of_moves moved)
  cases moved with
  | leaveDelay =>
    cases h with
    | backingOff last => exact ⟨.given_up last, Nat.one_pos⟩
  | leaveAcquire =>
    cases h
    obtain ⟨stays, few⟩ := abandons_afterFailure (ρ := ρ) (p := p) (n := n) slot
    exact ⟨stays, Nat.lt_succ_of_le few⟩
  | leaveRun =>
    cases h
    rw [giveBack_eq]
    split
    · exact ⟨.closing, show 2 < 4 by omega⟩
    · exact ⟨.rollingBack, show 3 < 4 by omega⟩
  | rolledBack | rollbackFailed =>
    cases h
    exact ⟨.closing, show 2 < 3 by omega⟩
  | closedBadly =>
    cases h
    obtain ⟨stays, few⟩ := abandons_afterFailure (ρ := ρ) (p := p) (n := n) slot
    exact ⟨stays, Nat.lt_succ_of_le few⟩
  | committed | commitFailed | closedWell => cases h
  | slept calm | acquired calm | refused calm | returned calm | failed calm => cases calm
  | breaksOff | misjudges => exact ⟨.brokeOff (why rfl), some⟩

/-- The run: so it is after any number of moves, of which there are at most four. -/
theorem Abandons.of_run (h : p.Abandons n broken a) {es : List (ActionEvent ρ)}
    (told : ∀ e ∈ es, e.cancelled = true) (why : ∀ e ∈ es, e.breaksOff = true → broken)
    (ran : p.run a es = some b) :
    p.Abandons n broken b ∧ es.length + movesLeft b ≤ movesLeft a := by
  induction es generalizing a with
  | nil =>
    cases ran
    exact ⟨h, Nat.le_of_eq (Nat.zero_add _)⟩
  | cons e es ih =>
    obtain ⟨c, stepped, rest⟩ := Option.bind_eq_some_iff.1 ran
    obtain ⟨now, later⟩ := List.forall_mem_cons.1 told
    obtain ⟨first, others⟩ := List.forall_mem_cons.1 why
    rw [now] at stepped
    obtain ⟨stays, fewer⟩ := h.step first (step_iff_moves.1 stepped)
    obtain ⟨last, bound⟩ := ih stays later others rest
    refine ⟨last, ?_⟩
    rw [List.length_cons]
    omega

/-- An abandoned action is over or goes on as soon as its handle answers. -/
theorem Abandons.goes_on (h : p.Abandons n broken a) :
    a.isOver = true ∨ ∃ m, ∀ slot, (p.step true slot a m).isSome = true := by
  cases h with
  | acquiring => exact .inr ⟨.abandon, fun _ => rfl⟩
  | running => exact .inr ⟨.abandon, fun _ => rfl⟩
  | rollingBack => exact .inr ⟨.answer .rolledBack, fun _ => rfl⟩
  | closing => exact .inr ⟨.answer .closed, fun _ => rfl⟩
  | backingOff => exact .inr ⟨.abandon, fun _ => rfl⟩
  | ended => exact .inl rfl
  | crashed => exact .inl rfl
  | brokeOff => exact .inl rfl

/-- A result of an abandoned action is what the classifier has made of the cancellation. -/
theorem Abandons.comes_to (h : p.Abandons n broken a) {r : Except RetryError ρ}
    (came : a.end? = some r) : r = .error (p.abandoned n) := by
  cases h with
  | ended => exact (Option.some.inj came).symm
  | _ => cases came

theorem movesLeft_le (a : Action ρ) : movesLeft a ≤ 4 := by
  unfold movesLeft
  split <;> omega

end RetryPolicy

/-! ## Workers with an abandoned operation -/

/-- What a worker in this phase still concludes under a cancelled token is at most that it was
cancelled. -/
def WorkerPhase.isSpent : WorkerPhase → Bool
  | .acting _ _ _ (.ended (.error e)) => e.isCancelled
  | .acting _ _ _ _ => false
  | _ => true

theorem WorkerPhase.isSpent_afterAction (operation : OperationType) (left : UInt32) :
    (Pool.afterAction operation left).isSpent = true := by
  unfold Pool.afterAction
  split <;> rfl

/-- The ends among these that are counted as failures. -/
def failuresIn (ends : List ActionEnd) : List ActionEnd := ends.filter (·.isFailure)

/-- What a worker has concluded, and its phase, since its action under a tag was about to abandon
attempt `n`. -/
inductive Parting (policy : RetryPolicy) (n : UInt32) (tag : String) :
    List ActionEnd → WorkerPhase → Prop where
  /-- The action is not concluded yet. -/
  | leaving {operation left since a} (own : operation.tag = tag) (leaves : policy.Abandons n True a) :
      Parting policy n tag [] (.acting operation left since a)
  | settled {ends phase} (spent : phase.isSpent = true)
      (few : (failuresIn ends).Sublist (failuresIn [⟨tag, .error (policy.abandoned n)⟩])) :
      Parting policy n tag ends phase

/-- At most the abandoned attempt is counted. -/
theorem Parting.counts {policy : RetryPolicy} {n : UInt32} {tag : String} {ends : List ActionEnd}
    {phase : WorkerPhase} (h : Parting policy n tag ends phase) :
    (failuresIn ends).Sublist (failuresIn [⟨tag, .error (policy.abandoned n)⟩]) := by
  cases h with
  | leaving => exact List.nil_sublist _
  | settled _ few => exact few

section

variable {plan : PoolPlan κ} {halted : Bool} {now number : Nat} {before after : WorkerPhase}
  {m : WorkerMove κ}

/-- A spent worker concludes nothing that is counted as a failure. -/
theorem WorkerPhase.Turns.spent (turns : before.Turns plan true halted now number m after)
    (spent : before.isSpent = true) (i : Nat) :
    after.isSpent = true ∧ failuresIn (WorkEntry.mk i before m after).concluded = [] := by
  cases turns with
  | stays calm => cases calm
  | leaves => exact ⟨rfl, rfl⟩
  | breaksOff calm => cases calm
  | picks calm => cases calm
  | quits => exact ⟨rfl, rfl⟩
  | granted calm => cases calm
  | refused calm => cases calm
  | begins =>
    rw [RetryPolicy.begin_cancelled]
    exact ⟨rfl, rfl⟩
  | touches calm => cases calm
  | @acts _ _ _ a _ _ _ moved =>
    have going := RetryPolicy.isOver_of_moves moved
    cases a <;> first | cases spent | cases going
  | succeeds => cases spent
  | @givesUp _ _ _ e mild =>
    have told : e.isCancelled = true := spent
    simp [RetryError.stopsNothing, told] at mild
  | obeys => exact ⟨rfl, rfl⟩
  | @fails _ _ _ e =>
    have told : e.isCancelled = true := spent
    have uncounted : e.stopsNothing = false := by simp [RetryError.stopsNothing, told]
    exact ⟨rfl, List.filter_cons_of_neg (by simpa [ActionEnd.isFailure] using uncounted)⟩
  | unpaced calm => cases calm
  | unnoted => exact ⟨rfl, rfl⟩
  | crashes => cases spent
  | faults => exact ⟨rfl, rfl⟩
  | releases => exact ⟨rfl, rfl⟩

theorem failuresIn_append (ends more : List ActionEnd) :
    failuresIn (ends ++ more) = failuresIn ends ++ failuresIn more := List.filter_append _ _

/-- The step: every turn of a worker under a cancelled token goes on with its parting. -/
theorem Parting.turn {n : UInt32} {tag : String} {ends : List ActionEnd}
    (h : Parting plan.policy n tag ends before)
    (turns : before.Turns plan true halted now number m after) (i : Nat) :
    Parting plan.policy n tag (ends ++ (WorkEntry.mk i before m after).concluded) after := by
  cases h with
  | settled spent few =>
    obtain ⟨still, none⟩ := turns.spent spent i
    refine .settled still ?_
    rw [failuresIn_append, none, List.append_nil]
    exact few
  | leaving own leaves =>
    cases turns with
    | touches calm => cases calm
    | acts moved => exact .leaving own (leaves.step (fun _ => trivial) moved).1
    | succeeds => cases leaves
    | givesUp =>
      cases leaves
      refine .settled (WorkerPhase.isSpent_afterAction _ _) ?_
      rw [← own]
      exact List.Sublist.refl _
    | obeys => exact .settled rfl (List.nil_sublist _)
    | fails => cases leaves; exact .settled rfl (own ▸ List.Sublist.refl _)
    | unnoted => exact .settled rfl (List.nil_sublist _)
    | crashes => exact .settled rfl (List.nil_sublist _)

end

namespace Pool

variable {plan : PoolPlan κ} {p q : Pool κ} {es : List (PoolEvent κ)} {i : Nat} {w : Worker κ}

theorem concludedIn_append (log more : List (WorkEntry κ)) :
    concludedIn (log ++ more) = concludedIn log ++ concludedIn more := List.flatMap_append

theorem concludedIn_singleton (x : WorkEntry κ) : concludedIn [x] = x.concluded :=
  List.flatMap_singleton _ _

/-- The run: so it goes on, whatever is done. -/
theorem parting_of_run {n : UInt32} {tag : String} (launched : p.workers[i]? = some w)
    (cancelled : p.isCancelled w.generation = true) (parts : Parting plan.policy n tag [] w.phase)
    (ran : run plan p es = some q) :
    ∃ w', q.workers[i]? = some w' ∧ w'.generation = w.generation ∧
      Parting plan.policy n tag (concludedIn (partOf i (record plan p es))) w'.phase := by
  refine run_induction (fun es q => ∃ w', q.workers[i]? = some w' ∧
    w'.generation = w.generation ∧
      Parting plan.policy n tag (concludedIn (partOf i (record plan p es))) w'.phase)
    ⟨w, launched, rfl, parts⟩ ?_ ran
  rintro es q e r ran ⟨w₁, here, generation, parts⟩ made
  have works := works_of_after made
  rw [record_concat ran made, partOf_append]
  generalize e.move = move at works
  cases works with
  | @turned j v v' m _ there turned =>
    rw [turned.entries_eq there]
    by_cases own : j = i
    · subst own
      cases here.symm.trans there
      have turns := turned.turns
      rw [generation, cancelled_of_run ran cancelled] at turns
      refine ⟨v', turned.here there, turned.generation.trans generation, ?_⟩
      rw [partOf_own ⟨j, w₁.phase, m, v'.phase⟩, concludedIn_append, concludedIn_singleton]
      exact parts.turn turns j
    · have silent : partOf i [⟨j, v.phase, m, v'.phase⟩] = [] := partOf_eq_nil (by simpa using own)
      rw [silent, List.append_nil]
      refine ⟨w₁, ?_, generation, parts⟩
      rw [turned.workers, List.getElem?_set_ne own]
      exact here
  | joined new workers _ _ other =>
    rw [entries_of_other other]
    refine ⟨w₁, ?_, generation, (List.append_nil (partOf i _)).symm ▸ parts⟩
    rw [workers, List.getElem?_append_left (List.getElem?_eq_some_iff.1 here).1]
    exact here

/-- **An abandoned attempt fails like any other.** Whatever classes a policy gives, and whenever the
token of an action is cancelled while an attempt waits for its resource or its operation: the action
makes at most four more moves, has one to make until it is over, and comes to nothing but what the
classifier makes of the cancellation, unless it breaks off: over a call, over the classifier, or
because the delay after the attempt cannot be represented. What it comes to is a cancellation just
where the classifier says so, or where another attempt would have followed. Its worker counts no
other failure than this one, whatever else is done. -/
theorem abandoned_as_classified (plan : PoolPlan κ) :
    (∀ {ρ : Type} (n : UInt32) (a b : Action ρ) (es : List (ActionEvent ρ)),
      a.attempting? = some n → (∀ e ∈ es, e.cancelled = true) → plan.policy.run a es = some b →
      es.length ≤ 4 ∧
      (b.isOver = true ∨ ∃ m, ∀ slot, (plan.policy.step true slot b m).isSome = true) ∧
      (∀ r, b.end? = some r → r = .error (plan.policy.abandoned n)) ∧
      (∀ text, b = .crashed text → (∃ e ∈ es, e.breaksOff = true) ∨
        plan.policy.abandoned n = .cancelled ∧
          ∃ slot, plan.policy.config.delay? n slot = none)) ∧
    (∀ (p q : Pool κ) (es : List (PoolEvent κ)) (i : Nat) (w : Worker κ)
      (operation : OperationType) (left : UInt32) (since : Nat) (n : UInt32) (a : Action Unit),
      p.workers[i]? = some w → w.phase = .acting operation left since a →
      a.attempting? = some n → p.isCancelled w.generation = true → run plan p es = some q →
      (failuresIn (concludedIn (partOf i (record plan p es)))).Sublist
        (failuresIn [⟨operation.tag, .error (plan.policy.abandoned n)⟩])) ∧
    (∀ n, plan.policy.abandoned n = .cancelled ↔ plan.policy.classify .cancelled = .cancelled ∨
      (plan.policy.classify .cancelled).isTransient = true ∧
        plan.policy.config.hasAttemptsRemaining n = true) := by
  refine ⟨?_, ?_, plan.policy.abandoned_eq_cancelled_iff⟩
  · intro ρ n a b es attempting told ran
    have leaves : plan.policy.Abandons n (∃ e ∈ es, e.breaksOff = true) a :=
      RetryPolicy.abandons_of_attempting attempting
    obtain ⟨leaves, few⟩ := leaves.of_run told (fun e member broke => ⟨e, member, broke⟩) ran
    have bound := RetryPolicy.movesLeft_le a
    refine ⟨by omega, leaves.goes_on, fun r => leaves.comes_to, ?_⟩
    rintro text rfl
    cases leaves with
    | crashed last long => exact .inr ⟨last, _, long⟩
    | brokeOff why => exact .inl why
  · intro p q es i w operation left since n a launched stands attempting cancelled ran
    have parts : Parting plan.policy n operation.tag [] w.phase := by
      rw [stands]
      exact .leaving rfl (RetryPolicy.abandons_of_attempting attempting)
    obtain ⟨w', -, -, parted⟩ := parting_of_run launched cancelled parts ran
    exact parted.counts

/-- Two workers with a classifier that was not made with cancellations in mind. -/
def blunt : PoolPlan Unit := { pair with policy := ⟨.exponential, fun _ => .nonTransient⟩ }

/-- The first worker runs an operation when the pool is stopped. -/
def interrupted : List (PoolEvent Unit) :=
  [.call .create, .prepared 0 (.ok ()), .call .start, .worker 0 (.pick 0 (some 1)),
    .worker 0 (.paced (.ok ())), .worker 0 .begin, .worker 0 (.act 0 (.answer .acquired)),
    .call .stop].map fun m => ⟨1, m⟩

/-- Its attempt is abandoned. -/
def aborted : List (ActionEvent Unit) :=
  [.abandon, .answer .rolledBack, .answer .closed].map fun m => ⟨true, 0, m⟩

/-- The worker goes with it and notes what came of it. -/
def noted : List (PoolEvent Unit) :=
  aborted.map (fun e => ⟨2, .worker 0 (.act e.slot e.move)⟩) ++ [⟨2, .worker 0 .conclude⟩]

/-- An operation is abandoned, and a blunt classifier makes a failure of that. -/
theorem abandoned_as_classified_blunt :
    ∃ p q w, run blunt (fresh blunt) interrupted = some p ∧ p.workers[0]? = some w ∧
      p.isCancelled w.generation = true ∧ run blunt p noted = some q ∧
      blunt.policy.run (.running 1 : Action Unit) aborted =
        some (.ended (.error (blunt.policy.abandoned 1))) ∧ aborted.length ≤ 4 ∧
      (failuresIn (concludedIn (partOf 0 (record blunt p noted)))).Sublist
        (failuresIn [⟨"OP", .error (blunt.policy.abandoned 1)⟩]) ∧
      blunt.policy.abandoned 1 ≠ .cancelled := by
  obtain ⟨p, reached⟩ : ∃ p, run blunt (fresh blunt) interrupted = some p := ⟨_, rfl⟩
  obtain ⟨q, ran⟩ : ∃ q, run blunt p noted = some q := by cases reached; exact ⟨_, rfl⟩
  obtain ⟨w, launched, stands, cancelled⟩ : ∃ w, p.workers[0]? = some w ∧
      w.phase = .acting ⟨0, "OP", 100, 100⟩ 1 1 (.running 1) ∧
      p.isCancelled w.generation = true := by
    cases reached
    exact ⟨_, rfl, rfl, rfl⟩
  obtain ⟨alone, counted, settled⟩ := abandoned_as_classified blunt
  have ended : blunt.policy.run (.running 1 : Action Unit) aborted =
      some (.ended (.error (blunt.policy.abandoned 1))) := rfl
  obtain ⟨few, -, -, -⟩ := alone 1 (.running 1) _ aborted rfl (by decide) ended
  refine ⟨p, q, w, reached, launched, cancelled, ran, ended, few,
    counted p q noted 0 w _ _ _ 1 _ launched stands rfl cancelled ran, ?_⟩
  rw [ne_eq, settled]
  decide

/-- A worker can count an operation that a stop has abandoned as a failure. -/
theorem abandoned_yet_counted :
    ∃ p q w, run blunt (fresh blunt) interrupted = some p ∧ p.workers[0]? = some w ∧
      p.isCancelled w.generation = true ∧ w.phase = .acting ⟨0, "OP", 100, 100⟩ 1 1 (.running 1) ∧
      run blunt p noted = some q ∧ (p.timers.timer "OP").failures = 0 ∧
      (q.timers.timer "OP").failures = 1 := by
  obtain ⟨p, reached⟩ : ∃ p, run blunt (fresh blunt) interrupted = some p := ⟨_, rfl⟩
  obtain ⟨q, ran⟩ : ∃ q, run blunt p noted = some q := by cases reached; exact ⟨_, rfl⟩
  cases reached
  cases ran
  exact ⟨_, _, _, rfl, rfl, rfl, rfl, rfl, rfl, rfl⟩

end Pool

end LoadHarness
