import LoadHarness.Proofs.Lifecycle.Sound
import LoadHarness.Proofs.Lifecycle.Work

/-!
# How workers withdraw

When a token is cancelled its workers are in the middle of things. Each still owes something: the
calls that give back the handle it holds, and word of how its action went. Every turn under a
cancelled token pays off some of that and adds nothing, so `nothing_new_once_cancelled` can say once
and for all what a worker may still do.
-/

namespace LoadHarness

variable {κ : Type}

open Generation

/-- What can be noticed of a worker from outside. -/
inductive Doing where
  /-- The limiter has answered it. -/
  | paced
  /-- Its operation has gone on. -/
  | worked
  | begun (c : ActionCall)
  | answered (c : ActionCall)
  /-- The outcome of its action is in the timers, or is reported as a failure of the worker. -/
  | recorded
deriving DecidableEq, Repr

/-- A commit, a rollback and a close of one handle, and word of the outcome. -/
def Doing.farewell : List Doing :=
  [.answered .commit, .begun .rollback, .answered .rollback, .begun .close, .answered .close,
    .recorded]

namespace Action

/-- The call with which an action comes into this phase. -/
def begun (a : Action Unit) : List Doing := (a.call?.map .begun).toList

/-- What comes of the call of an action in this phase when it moves. -/
def answered (a : Action Unit) : ActionMove Unit → List Doing
  | .abandon => []
  | .misjudge _ => []
  | .answer _ => (a.call?.map .answered).toList

/-- The most that an action in this phase still does once it is cancelled. -/
def owed : Action Unit → List Doing
  | committing _ _ => Doing.farewell
  | running _ => Doing.farewell.drop 1
  | rollingBack _ _ => Doing.farewell.drop 2
  | closing _ _ => Doing.farewell.drop 4
  | acquiring _ => [.recorded]
  | backingOff _ _ => []
  | ended (.error .cancelled) => []
  | ended _ => [.recorded]
  | crashed _ => [.recorded]

theorem owed_of_no_handle {a : Action Unit} (none : a.hasHandle = false) :
    a.owed.Sublist [.recorded] := by
  unfold owed
  split <;> first | exact List.Sublist.refl _ | exact List.nil_sublist _ | cases none

theorem owed_of_other {e : RetryError} (other : e.isCancelled = false) :
    (ended (.error e) : Action Unit).owed = [.recorded] := by
  cases e <;> first | rfl | cases other

/-- An end that the timers are to hear of is not that of a cancelled action. -/
theorem owed_of_counted {result : Except RetryError Unit} (counted : Pool.isCounted result = true) :
    (ended result : Action Unit).owed = [.recorded] := by
  cases result with
  | ok => rfl
  | error e =>
    have mild : e.stopsNothing = true := counted
    simp only [RetryError.stopsNothing, Bool.and_eq_true, Bool.not_eq_true'] at mild
    exact owed_of_other mild.1

end Action

namespace RetryPolicy

/-! ## Actions under a cancelled token -/

variable (policy : RetryPolicy) (slot : Nat) (n : UInt32)

/-- A new action that is cancelled is over at once. -/
theorem begin_cancelled : policy.begin true = (.ended (.error .cancelled) : Action Unit) := by
  simp [RetryPolicy.begin, approach, RetryConfig.delay?, Duration.isZero, Duration.zero]

/-- There is no way to another attempt. -/
theorem approach_withdraws :
    (policy.approach true slot n : Action Unit).begun = [] ∧
      (policy.approach true slot n : Action Unit).owed.Sublist [.recorded] := by
  unfold approach
  split
  · exact ⟨rfl, List.Sublist.refl _⟩
  · split <;> exact ⟨rfl, List.nil_sublist _⟩

/-- A failed attempt is not followed by another. -/
theorem afterFailure_withdraws (f : Failure) :
    (policy.afterFailure true slot n f : Action Unit).begun = [] ∧
      (policy.afterFailure true slot n f : Action Unit).owed.Sublist [.recorded] := by
  unfold afterFailure
  split
  · exact ⟨rfl, List.nil_sublist _⟩
  · exact ⟨rfl, List.Sublist.refl _⟩
  · split
    · exact policy.approach_withdraws slot n
    · exact ⟨rfl, List.Sublist.refl _⟩

/-- A handle is given back with a rollback and a close, or with a close alone. -/
theorem giveBack_withdraws (e : OperationError) :
    ((policy.giveBack n e : Action Unit).begun ++
      (policy.giveBack n e : Action Unit).owed).Sublist (Doing.farewell.drop 1) := by
  unfold giveBack
  dsimp only
  split
  · exact List.drop_sublist_drop_left Doing.farewell (by decide : 1 ≤ 3)
  · exact List.Sublist.refl _

/-- The step: what an action does and what it then owes is part of what it owed. -/
theorem withdraws {a b : Action Unit} {m : ActionMove Unit} (moved : policy.Moves true slot a m b) :
    (a.answered m ++ b.begun ++ b.owed).Sublist a.owed := by
  have drops {c : Action Unit} (calls : List Doing)
      (safe : c.begun = [] ∧ c.owed.Sublist [.recorded]) :
      (calls ++ c.begun ++ c.owed).Sublist (calls ++ [.recorded]) := by
    rw [safe.1, List.append_nil]
    exact safe.2.append_left _
  have closes (calls : List Doing) :
      (calls ++ [Doing.begun .close] ++ Doing.farewell.drop 4).Sublist
        (calls ++ Doing.farewell.drop 3) := by
    rw [List.append_assoc]
    exact List.Sublist.refl _
  cases moved with
  | leaveDelay => exact List.nil_sublist _
  | @leaveAcquire n => exact drops [] (policy.afterFailure_withdraws slot n _)
  | @leaveRun n => exact policy.giveBack_withdraws n _
  | committed =>
    refine (closes [.answered .commit]).trans ?_
    exact (List.drop_sublist_drop_left Doing.farewell (by decide : 1 ≤ 3)).cons_cons _
  | @commitFailed n r e => exact (policy.giveBack_withdraws n e).cons_cons _
  | rolledBack => exact closes [.answered .rollback]
  | rollbackFailed => exact closes [.answered .rollback]
  | closedWell => exact List.Sublist.refl _
  | @closedBadly n f => exact drops [.answered .close] (policy.afterFailure_withdraws slot n f)
  | slept calm => cases calm
  | acquired calm => cases calm
  | refused calm => cases calm
  | returned calm => cases calm
  | failed calm => cases calm
  | breaksOff calling heeded =>
    cases a with
    | committing => exact (by decide : [Doing.answered .commit, .recorded].Sublist Doing.farewell)
    | rollingBack =>
      exact (by decide : [Doing.answered .rollback, .recorded].Sublist (Doing.farewell.drop 2))
    | closing => exact List.Sublist.refl _
    | acquiring | running => cases heeded
    | _ => cases calling
  | misjudges _ attempting =>
    cases a with
    | acquiring => exact List.Sublist.refl _
    | running => exact List.drop_sublist_drop_left Doing.farewell (by decide : 1 ≤ 5)
    | _ => cases attempting

end RetryPolicy

/-! ## Workers under a cancelled token -/

namespace WorkerPhase

/-- The call with which a worker comes into this phase. -/
def begun : WorkerPhase → List Doing
  | acting _ _ _ a => a.begun
  | _ => []

/-- What comes of the call of a worker in this phase when its action moves. -/
def answered (m : ActionMove Unit) : WorkerPhase → List Doing
  | acting _ _ _ a => a.answered m
  | _ => []

/-- The timers hear how the action of a worker in this phase went. -/
def isCounted : WorkerPhase → Bool
  | acting _ _ _ (.ended result) => Pool.isCounted result
  | _ => false

/-- The most that a worker in this phase still does once its token is cancelled. -/
def owed : WorkerPhase → List Doing
  | acting _ _ _ a => a.owed
  | failed _ => [.recorded]
  | _ => []

/-- A worker in this phase has an open handle. -/
def hasHandle : WorkerPhase → Bool
  | acting _ _ _ a => a.hasHandle
  | _ => false

theorem owed_of_no_handle {phase : WorkerPhase} (none : phase.hasHandle = false) :
    phase.owed.Sublist [.recorded] := by
  cases phase with
  | acting => exact Action.owed_of_no_handle none
  | failed => exact List.Sublist.refl _
  | _ => exact List.nil_sublist _

/-- No worker owes more than a farewell. -/
theorem owed_sublist (phase : WorkerPhase) : phase.owed.Sublist Doing.farewell := by
  cases held : phase.hasHandle with
  | false =>
    exact (owed_of_no_handle held).trans (List.drop_sublist 5 Doing.farewell)
  | true =>
    cases phase with
    | acting _ _ _ a => cases a with
      | committing => exact List.Sublist.refl _
      | running => exact List.drop_sublist 1 _
      | rollingBack => exact List.drop_sublist 2 _
      | closing => exact List.drop_sublist 4 _
      | _ => cases held
    | _ => cases held

theorem owed_afterAction (operation : OperationType) (left : UInt32) :
    (Pool.afterAction operation left).owed = [] := by
  unfold Pool.afterAction
  split <;> rfl

end WorkerPhase

/-- What can be noticed of a turn. -/
def WorkEntry.doings (x : WorkEntry κ) : List Doing :=
  match x.move with
  | .paced _ => [.paced]
  | .touch _ => [.worked]
  | .begin => x.after.begun
  | .act _ m => x.before.answered m ++ x.after.begun
  | .conclude => if x.before.isCounted then [.recorded] else []
  | .fault => [.recorded]
  | _ => []

/-- What can be noticed of the worker at a position, in order. -/
def doingsOf (i : Nat) (log : List (WorkEntry κ)) : List Doing :=
  (log.filter (·.worker == i)).flatMap (·.doings)

theorem doingsOf_append (i : Nat) (log more : List (WorkEntry κ)) :
    doingsOf i (log ++ more) = doingsOf i log ++ doingsOf i more := by
  simp only [doingsOf, List.filter_append, List.flatMap_append]

/-- The step: what a worker does and what it then owes is part of what it owed. -/
theorem WorkerPhase.Turns.withdraws {plan : PoolPlan κ} {halted : Bool} {now number : Nat}
    {before after : WorkerPhase} {m : WorkerMove κ}
    (turns : before.Turns plan true halted now number m after) (i : Nat) :
    ((WorkEntry.mk i before m after).doings ++ after.owed).Sublist before.owed := by
  cases turns with
  | stays calm => cases calm
  | leaves => exact List.nil_sublist _
  | breaksOff calm => cases calm
  | picks calm => cases calm
  | quits => exact List.nil_sublist _
  | granted calm => cases calm
  | refused calm => cases calm
  | begins =>
    show (Action.begun (plan.policy.begin true) ++ (plan.policy.begin true).owed).Sublist []
    rw [RetryPolicy.begin_cancelled]
    exact List.Sublist.refl _
  | touches calm => cases calm
  | acts moved => exact plan.policy.withdraws _ moved
  | succeeds =>
    rw [owed_afterAction, List.append_nil]
    exact List.Sublist.refl _
  | @givesUp _ _ _ e mild =>
    have counted : Pool.isCounted (.error e) = true := mild
    rw [owed_afterAction, List.append_nil, owed, Action.owed_of_counted counted]
    simp only [WorkEntry.doings, isCounted, counted]
    exact List.Sublist.refl _
  | obeys => exact List.nil_sublist _
  | @fails _ _ _ e fatal =>
    have other : e.isCancelled = false := by cases e <;> first | rfl | cases fatal
    rw [owed, owed, Action.owed_of_other other]
    simp only [WorkEntry.doings, isCounted, Pool.isCounted, RetryError.stopsNothing, fatal]
    simp
  | unpaced calm => cases calm
  | unnoted counted =>
    rw [owed, owed, Action.owed_of_counted counted]
    exact List.Sublist.refl _
  | crashes => exact List.Sublist.refl _
  | faults => exact List.Sublist.refl _
  | releases => exact List.nil_sublist _

/-- An action that begins under a cancelled token is over at once. -/
theorem WorkerPhase.Turns.begins_cancelled {plan : PoolPlan κ} {halted : Bool} {now number : Nat}
    {before after : WorkerPhase} (turns : before.Turns plan true halted now number .begin after) :
    ∃ operation left since, after = .acting operation left since (.ended (.error .cancelled)) := by
  cases turns with
  | begins => exact ⟨_, _, _, by rw [RetryPolicy.begin_cancelled]⟩

theorem WorkerPhase.Turns.not_touch {plan : PoolPlan κ} {halted : Bool} {now number : Nat}
    {before after : WorkerPhase} {m : WorkerMove κ}
    (turns : before.Turns plan true halted now number m after) : m.isTouch = false := by
  cases turns <;> first | rfl | contradiction

/-- The timers hear nothing that is not on record. -/
theorem WorkerPhase.note_of_unrecorded (now : Nat) (ts : Timers) {i : Nat}
    {before after : WorkerPhase} {m : WorkerMove κ}
    (silent : Doing.recorded ∉ (WorkEntry.mk i before m after).doings) :
    before.note now ts m = ts := by
  have uncounted (c : before.isCounted = false) : before.conclusion now ts = ts := by
    cases before with
    | acting operation left since a => cases a with
      | ended result => cases result with
        | ok => cases c
        | error e => exact if_neg (Bool.eq_false_iff.1 c)
      | _ => rfl
    | _ => rfl
  cases m with
  | conclude =>
    refine uncounted (Bool.eq_false_iff.2 fun counted => silent ?_)
    simp [WorkEntry.doings, counted]
  | _ => rfl

/-! ## Tokens that stay cancelled -/

theorem Generation.cancelledIn_modify {gs : List Generation} {g h : Nat}
    {f : Generation → Generation} (keeps : ∀ x, x.cancelled = true → (f x).cancelled = true)
    (was : cancelledIn gs h = true) : cancelledIn (gs.modify g f) h = true := by
  unfold cancelledIn at was ⊢
  rw [List.getElem?_modify]
  cases here : gs[h]? with
  | none => simp [here] at was
  | some x =>
    simp only [here, Option.map_some, Option.getD_some] at was
    rw [Option.map_eq_map, Option.map_some]
    split
    · exact keeps x was
    · exact was

theorem Generation.cancelledIn_cancel_other {gs : List Generation} {g h : Nat} (other : h ≠ g) :
    cancelledIn (gs.modify g cancel) h = cancelledIn gs h := by
  unfold cancelledIn
  rw [List.getElem?_modify_ne _ _ other.symm]

/-- A token that is cancelled stays so. -/
theorem PoolStanding.cancelled_of_turn {plan : PoolPlan κ} {s t : PoolStanding κ} {m : PoolMove κ}
    (turned : Turns plan m s t) {g : Nat} (was : cancelledIn s.generations g = true) :
    cancelledIn t.generations g = true := by
  cases turned with
  | created =>
    unfold cancelledIn at was ⊢
    have old : g < s.generations.length := by
      refine Nat.lt_of_not_le fun beyond => ?_
      simp [List.getElem?_eq_none beyond] at was
    rwa [List.getElem?_append_left old]
  | started => exact was
  | stopped => exact cancelledIn_modify (fun _ _ => rfl) was
  | discarded => exact cancelledIn_modify (fun _ => id) was
  | destroyed => exact was
  | finished => exact cancelledIn_modify (fun _ => id) was

namespace Pool

variable {plan : PoolPlan κ} {p q r : Pool κ} {i g : Nat} {w w' : Worker κ}
  {es : List (PoolEvent κ)}

theorem cancelled_of_follows {m : PoolMove κ} (follows : Follows plan m p q)
    (was : p.isCancelled g = true) : q.isCancelled g = true :=
  follows.lift
    (R := fun s t => cancelledIn s.generations g = true → cancelledIn t.generations g = true)
    (fun _ => id) (fun turned => PoolStanding.cancelled_of_turn turned) was

/-- The run: it stays so for ever. -/
theorem cancelled_of_run (ran : run plan p es = some q) (was : p.isCancelled g = true) :
    q.isCancelled g = true :=
  run_induction (fun _ q => q.isCancelled g = true) was
    (fun _ was made => cancelled_of_follows (follows_of_moves (moves_of_after made)) was) ran

/-- No worker is launched under a cancelled token. -/
theorem launched_of_cancelled (sound : p.standing.Sound plan) (ran : run plan p es = some q)
    (worked : q.workers[i]? = some w') (cancelled : p.isCancelled w'.generation = true) :
    ∃ w, p.workers[i]? = some w ∧ w.generation = w'.generation := by
  suffices all : ∀ (i : Nat) b, q.standing.crew[i]? = some b → p.isCancelled b.generation = true →
      ∃ b', p.standing.crew[i]? = some b' ∧ b'.generation = b.generation by
    have badge : q.standing.crew[i]? = some w'.badge := by
      simp only [standing, List.getElem?_map, worked, Option.map_some]
    obtain ⟨b, here, generation⟩ := all i w'.badge badge cancelled
    simp only [standing, List.getElem?_map] at here
    obtain ⟨w, launched, rfl⟩ := Option.map_eq_some_iff.1 here
    exact ⟨w, launched, generation⟩
  refine run_induction (fun _ q => ∀ (i : Nat) b, q.standing.crew[i]? = some b →
    p.isCancelled b.generation = true →
      ∃ b', p.standing.crew[i]? = some b' ∧ b'.generation = b.generation) ?_ ?_ ran
  · exact fun i b here _ => ⟨b, here, rfl⟩
  intro es q e r ran ih made i b here cancelled
  have still := cancelled_of_run ran cancelled
  rcases follows_of_moves (moves_of_after made) with same | turned
  · exact ih i b (same ▸ here) cancelled
  · generalize r.standing = t, e.move = m at turned here
    cases turned with
    | started was =>
      by_cases old : i < q.standing.crew.length
      · exact ih i b (List.getElem?_append_left old ▸ here) cancelled
      · -- whoever is new belongs to the current generation, whose token is not cancelled
        rw [List.getElem?_append_right (Nat.le_of_not_lt old)] at here
        obtain ⟨slot, -, rfl⟩ := List.mem_map.1 (List.mem_of_getElem? here)
        have calm := ((sound_of_continuation sound ran).created was).2.1
        cases calm.symm.trans still
    | @finished j b' _ launched =>
      rw [List.getElem?_set] at here
      split at here
      · next same =>
        split at here <;> cases here
        exact same ▸ ih j b' launched cancelled
      · exact ih i b here cancelled
    | created => exact ih i b here cancelled
    | stopped => exact ih i b here cancelled
    | discarded => exact ih i b here cancelled
    | destroyed => exact ih i b here cancelled

/-! ## Schedules after a cancellation -/

/-- Worker `w`, the one at position `i`, has become `w'` under a cancelled token and left this on
record. -/
structure Withdraws (i : Nat) (w : Worker κ) (log : List (WorkEntry κ)) (w' : Worker κ) : Prop where
  generation : w'.generation = w.generation
  context : w'.context = w.context
  pays : (doingsOf i log ++ w'.phase.owed).Sublist w.phase.owed
  begins : ∀ x ∈ log, x.worker = i → x.move = .begin →
    ∃ operation left since, x.after = .acting operation left since (.ended (.error .cancelled))

theorem doingsOf_own (x : WorkEntry κ) : doingsOf x.worker [x] = x.doings := by
  simp [doingsOf]

/-- A turn of its own pays off some of what a worker owes. -/
theorem Withdraws.own_turn {log : List (WorkEntry κ)} {now : Nat} {m : WorkerMove κ}
    {w₁ w₂ : Worker κ} (h : Withdraws i w log w₁) (turned : Turned plan q now i w₁ m w₂ r)
    (cancelled : q.isCancelled w.generation = true) :
    Withdraws i w (log ++ [⟨i, w₁.phase, m, w₂.phase⟩]) w₂ := by
  have turns := turned.turns
  rw [h.generation, cancelled] at turns
  refine ⟨turned.generation.trans h.generation, (turned.context turns.not_touch).trans h.context,
    ?_, ?_⟩
  · rw [doingsOf_append, List.append_assoc, doingsOf_own ⟨i, w₁.phase, m, w₂.phase⟩]
    exact ((turns.withdraws i).append_left _).trans h.pays
  · intro x member own begin
    rcases List.mem_append.1 member with old | new
    · exact h.begins x old own begin
    · cases List.mem_singleton.1 new
      cases begin
      exact turns.begins_cancelled

/-- Those of others do not concern it. -/
theorem Withdraws.other_turn {log : List (WorkEntry κ)} (h : Withdraws i w log w')
    {more : List (WorkEntry κ)} (others : ∀ x ∈ more, x.worker ≠ i) :
    Withdraws i w (log ++ more) w' := by
  have silent : doingsOf i more = [] := by
    have none : more.filter (·.worker == i) = [] :=
      List.filter_eq_nil_iff.2 fun x member => by simpa using others x member
    rw [doingsOf, none]
    rfl
  refine ⟨h.generation, h.context, ?_, fun x member own => ?_⟩
  · rw [doingsOf_append, silent, List.append_nil]
    exact h.pays
  · rcases List.mem_append.1 member with old | new
    · exact h.begins x old own
    · exact absurd own (others x new)

/-- The step: every event leaves a withdrawing worker withdrawing. -/
theorem Withdraws.step {log : List (WorkEntry κ)} {e : PoolEvent κ} {w₁ : Worker κ}
    (h : Withdraws i w log w₁) (here : q.workers[i]? = some w₁)
    (cancelled : q.isCancelled w.generation = true) (made : q.after? plan e = some r) :
    ∃ w₂, r.workers[i]? = some w₂ ∧ Withdraws i w (log ++ q.entries r e.move) w₂ := by
  have works := works_of_after made
  generalize e.move = move at works
  cases works with
  | @turned j v v' m _ launched turned =>
    rw [turned.entries_eq launched]
    by_cases own : j = i
    · subst own
      cases here.symm.trans launched
      exact ⟨v', turned.here launched, h.own_turn turned cancelled⟩
    · refine ⟨w₁, ?_, h.other_turn fun x member => ?_⟩
      · rw [turned.workers, List.getElem?_set_ne own]
        exact here
      · rw [List.mem_singleton.1 member]
        exact own
  | joined new workers _ _ other =>
    rw [entries_of_other other]
    refine ⟨w₁, ?_, h.other_turn fun _ member => absurd member List.not_mem_nil⟩
    rw [workers, List.getElem?_append_left (List.getElem?_eq_some_iff.1 here).1]
    exact here

/-- The run: so it is after every schedule. -/
theorem withdraws_of_run (launched : p.workers[i]? = some w)
    (cancelled : p.isCancelled w.generation = true) (ran : run plan p es = some q) :
    ∃ w', q.workers[i]? = some w' ∧ Withdraws i w (record plan p es) w' := by
  refine run_induction (fun es q => ∃ w', q.workers[i]? = some w' ∧
    Withdraws i w (record plan p es) w') ?_ ?_ ran
  · exact ⟨w, launched, rfl, rfl, List.Sublist.refl _,
      fun _ member => absurd member List.not_mem_nil⟩
  · rintro es q e r ran ⟨w₁, here, h⟩ made
    rw [record_concat ran made]
    exact h.step here (cancelled_of_run ran cancelled) made

/-- A step of the worker at position `i`, of generation `g`, that leaves the rest of the pool alone,
but perhaps for the status and the tokens: the other workers, the guards of other generations, and
the timers unless it records an outcome. -/
structure Spares (i g : Nat) (m : WorkerMove κ) (p q : Pool κ) : Prop where
  counts : ∀ h, h ≠ g → q.remainingOf h = p.remainingOf h
  others : ∀ j, j ≠ i → q.workers[j]? = p.workers[j]?
  slots : q.slots = p.slots
  handles : q.handles = p.handles
  calls : q.calls = p.calls
  reporter : q.reporter = p.reporter
  timers : .recorded ∉ doingsOf i (p.entries q (.worker i m)) → q.timers = p.timers

/-- A step that leaves the status and the tokens alone as well. -/
structure OwnAffair (i g : Nat) (m : WorkerMove κ) (p q : Pool κ) : Prop extends
    Spares i g m p q where
  status : q.status = p.status
  tokens : ∀ h, q.isCancelled h = p.isCancelled h

/-- The report of a failure with which a worker of generation `g` stops a later generation: the
status and the token of that one are all that it touches. -/
structure Overreach (i g : Nat) (m : WorkerMove κ) (p q : Pool κ) : Prop extends
    Spares i g m p q where
  report : m = .fault
  later : g < p.current
  started : p.status = .started
  stopped : q.status = .stopped
  told : q.isCancelled p.current = true
  tokens : ∀ h, h ≠ p.current → q.isCancelled h = p.isCancelled h

/-- Only a started pool is stopped by the report of a failure. -/
theorem halt_of_not_started (other : p.status ≠ .started) : p.halt = p := by
  simp only [halt, ServiceStatus.move, if_neg other]

theorem halt_of_started (on : p.status = .started) :
    p.halt = { p with
      status := .stopped
      generations := p.generations.modify p.current cancel } := by
  simp only [halt, ServiceStatus.move, if_pos on]
  rfl

/-- A worker whose token is cancelled minds its own affairs, unless it reports a failure to a pool
that has been started again. -/
theorem ownAffair_or_overreach {m : WorkerMove κ} {e : PoolEvent κ} (sound : p.standing.Sound plan)
    (launched : p.workers[i]? = some w) (cancelled : p.isCancelled w.generation = true)
    (made : p.after? plan e = some q) (move : e.move = .worker i m) :
    OwnAffair i w.generation m p q ∨ Overreach i w.generation m p q := by
  have timers : .recorded ∉ doingsOf i (p.entries q (.worker i m)) → q.timers = p.timers := by
    have works := works_of_after made
    rw [move] at works
    cases works with
    | @turned _ v v' _ _ here turned =>
      rw [turned.entries_eq here, doingsOf_own ⟨i, v.phase, m, v'.phase⟩, turned.timers]
      exact WorkerPhase.note_of_unrecorded e.now p.timers
    | joined _ _ _ timers => exact fun _ => timers
  have apart (f : Worker κ → Worker κ) (j : Nat) (other : j ≠ i) :
      (p.workers.modify i f)[j]? = p.workers[j]? := List.getElem?_modify_ne _ _ other.symm
  have moved := moves_of_after made
  rw [move] at moved
  cases moved with
  | reports own => obtain ⟨_, h | h⟩ := own <;> cases h
  | goes _ goes => cases goes
  | @works _ v _ _ here goes =>
    cases here.symm.trans launched
    cases goes with
    | works v' =>
      have spares : Spares i w.generation m p { p with workers := p.workers.set i v', timers := _ } :=
        ⟨fun _ _ => rfl, fun j other => List.getElem?_set_ne other.symm, rfl, rfl, rfl, rfl, timers⟩
      exact .inl ⟨spares, rfl, fun _ => rfl⟩
    | faults =>
      by_cases on : p.status = .started
      · -- the current token of a started pool is not cancelled, so it is not this worker's
        have live : p.isCancelled p.current = false := (sound.started on).2
        have rank : w.generation ≤ p.current := sound.ranked w.badge
          (List.mem_map_of_mem (List.mem_of_getElem? launched))
        have other : w.generation ≠ p.current := by
          intro same
          rw [same, live] at cancelled
          cases cancelled
        rw [halt_of_started on] at timers ⊢
        have spares : Spares i w.generation .fault p (({ p with
            status := .stopped
            generations := p.generations.modify p.current cancel } : Pool κ).setPhase i .leaving) :=
          ⟨fun _ _ => remainingIn_cancel _ _, apart _, rfl, rfl, rfl, rfl, timers⟩
        exact .inr ⟨spares, rfl, Nat.lt_of_le_of_ne rank other, on, rfl,
          cancelledIn_cancel sound.current_lt, fun h apart => cancelledIn_cancel_other apart⟩
      · rw [halt_of_not_started on] at timers ⊢
        have spares : Spares i w.generation .fault p (p.setPhase i .leaving) :=
          ⟨fun _ _ => rfl, apart _, rfl, rfl, rfl, rfl, timers⟩
        exact .inl ⟨spares, rfl, fun _ => rfl⟩
    | releases =>
      have spares : Spares i w.generation .release p
          ((p.release w.generation 1).setPhase i .finished) := by
        refine ⟨fun h other => ?_, apart _, rfl, rfl, rfl, rfl, timers⟩
        exact (remainingIn_release _ _ _).trans (if_neg other.symm ▸ Nat.sub_zero _)
      exact .inl ⟨spares, rfl, fun h => cancelledIn_release _ _ _⟩

/-- **Nothing new once a token is cancelled.** Whatever pool, operations and classes of failures,
and whatever is done when: from the cancellation of their token on, the workers of a generation get
no tokens, acquire nothing, and neither begin nor go on with an operation. Each at most finishes the
commit, rollback and close of a handle that it already has and records one outcome; every action
that it begins is cancelled at once; and it touches nothing else of the pool, but for one case: the
report of a failure to a pool that has been created and started anew stops that later generation. -/
theorem nothing_new_once_cancelled (plan : PoolPlan κ) {es₀ es : List (PoolEvent κ)} {p q : Pool κ}
    {i : Nat} {w' : Worker κ} (reached : run plan (fresh plan) es₀ = some p)
    (ran : run plan p es = some q) (worked : q.workers[i]? = some w')
    (cancelled : p.isCancelled w'.generation = true) :
    ∃ w, p.workers[i]? = some w ∧ w.generation = w'.generation ∧ w.context = w'.context ∧
      (doingsOf i (record plan p es)).Sublist
        [.answered .commit, .begun .rollback, .answered .rollback, .begun .close, .answered .close,
          .recorded] ∧
      (w.phase.hasHandle = false → (doingsOf i (record plan p es)).Sublist [.recorded]) ∧
      (∀ x ∈ record plan p es, x.worker = i → x.move = .begin →
        ∃ operation left since,
          x.after = .acting operation left since (.ended (.error .cancelled))) ∧
      (∀ before e after r r' m, es = before ++ e :: after → run plan p before = some r →
        r.after? plan e = some r' → e.move = .worker i m →
        OwnAffair i w.generation m r r' ∨ Overreach i w.generation m r r') := by
  have sound : p.standing.Sound plan := sound_of_run reached
  obtain ⟨w, launched, generation⟩ := launched_of_cancelled sound ran worked cancelled
  rw [← generation] at cancelled
  obtain ⟨w'', here, all⟩ := withdraws_of_run launched cancelled ran
  cases worked.symm.trans here
  have paid : (doingsOf i (record plan p es)).Sublist w.phase.owed :=
    (List.sublist_append_left _ _).trans all.pays
  refine ⟨w, launched, generation, all.context.symm, paid.trans w.phase.owed_sublist,
    fun none => paid.trans (WorkerPhase.owed_of_no_handle none), all.begins, ?_⟩
  rintro before e after r r' m - part made move
  obtain ⟨w₁, here₁, h⟩ := withdraws_of_run launched cancelled part
  have still : r.isCancelled w₁.generation = true := h.generation ▸ cancelled_of_run part cancelled
  have affair := ownAffair_or_overreach (sound_of_continuation sound part) here₁ still made move
  rwa [h.generation] at affair

/-- Two workers and a stop: the first has two actions to do and is about to commit one, the second
waits for tokens. -/
def caught : List (PoolEvent Unit) :=
  [.call .create, .prepared 0 (.ok ()), .call .start, .worker 1 (.pick 0 (some 1)),
    .worker 0 (.pick 0 (some 2)), .worker 0 (.paced (.ok ())), .worker 0 .begin,
    .worker 0 (.act 0 (.answer .acquired)), .worker 0 (.act 0 (.answer (.returned ()))),
    .call .stop].map fun m => ⟨1, m⟩

/-- What the two still do. -/
def farewells : List (PoolEvent Unit) :=
  [.worker 1 .quit, .worker 0 (.act 0 (.answer .committed)), .worker 0 (.act 0 (.answer .closed)),
    .worker 0 .conclude, .worker 0 .begin, .worker 1 .release, .worker 0 .conclude,
    .worker 0 .release].map fun m => ⟨2, m⟩

/-- Two workers that a stop catches, one about to commit and one without anything. -/
theorem nothing_new_once_cancelled_caught :
    ∃ p q, run pair (fresh pair) caught = some p ∧ p.isCancelled 1 = true ∧ p.remaining = 2 ∧
      run pair p farewells = some q ∧ q.remaining = 0 ∧
      doingsOf 0 (record pair p farewells) =
        [.answered .commit, .begun .close, .answered .close, .recorded] ∧
      doingsOf 1 (record pair p farewells) = [] ∧
      (∀ x ∈ record pair p farewells, x.worker = 0 → x.move = .begin →
        ∃ operation left since,
          x.after = .acting operation left since (.ended (.error .cancelled))) := by
  obtain ⟨p, reached⟩ : ∃ p, run pair (fresh pair) caught = some p := ⟨_, rfl⟩
  obtain ⟨q, ran⟩ : ∃ q, run pair p farewells = some q := by cases reached; exact ⟨_, rfl⟩
  have cancelled : p.isCancelled 1 = true := by cases reached; rfl
  obtain ⟨w', worked, generation⟩ : ∃ w', q.workers[0]? = some w' ∧ w'.generation = 1 := by
    cases reached; cases ran; exact ⟨_, rfl, rfl⟩
  obtain ⟨-, -, -, -, -, -, begins, -⟩ :=
    nothing_new_once_cancelled pair reached ran worked (generation ▸ cancelled)
  refine ⟨p, q, reached, cancelled, ?_, ran, ?_, ?_, ?_, begins⟩ <;>
    · cases reached; cases ran; rfl

/-- The first worker fails to commit, for good. -/
def ruin : List (PoolEvent Unit) :=
  [.act 0 (.answer (.commitFailed (.fatal "disk full"))), .act 0 (.answer .rolledBack),
    .act 0 (.answer .closed), .conclude].map fun m => ⟨4, .worker 0 m⟩

/-- The stopped pool is destroyed, and created and started anew while the two are still at work;
then the first of them fails. -/
def renewal : List (PoolEvent Unit) :=
  [.proceed 2, .call .destroy, .proceed 3, .call .create, .prepared 4 (.ok ()),
    .call .start].map (fun m => ⟨3, m⟩) ++ ruin

/-- A worker whose token has been cancelled does more than to finish what it had begun: its report
stops workers whose token nobody has cancelled. -/
theorem stopped_by_the_withdrawn :
    ∃ p q r w, run pair (fresh pair) caught = some p ∧ p.isCancelled 1 = true ∧
      run pair p renewal = some q ∧ q.workers[0]? = some w ∧ w.generation = 1 ∧
      q.current = 2 ∧ q.status = .started ∧ q.isCancelled 2 = false ∧
      q.after? pair ⟨5, .worker 0 .fault⟩ = some r ∧ r.status = .stopped ∧
      r.isCancelled 2 = true ∧ ¬OwnAffair 0 w.generation .fault q r := by
  refine ⟨_, _, _, _, rfl, rfl, rfl, rfl, rfl, rfl, rfl, rfl, rfl, rfl, rfl, fun affair => ?_⟩
  cases affair.status

end Pool

end LoadHarness
