import LoadHarness.Proofs.Lifecycle.Faults
import LoadHarness.Proofs.Lifecycle.Status

/-!
# Who attends a started pool

Workers are meant to loop until their pool is stopped. But a worker takes any failure of the class
of cancellations for its own cancellation, whoever raised it: one such answer, and it leaves a pool
that goes on without it. `attended_while_started` says what is left of the intention. Apart from
such answers nobody leaves before the token is cancelled, and the count of a started pool is short
by exactly those who have left.
-/

namespace LoadHarness

variable {κ : Type}

/-- An answer whose failure the policy takes for a cancellation. -/
def ActionMove.tellsCancelled (policy : RetryPolicy) : ActionMove Unit → Bool
  | .answer (.acquireFailed e) => policy.classify e == .cancelled
  | .answer (.failed e) => policy.classify e == .cancelled
  | .answer (.commitFailed e) => policy.classify e == .cancelled
  | _ => false

/-- The same of a turn. -/
def WorkEntry.tellsCancelled (policy : RetryPolicy) (x : WorkEntry κ) : Bool :=
  match x.move with
  | .act _ m => m.tellsCancelled policy
  | _ => false

/-- An action in this phase is over because it was cancelled, or will be once its handle has been
given back. -/
def Action.isWithdrawing : Action Unit → Bool
  | .ended (.error e) => e.isCancelled
  | .rollingBack _ f => f.verdict == .cancelled
  | .closing _ (.error f) => f.verdict == .cancelled
  | _ => false

namespace RetryPolicy

variable (policy : RetryPolicy) (cancelled : Bool) (slot : Nat) (n : UInt32)

/-- On the way to an attempt only a cancelled token makes an action withdraw. -/
theorem cancelled_of_approach
    (withdraws : (policy.approach cancelled slot n : Action Unit).isWithdrawing = true) :
    cancelled = true := by
  unfold approach at withdraws
  split at withdraws
  · cases withdraws
  · split at withdraws
    · cases cancelled
      · cases withdraws
      · rfl
    · cases withdraws

/-- After a failure its class may do so as well. -/
theorem cancelled_of_afterFailure (f : Failure)
    (withdraws : (policy.afterFailure cancelled slot n f : Action Unit).isWithdrawing = true) :
    f.verdict = .cancelled ∨ cancelled = true := by
  unfold afterFailure at withdraws
  split at withdraws
  · next verdict => exact .inl verdict
  · cases withdraws
  · split at withdraws
    · exact .inr (policy.cancelled_of_approach cancelled slot n withdraws)
    · cases withdraws

/-- A handle is given back by an action that withdraws if its failure is a cancellation. -/
theorem isWithdrawing_giveBack (e : OperationError) :
    (policy.giveBack n e : Action Unit).isWithdrawing = (policy.classify e == .cancelled) := by
  rw [giveBack_eq]
  split <;> rfl

/-- The step: an action withdraws only because it is cancelled or was told so. -/
theorem withdraws_or_told {a b : Action Unit} {m : ActionMove Unit}
    (moved : policy.Moves cancelled slot a m b) (withdraws : b.isWithdrawing = true) :
    a.isWithdrawing = true ∨ cancelled = true ∨ m.tellsCancelled policy = true := by
  cases moved with
  | leaveDelay now => exact .inr (.inl now)
  | leaveAcquire now => exact .inr (.inl now)
  | leaveRun now => exact .inr (.inl now)
  | slept => cases withdraws
  | acquired => cases withdraws
  | @refused n e calm =>
    rcases policy.cancelled_of_afterFailure _ _ _ _ withdraws with told | now
    · exact .inr (.inr (beq_iff_eq.2 told))
    · cases now
  | returned => cases withdraws
  | @failed n e =>
    rw [isWithdrawing_giveBack] at withdraws
    exact .inr (.inr withdraws)
  | committed => cases withdraws
  | @commitFailed n r e =>
    rw [isWithdrawing_giveBack] at withdraws
    exact .inr (.inr withdraws)
  | rolledBack => exact .inl withdraws
  | rollbackFailed => exact .inl withdraws
  | closedWell => cases withdraws
  | @closedBadly n f =>
    rcases policy.cancelled_of_afterFailure _ _ _ _ withdraws with told | now
    · exact .inl (beq_iff_eq.2 told)
    · exact .inr (.inl now)
  | breaksOff => cases withdraws
  | misjudges => cases withdraws

end RetryPolicy

namespace WorkerPhase

/-- A worker in this phase has left its loop without a failure, or is about to. -/
def isQuitting : WorkerPhase → Bool
  | acting _ _ _ a => a.isWithdrawing
  | leaving => true
  | finished => true
  | _ => false

theorem isQuitting_afterAction (operation : OperationType) (left : UInt32) :
    (Pool.afterAction operation left).isQuitting = false := by
  unfold Pool.afterAction
  split <;> rfl

variable {plan : PoolPlan κ} {cancelled halted : Bool} {now number : Nat}
  {before after : WorkerPhase} {m : WorkerMove κ}

/-- The step: a worker quits because it is cancelled, was told so, or has reported its failure. -/
theorem Turns.quits_or_told (turns : before.Turns plan cancelled halted now number m after)
    (told : halted = true → cancelled = true) (quits : after.isQuitting = true) (i : Nat) :
    before.isQuitting = true ∨ (cancelled || m.isFault) = true ∨
      (WorkEntry.mk i before m after).tellsCancelled plan.policy = true := by
  have now (yes : cancelled = true) : (cancelled || m.isFault) = true := by
    rw [yes, Bool.true_or]
  cases turns with
  | stays => cases quits
  | leaves why =>
    rcases why with yes | stopped
    · exact .inr (.inl (now yes))
    · exact .inr (.inl (now (told stopped)))
  | breaksOff => cases quits
  | picks => cases quits
  | quits yes => exact .inr (.inl (now yes))
  | granted => cases quits
  | refused => cases quits
  | unpaced => cases quits
  | begins => exact .inr (.inl (now (plan.policy.cancelled_of_approach cancelled 0 0 quits)))
  | touches => cases quits
  | acts moved =>
    rcases plan.policy.withdraws_or_told cancelled _ moved quits with was | yes | answered
    · exact .inl was
    · exact .inr (.inl (now yes))
    · exact .inr (.inr answered)
  | succeeds => rw [isQuitting_afterAction] at quits; cases quits
  | givesUp => rw [isQuitting_afterAction] at quits; cases quits
  | obeys => exact .inl rfl
  | fails => cases quits
  | unnoted => cases quits
  | crashes => cases quits
  | faults => exact .inr (.inl (Bool.or_true _))
  | releases => exact .inl rfl

end WorkerPhase

/-- A worker that quits has a cancelled token or an answer on record that told it so. -/
def Attends (policy : RetryPolicy) (log : List (WorkEntry κ)) (cancelled : Bool)
    (phase : WorkerPhase) : Prop :=
  phase.isQuitting = true → cancelled = true ∨ ∃ x ∈ log, x.tellsCancelled policy = true

/-- All its course a worker that quits has been cancelled or told so. -/
theorem attends (plan : PoolPlan κ) : Pool.CourseInvariant plan (Attends plan.policy) where
  launch := nofun
  cancel := fun _ _ => .inl rfl
  turn := by
    intro log cancelled halted now number i before m after attends turns told quits
    have new : ⟨i, before, m, after⟩ ∈ log ++ [(⟨i, before, m, after⟩ : WorkEntry κ)] :=
      List.mem_append_right _ (List.mem_singleton_self _)
    rcases turns.quits_or_told told quits i with was | yes | answered
    · rcases attends was with yes | ⟨x, member, answered⟩
      · exact .inl (by rw [yes, Bool.true_or])
      · exact .inr ⟨x, List.mem_append_left _ member, answered⟩
    · exact .inl yes
    · exact .inr ⟨_, new, answered⟩

namespace Pool

open PoolStanding

variable {plan : PoolPlan κ} {p o : Pool κ} {es : List (PoolEvent κ)}

/-- Workers of a generation. -/
def staffOf (p : Pool κ) (g : Nat) : Nat := p.workers.countP (·.generation == g)

/-- Workers of a generation that have finished. -/
def goneOf (p : Pool κ) (g : Nat) : Nat :=
  p.workers.countP fun w => w.generation == g && w.isFinished

/-- A launch staffs its generation. -/
theorem staffOf_of_launched (origin : o.standing.Sound plan) (ready : o.status = .created)
    (launched : LaunchedFrom plan o p) : p.staffOf p.current = plan.threads := by
  obtain ⟨current, bearers⟩ := launched
  have staff : p.staffOf p.current = p.standing.bearers.countP (·.2 == p.current) := by
    simp only [staffOf, PoolStanding.bearers, standing, List.countP_map]
    rfl
  have older : o.standing.bearers.countP (·.2 == o.current) = 0 := by
    refine List.countP_eq_zero.2 fun b member => ?_
    obtain ⟨badge, among, rfl⟩ := List.mem_map.1 member
    have before : badge.generation < o.current := (origin.created ready).2.2 badge among
    have other : badge.generation ≠ o.current := Nat.ne_of_lt before
    simpa [Badge.bearer] using other
  have newer : ((List.range plan.threads).map (·, o.current)).countP (·.2 == o.current) =
      plan.threads := by
    rw [List.countP_map]
    simp [Function.comp_def]
  rw [staff, current, bearers, List.countP_append, older, newer, Nat.zero_add]

/-- Whoever works for a generation has finished or has not. -/
theorem staffOf_eq (p : Pool κ) (g : Nat) :
    p.staffOf g = Badge.unfinishedIn p.standing.crew g + p.goneOf g := by
  have unfinished : Badge.unfinishedIn p.standing.crew g =
      p.workers.countP fun w => w.generation == g && !w.isFinished := by
    simp only [Badge.unfinishedIn, standing, List.countP_map]
    rfl
  rw [staffOf, goneOf, unfinished, Nat.add_comm,
    List.countP_eq_countP_filter_add p.workers (·.generation == g) (·.isFinished)]
  simp only [List.countP_filter]

/-- The count of a started pool, and those who have left it, are all of its threads. -/
theorem remaining_add_gone (ran : run plan (fresh plan) es = some p) (on : p.status = .started) :
    p.remaining + p.goneOf p.current = plan.threads := by
  have sound : p.standing.Sound plan := sound_of_run ran
  obtain ⟨l, launched⟩ := launch_of_run ran on
  have staffed := staffOf_of_launched (sound_of_run l.reached) l.ready launched
  have counted : p.remaining = Badge.unfinishedIn p.standing.crew p.current +
    p.standing.waitingIn p.current := sound.counted p.current
  have slots := waitingIn_of_no_slots (sound.started on).1 p.standing.current
  have split := staffOf_eq p p.current
  have same : p.standing.waitingIn p.current = 0 := slots
  omega

/-- **Workers attend a started pool.** Whatever pool, operations and classes of failures, and
whatever is done when: nobody leaves its loop before its token is cancelled, unless an answer was
taken for a cancellation. So the count of a started pool and those of its workers that have finished
together are its threads, and as long as none of its workers has got such an answer they all still
are in their loops, or on their way out with a failure. -/
theorem attended_while_started (plan : PoolPlan κ) {es : List (PoolEvent κ)} {p : Pool κ}
    (ran : run plan (fresh plan) es = some p) :
    (∀ i w, p.workers[i]? = some w → w.phase = .leaving ∨ w.phase = .finished →
      p.isCancelled w.generation = true ∨
        ∃ x ∈ record plan (fresh plan) es, x.worker = i ∧
          x.tellsCancelled plan.policy = true) ∧
    (p.status = .started →
      p.remaining + p.goneOf p.current = plan.threads ∧
      ((∀ x ∈ record plan (fresh plan) es, ∀ w, p.workers[x.worker]? = some w →
          w.generation = p.current → x.tellsCancelled plan.policy = false) →
        p.remaining = plan.threads ∧
          ∀ w ∈ p.workers, w.generation = p.current → w.phase ≠ .leaving ∧ w.phase ≠ .finished)) := by
  have quitters : ∀ i w, p.workers[i]? = some w → w.phase = .leaving ∨ w.phase = .finished →
      p.isCancelled w.generation = true ∨
        ∃ x ∈ record plan (fresh plan) es, x.worker = i ∧
          x.tellsCancelled plan.policy = true := by
    intro i w here quits
    have quitting : w.phase.isQuitting = true := by
      rcases quits with leaving | finished
      · rw [leaving]; rfl
      · rw [finished]; rfl
    rcases course_induction (attends plan) sound_fresh rfl ran i w here quitting with
      yes | ⟨x, member, answered⟩
    · exact .inl yes
    · obtain ⟨member, own⟩ := mem_partOf_iff.1 member
      exact .inr ⟨x, member, own, answered⟩
  refine ⟨quitters, fun on => ?_⟩
  have whole := remaining_add_gone ran on
  refine ⟨whole, fun calm => ?_⟩
  have live : p.isCancelled p.current = false := ((sound_of_run ran).started on).2
  have present : ∀ w ∈ p.workers, w.generation = p.current →
      ¬ (w.phase = .leaving ∨ w.phase = .finished) := by
    intro w member current quits
    obtain ⟨i, here⟩ := List.getElem?_of_mem member
    rcases quitters i w here quits with yes | ⟨x, among, rfl, answered⟩
    · rw [current, live] at yes
      cases yes
    · exact absurd ((calm x among w here current).symm.trans answered) nofun
  refine ⟨?_, fun w member current => not_or.1 (present w member current)⟩
  have gone : p.goneOf p.current = 0 := by
    refine List.countP_eq_zero.2 fun w member => ?_
    simp only [Bool.and_eq_true, beq_iff_eq, not_and, Bool.not_eq_true]
    intro current
    unfold Worker.isFinished
    split
    · next finished => exact absurd (.inr finished) (present w member current)
    · rfl
  omega

/-- An operation calls itself cancelled, and its worker finishes. -/
def desertion : List (PoolEvent Unit) := mishap 0 .cancelled ++ [⟨2, .worker 0 .release⟩]

/-- A worker finishes while its pool is started and nobody has cancelled anything. -/
theorem deserted_while_started :
    ∃ p w, run pair (fresh pair) (underWay ++ desertion) = some p ∧ p.status = .started ∧
      p.isCancelled p.current = false ∧ p.workers[0]? = some w ∧ w.generation = p.current ∧
      w.isFinished = true ∧ p.remaining = 1 ∧ p.remaining ≠ pair.threads :=
  ⟨_, _, rfl, rfl, rfl, rfl, rfl, rfl, rfl, by decide⟩

/-- A pool that all attend, and the same pool after a desertion. -/
theorem attended_while_started_deserted :
    ∃ p q, run pair (fresh pair) underWay = some p ∧ p.status = .started ∧ p.remaining = 2 ∧
      run pair (fresh pair) (underWay ++ desertion) = some q ∧ q.status = .started ∧
      q.remaining + q.goneOf q.current = 2 ∧
      ∃ x ∈ record pair (fresh pair) (underWay ++ desertion), x.worker = 0 ∧
        x.tellsCancelled pair.policy = true := by
  obtain ⟨p, first⟩ : ∃ p, run pair (fresh pair) underWay = some p := ⟨_, rfl⟩
  obtain ⟨q, second⟩ : ∃ q, run pair (fresh pair) (underWay ++ desertion) = some q := ⟨_, rfl⟩
  have on : p.status = .started := by cases first; rfl
  have still : q.status = .started := by cases second; rfl
  obtain ⟨w, here, gone, live⟩ : ∃ w, q.workers[0]? = some w ∧ w.phase = .finished ∧
      q.isCancelled w.generation = false := by
    cases second; exact ⟨_, rfl, rfl, rfl⟩
  have calm : ∀ x ∈ record pair (fresh pair) underWay, x.tellsCancelled pair.policy = false := by
    decide
  obtain ⟨-, attended⟩ := attended_while_started pair first
  obtain ⟨quitters, short⟩ := attended_while_started pair second
  refine ⟨p, q, first, on, ?_, second, still, (short still).1, ?_⟩
  · exact ((attended on).2 fun x member _ _ _ => calm x member).1
  · rcases quitters 0 w here (.inr gone) with cancelled | answered
    · exact absurd (live.symm.trans cancelled) nofun
    · exact answered

end Pool

end LoadHarness
