import LoadHarness.Proofs.Lifecycle.Course

/-!
# Faults

A worker leaves its loop with a fault when an action comes to a fatal end, when the limiter refuses,
or when anything breaks off that it relies on: the workload, the backend, the classifier, the limiter
or the sink. From then on it can do nothing but report it, and the report is what stops the pool. `stopped_by_faults` says this in both directions: a fault stops the pool before the guard
of its worker is released, and no failure short of a fault stops anything.
-/

namespace LoadHarness

variable {κ : Type}

/-- The turn ends the loop of its worker with a fault: an action that came to a fatal end or broke
off, a limiter that refuses or breaks off, a sink that breaks off over an outcome, or a workload that
does so when it is asked for a cost. -/
def WorkEntry.isFault (x : WorkEntry κ) : Bool :=
  match x.before, x.move, x.after with
  | .acting _ _ _ (.ended (.error e)), .conclude, _ => e.isFatal
  | .acting _ _ _ (.crashed _), .conclude, _ => true
  | .acting _ _ _ (.ended _), .unnoted, _ => true
  | .pacing _ _, .paced (.error _), _ => true
  | .pacing _ _, .unpaced, _ => true
  -- a worker that finds that it is to stop does not ask
  | .looping, .pick _ none, .leaving => false
  | .looping, .pick _ none, _ => true
  | _, _, _ => false

namespace WorkerPhase

/-- A worker in this phase has a failure to report. -/
def hasFailed : WorkerPhase → Bool
  | failed _ => true
  | _ => false

variable {plan : PoolPlan κ} {cancelled halted : Bool} {now number : Nat}
  {before after : WorkerPhase} {m : WorkerMove κ}

theorem hasFailed_afterAction (operation : OperationType) (left : UInt32) :
    (Pool.afterAction operation left).hasFailed = false := by
  unfold Pool.afterAction
  split <;> rfl

/-- A fault leaves its worker failed, and nothing else makes one fail. -/
theorem Turns.isFault_eq (turns : before.Turns plan cancelled halted now number m after) (i : Nat) :
    (WorkEntry.mk i before m after).isFault = after.hasFailed := by
  cases turns with
  | breaksOff | refused | unpaced | crashes => rfl
  | @unnoted _ _ _ result => cases result <;> rfl
  | fails fatal => exact fatal
  | @leaves _ cost => cases cost <;> rfl
  | succeeds => rw [hasFailed_afterAction]; rfl
  | @givesUp _ _ _ e mild =>
    have harmless : e.isFatal = false := by
      simp only [RetryError.stopsNothing, Bool.and_eq_true, Bool.not_eq_true'] at mild
      exact mild.2
    rw [hasFailed_afterAction]
    exact harmless
  | _ => simp [WorkEntry.isFault, hasFailed, RetryError.isFatal, RetryError.operation?]

/-- Whoever has failed can only report it. -/
theorem Turns.reports (turns : before.Turns plan cancelled halted now number m after)
    (failed : before.hasFailed = true) : m.isFault = true := by
  cases turns with
  | faults => rfl
  | _ => cases failed

end WorkerPhase

/-- A worker with a fault on record is about to report it, or its token is cancelled. -/
def FaultTold (log : List (WorkEntry κ)) (cancelled : Bool) (phase : WorkerPhase) : Prop :=
  (∃ x ∈ log, x.isFault = true) → cancelled = true ∨ phase.hasFailed = true

/-- All its course a worker with a fault has told of it, or is about to. -/
theorem faultTold (plan : PoolPlan κ) : Pool.CourseInvariant plan FaultTold where
  launch := by
    rintro ⟨x, member, -⟩
    cases member
  cancel := fun _ _ => .inl rfl
  turn := by
    rintro log cancelled halted now number i before m after told turns - ⟨x, member, fault⟩
    rcases List.mem_append.1 member with old | new
    · rcases told ⟨x, old, fault⟩ with was | failed
      · exact .inl (by rw [was, Bool.true_or])
      · exact .inl (by rw [turns.reports failed, Bool.or_true])
    · cases List.mem_singleton.1 new
      exact .inr ((turns.isFault_eq i).symm.trans fault)

/-- A worker that is about to report a fault has it on record. -/
def FaultKnown (log : List (WorkEntry κ)) (_ : Bool) (phase : WorkerPhase) : Prop :=
  phase.hasFailed = true → ∃ x ∈ log, x.isFault = true

/-- All its course a worker that is about to tell of a fault has had one. -/
theorem faultKnown (plan : PoolPlan κ) : Pool.CourseInvariant plan FaultKnown where
  launch := nofun
  cancel := fun known => known
  turn := by
    intro log cancelled halted now number i before m after _ turns _ failed
    have fault := (turns.isFault_eq i).trans failed
    exact ⟨_, List.mem_append_right _ (List.mem_singleton_self _), fault⟩

namespace Pool

open PoolStanding

variable {plan : PoolPlan κ} {p q : Pool κ} {e : PoolEvent κ} {es : List (PoolEvent κ)} {i : Nat}
  {w : Worker κ}

/-- The run: a worker that has failed has a fault on record, unless some had failed before. -/
theorem fault_of_failed (sound : p.standing.Sound plan) (engaged : p.standing.Engaged)
    (sane : ∀ w ∈ p.workers, w.phase.hasFailed = false) (ran : run plan p es = some q)
    (here : q.workers[i]? = some w) (failed : w.phase.hasFailed = true) :
    ∃ x ∈ record plan p es, x.worker = i ∧ x.isFault = true := by
  have start : p.EachHolds FaultKnown [] := by
    intro j v there failed
    have harmless := sane v (List.mem_of_getElem? there)
    exact absurd (harmless.symm.trans failed) nofun
  obtain ⟨x, member, fault⟩ := start.of_run (faultKnown plan) sound engaged ran i w here failed
  obtain ⟨member, own⟩ := mem_partOf_iff.1 member
  exact ⟨x, member, own, fault⟩

/-- A started pool stays so but for a stop, a destruction or the report of a fault. -/
theorem started_or_stopped {s t : PoolStanding κ} {m : PoolMove κ} (turned : Turns plan m s t)
    (on : s.status = .started) :
    t.status = .started ∨ t.status = .stopped ∧
      (m = .call .stop ∨ m = .call .destroy ∨ ∃ i, m = .worker i .fault) := by
  cases turned with
  | created free => exact absurd (on.symm.trans free) nofun
  | started was => exact absurd (on.symm.trans was) nofun
  | stopped _ cause => exact .inr ⟨rfl, cause⟩
  | discarded was => exact absurd (on.symm.trans was) nofun
  | destroyed was => exact absurd (on.symm.trans was) nofun
  | finished => exact .inl on

/-- Only a worker that has failed reports a fault. -/
theorem failed_of_report (made : p.after? plan e = some q) (report : e.move = .worker i .fault) :
    ∃ w, p.workers[i]? = some w ∧ w.phase.hasFailed = true := by
  obtain ⟨w, w', launched, -⟩ := turned_of_after made report
  obtain ⟨⟨failure, failed⟩, -⟩ := fault_eq launched made report
  exact ⟨w, launched, by rw [failed]; rfl⟩

/-- Only a worker that is out of its loop, and has no failure to report, releases its guard. -/
theorem leaving_of_release (made : p.after? plan e = some q) (release : e.move = .worker i .release)
    (here : p.workers[i]? = some w) : w.phase = .leaving := by
  obtain ⟨v, v', launched, turned⟩ := turned_of_after made release
  cases here.symm.trans launched
  have turns := turned.turns
  generalize w.phase = before, v'.phase = after at turns
  cases turns with
  | releases => rfl

/-- The step: the same, and whoever reports a fault has failed. -/
theorem started_or_told (made : p.after? plan e = some q) (on : p.status = .started) :
    q.status = .started ∨ q.status = .stopped ∧ (e.move = .call .stop ∨ e.move = .call .destroy ∨
      ∃ i w, e.move = .worker i .fault ∧ p.workers[i]? = some w ∧ w.phase.hasFailed = true) := by
  rcases follows_of_moves (moves_of_after made) with same | turned
  · exact .inl ((congrArg PoolStanding.status same).trans on)
  rcases started_or_stopped turned on with still | ⟨stopped, stop | destroy | ⟨i, report⟩⟩
  · exact .inl still
  · exact .inr ⟨stopped, .inl stop⟩
  · exact .inr ⟨stopped, .inr (.inl destroy)⟩
  · obtain ⟨w, launched, failed⟩ := failed_of_report made report
    exact .inr ⟨stopped, .inr (.inr ⟨i, w, report, launched, failed⟩)⟩

/-- The run: a started pool stays so as long as nobody stops it and no worker fails. -/
theorem started_of_no_fault (sound : p.standing.Sound plan) (engaged : p.standing.Engaged)
    (ran : run plan p es = some q) (on : p.status = .started)
    (calm : ∀ e ∈ es, e.move ≠ .call .stop ∧ e.move ≠ .call .destroy)
    (sane : ∀ w ∈ p.workers, w.phase.hasFailed = false)
    (none : ∀ x ∈ record plan p es, x.isFault = false) : q.status = .started := by
  refine run_induction (fun es q => (∀ e ∈ es, e.move ≠ .call .stop ∧ e.move ≠ .call .destroy) →
    (∀ x ∈ record plan p es, x.isFault = false) → q.status = .started) (fun _ _ => on) ?_ ran calm none
  intro es q e r ran ih made calm none
  rw [record_concat ran made] at none
  obtain ⟨before, now⟩ := List.forall_mem_append.1 calm
  obtain ⟨none, -⟩ := List.forall_mem_append.1 none
  obtain ⟨noStop, noDestroy⟩ := now e List.mem_cons_self
  rcases started_or_told made (ih before none) with still | ⟨-, stop | destroy | told⟩
  · exact still
  · exact absurd stop noStop
  · exact absurd destroy noDestroy
  · obtain ⟨i, w, -, launched, failed⟩ := told
    obtain ⟨x, member, -, fault⟩ := fault_of_failed sound engaged sane ran launched failed
    exact absurd ((none x member).symm.trans fault) nofun

/-- **Faults stop the pool, and failures short of a fault do not.** Whatever pool, operations,
limiter and classes of failures, and whatever is done when: once a worker has a fault, its token is
cancelled before its guard is released, and its generation, if it still is the current one, is not
started any more. A started pool leaves that status with a stop, a destruction, or the report of a
worker that has a fault; without any of these it stays started, however many actions are given
up. -/
theorem stopped_by_faults (plan : PoolPlan κ) {es : List (PoolEvent κ)} {p : Pool κ}
    (ran : run plan (fresh plan) es = some p) :
    (∀ e i w q, p.after? plan e = some q → e.move = .worker i .release →
      p.workers[i]? = some w → (∃ x ∈ record plan (fresh plan) es, x.worker = i ∧ x.isFault = true) →
      p.isCancelled w.generation = true ∧ (w.generation = p.current → p.status ≠ .started)) ∧
    (∀ e q, p.after? plan e = some q → p.status = .started → q.status ≠ .started →
      q.status = .stopped ∧ (e.move = .call .stop ∨ e.move = .call .destroy ∨
        ∃ i, e.move = .worker i .fault ∧
          ∃ x ∈ record plan (fresh plan) es, x.worker = i ∧ x.isFault = true)) ∧
    (∀ more q, run plan p more = some q → p.status = .started →
      (∀ e ∈ more, e.move ≠ .call .stop ∧ e.move ≠ .call .destroy) →
      (∀ w ∈ p.workers, w.phase.hasFailed = false) →
      (∀ x ∈ record plan p more, x.isFault = false) → q.status = .started) := by
  have sound : p.standing.Sound plan := sound_of_run ran
  refine ⟨?_, ?_, ?_⟩
  · rintro e i w q made release here ⟨x, member, own, fault⟩
    have told := course_induction (faultTold plan) sound_fresh rfl ran i w here
      ⟨x, mem_partOf_iff.2 ⟨member, own⟩, fault⟩
    rcases told with cancelled | failed
    · refine ⟨cancelled, fun current on => ?_⟩
      rw [current] at cancelled
      exact absurd ((sound.started on).2.symm.trans cancelled) nofun
    · rw [leaving_of_release made release here] at failed
      cases failed
  · intro e q made on left
    rcases started_or_told made on with still | ⟨stopped, stop | destroy | told⟩
    · exact absurd still left
    · exact ⟨stopped, .inl stop⟩
    · exact ⟨stopped, .inr (.inl destroy)⟩
    · obtain ⟨i, w, report, launched, failed⟩ := told
      have fault := fault_of_failed sound_fresh (engaged_of_nobody rfl)
        (fun _ nobody => by cases nobody) ran launched failed
      exact ⟨stopped, .inr (.inr ⟨i, report, fault⟩)⟩
  · intro more q ran' on calm sane none
    have engaged : p.standing.Engaged := engaged_of_run sound_fresh (engaged_of_nobody rfl) ran
    exact started_of_no_fault sound engaged ran' on calm sane none

/-- A worker begins an action, and its operation fails. -/
def mishap (worker : Nat) (e : OperationError) : List (PoolEvent Unit) :=
  [.begin, .act 0 (.answer .acquired), .act 0 (.answer (.failed e)), .act 0 (.answer .rolledBack),
    .act 0 (.answer .closed), .conclude].map fun m => ⟨1, .worker worker m⟩

/-- Two workers, the first of which is about to begin two actions. -/
def underWay : List (PoolEvent Unit) :=
  [.call .create, .prepared 0 (.ok ()), .call .start, .worker 0 (.pick 0 (some 2)),
    .worker 0 (.paced (.ok ()))].map fun m => ⟨1, m⟩

/-- The next action of the worker comes to a fatal end, and the worker reports it. -/
def downfall : List (PoolEvent Unit) := mishap 0 (.fatal "disk full") ++ [⟨2, .worker 0 .fault⟩]

/-- One failure that stops nothing, and then one that stops the pool. -/
theorem stopped_by_faults_downfall :
    ∃ p q r s, run pair (fresh pair) underWay = some p ∧ p.status = .started ∧
      run pair p (mishap 0 (.other "no such key" [])) = some q ∧ q.status = .started ∧
      run pair q downfall = some r ∧ r.after? pair ⟨3, .worker 0 .release⟩ = some s ∧
      r.isCancelled 1 = true ∧ r.status ≠ .started := by
  obtain ⟨p, reached⟩ : ∃ p, run pair (fresh pair) underWay = some p := ⟨_, rfl⟩
  obtain ⟨q, first⟩ : ∃ q, run pair p (mishap 0 (.other "no such key" [])) = some q := by
    cases reached; exact ⟨_, rfl⟩
  obtain ⟨r, second⟩ : ∃ r, run pair q downfall = some r := by
    cases reached; cases first; exact ⟨_, rfl⟩
  obtain ⟨s, released⟩ : ∃ s, r.after? pair ⟨3, .worker 0 .release⟩ = some s := by
    cases reached; cases first; cases second; exact ⟨_, rfl⟩
  have started : p.status = .started := by cases reached; rfl
  -- the first action is given up, and that is no fault
  have still : q.status = .started := by
    obtain ⟨-, -, stays⟩ := stopped_by_faults pair reached
    apply stays _ q first started
    · simp [mishap]
    · cases reached
      decide
    · cases reached
      decide
  have whole : run pair (fresh pair) (underWay ++ (mishap 0 (.other "no such key" []) ++ downfall)) =
      some r := by
    rw [run_append_of_run reached, run_append_of_run first, second]
  obtain ⟨w, here, generation, current⟩ :
      ∃ w, r.workers[0]? = some w ∧ w.generation = 1 ∧ r.current = 1 := by
    cases reached; cases first; cases second; exact ⟨_, rfl, rfl, rfl⟩
  obtain ⟨told, -, -⟩ := stopped_by_faults pair whole
  obtain ⟨cancelled, left⟩ := told _ 0 w s released rfl here (by decide)
  rw [generation] at cancelled left
  exact ⟨p, q, r, s, reached, started, first, still, second, released, cancelled, left current.symm⟩

end Pool

end LoadHarness
