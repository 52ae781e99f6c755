import LoadHarness.Lifecycle.Pool

/-!
# The steps of a pool

A step of a pool is the first part of a call, a later part of one, a step of the reporting or a
step of a worker. The cases below say what each of them needs and what it leaves behind. A worker
that fails or finishes touches the pool; in its other steps it minds its own business.
-/

namespace LoadHarness

variable {κ : Type}

/-- The worker has finished. -/
def Worker.isFinished (w : Worker κ) : Bool :=
  match w.phase with
  | .finished => true
  | _ => false

namespace Pool

/-- How call `i` goes on from where it waits, and where it waits then. -/
inductive CallGoes (plan : PoolPlan κ) (p : Pool κ) (i : Nat) :
    PoolMove κ → LifecycleCall → CallPhase → Pool κ → CallPhase → Prop where
  | refused {kind e} :
      CallGoes plan p i (.prepared i (.error e)) kind .settingUp p
        (.returned (.error (.resource e)))
  | overtaken {kind} (busy : p.status ≠ .destroyed) :
      CallGoes plan p i (.prepared i (.ok ())) kind .settingUp p (.returned (.ok ()))
  | created {kind} (free : p.status = .destroyed) :
      CallGoes plan p i (.prepared i (.ok ())) kind .settingUp
        { p with
          status := .created
          generations := p.generations ++ [⟨false, plan.threads⟩]
          slots := (List.range plan.threads).map fun i => ⟨i, plan.context i⟩ }
        (.returned (.ok ()))
  | silenced {kind loop} (other : kind ≠ .destroy)
      (ended : (loop.map p.reporter.hasEnded).getD true = true) :
      CallGoes plan p i (.proceed i) kind (.silencing loop) p (.returned (.ok ()))
  | discarded {loop} (was : p.status = .created)
      (ended : (loop.map p.reporter.hasEnded).getD true = true) :
      CallGoes plan p i (.proceed i) .destroy (.silencing loop)
        { p.release p.current p.slots.length with status := .destroyed, slots := [] }
        (.returned (.ok ()))
  | drains {loop} (was : p.status = .stopped)
      (ended : (loop.map p.reporter.hasEnded).getD true = true) :
      CallGoes plan p i (.proceed i) .destroy (.silencing loop)
        { p with status := .destroyed } (.draining p.current)
  | ignored {loop} (was : p.status = .started ∨ p.status = .destroyed)
      (ended : (loop.map p.reporter.hasEnded).getD true = true) :
      CallGoes plan p i (.proceed i) .destroy (.silencing loop) p (.returned (.ok ()))
  | drained {kind g} (none : p.remainingOf g = 0) :
      CallGoes plan p i (.proceed i) kind (.draining g) { p with handles := [] }
        (.joining p.handles)
  | joined {kind workers} (gone : p.allFinished workers = true) :
      CallGoes plan p i (.proceed i) kind (.joining workers) p (.returned (.ok ()))

/-- What a step of worker `w`, the one at position `i`, does to the pool. -/
inductive WorkerGoes (p : Pool κ) (i : Nat) (w : Worker κ) : WorkerMove κ → Pool κ → Prop where
  /-- It minds its own business. -/
  | works {m timers} (w' : Worker κ) (number : w'.number = w.number)
      (generation : w'.generation = w.generation) (busy : w.isFinished = false)
      (still : w'.isFinished = false) :
      WorkerGoes p i w m { p with workers := p.workers.set i w', timers := timers }
  | faults {e} (failing : w.phase = .failed e) :
      WorkerGoes p i w .fault (p.halt.setPhase i .leaving)
  | releases (leaving : w.phase = .leaving) :
      WorkerGoes p i w .release ((p.release w.generation 1).setPhase i .finished)

/-- The steps that a pool can take at an instant. -/
inductive Moves (plan : PoolPlan κ) (p : Pool κ) (now : Nat) : PoolMove κ → Pool κ → Prop where
  | calls {kind q phase} (begun : p.beginCall plan now kind = (q, phase)) :
      Moves plan p now (.call kind) { q with calls := q.calls ++ [⟨kind, phase⟩] }
  | goes {i m c q phase} (called : p.calls[i]? = some c)
      (goes : CallGoes plan p i m c.kind c.phase q phase) : Moves plan p now m (q.setCall i phase)
  | reports {m reporter} (own : ∃ loop, m = .tick loop ∨ m = .silence loop) :
      Moves plan p now m { p with reporter := reporter }
  | works {i w m q} (launched : p.workers[i]? = some w) (goes : WorkerGoes p i w m q) :
      Moves plan p now (.worker i m) q

variable {plan : PoolPlan κ} {p : Pool κ}

/-- How a creation goes on after its preparation. -/
theorem goes_of_finishCreate (i : Nat) (kind : LifecycleCall) (result : Except OperationError Unit) :
    CallGoes plan p i (.prepared i result) kind .settingUp (p.finishCreate plan result).1
      (p.finishCreate plan result).2 := by
  cases result with
  | error e => exact .refused
  | ok =>
    by_cases free : p.status = .destroyed
    · simp only [finishCreate, ServiceStatus.move, if_pos free]
      exact .created free
    · simp only [finishCreate, ServiceStatus.move, if_neg free]
      exact .overtaken free

/-- How a destruction goes on after its stop. -/
theorem goes_of_takeDown (i : Nat) {loop : Option Nat}
    (ended : (loop.map p.reporter.hasEnded).getD true = true) :
    CallGoes plan p i (.proceed i) .destroy (.silencing loop) p.takeDown.1 p.takeDown.2 := by
  unfold takeDown
  cases was : p.status with
  | created => exact .discarded was ended
  | stopped => exact .drains was ended
  | started => exact .ignored (.inl was) ended
  | destroyed => exact .ignored (.inr was) ended

/-- Calls go on in no other way. -/
theorem goes_of_resume {i : Nat} {kind : LifecycleCall} {phase phase' : CallPhase} {q : Pool κ}
    {said : List Notice} (resumed : p.resume kind phase = some (q, phase', said)) :
    CallGoes plan p i (.proceed i) kind phase q phase' := by
  unfold resume at resumed
  split at resumed
  · next loop =>
    split at resumed
    · next ended =>
      by_cases last : kind = .destroy
      · subst last
        cases resumed
        exact goes_of_takeDown i ended
      · simp only [if_neg last] at resumed
        cases resumed
        exact .silenced last ended
    · cases resumed
  · split at resumed
    · next none => cases resumed; exact .drained none
    · cases resumed
  · split at resumed
    · next gone => cases resumed; exact .joined gone
    · cases resumed
  · cases resumed
  · cases resumed

theorem callGoes_workers {i : Nat} {m : PoolMove κ} {kind : LifecycleCall}
    {phase phase' : CallPhase} {q : Pool κ} (goes : CallGoes plan p i m kind phase q phase') :
    q.workers = p.workers := by
  cases goes <;> rfl

/-! ## Workers -/

variable {i : Nat} {w : Worker κ}

theorem halt_workers (p : Pool κ) : p.halt.workers = p.workers := by
  unfold halt
  split <;> rfl

theorem modify_workers (launched : p.workers[i]? = some w) (f : Worker κ → Worker κ) :
    p.workers.modify i f = p.workers.set i (f w) := by
  have : Inhabited (Worker κ) := ⟨w⟩
  rw [List.modify_eq_set, launched]
  rfl

/-- A worker that only changes its phase and perhaps what the timers say. -/
theorem goes_of_setPhase (launched : p.workers[i]? = some w) (busy : w.isFinished = false)
    (m : WorkerMove κ) (phase : WorkerPhase) (timers : Timers)
    (still : ({ w with phase := phase } : Worker κ).isFinished = false) :
    WorkerGoes p i w m { p.setPhase i phase with timers := timers } := by
  unfold setPhase
  rw [modify_workers launched]
  exact .works { w with phase := phase } rfl rfl busy still

theorem afterAction_still (operation : OperationType) (left : UInt32) :
    ({ w with phase := afterAction operation left } : Worker κ).isFinished = false := by
  unfold afterAction
  split <;> rfl

/-- Whatever its action has come to, a worker that concludes it minds its own business. -/
theorem goes_of_conclude (launched : p.workers[i]? = some w) (busy : w.isFinished = false)
    (m : WorkerMove κ) (now : Nat) (operation : OperationType) (left : UInt32) (since : Nat)
    (result : Except RetryError Unit) :
    WorkerGoes p i w m (p.conclude now i w operation left since result).1 := by
  unfold conclude
  split
  · exact goes_of_setPhase launched busy m _ _ (afterAction_still operation left)
  · exact goes_of_setPhase launched busy m .leaving p.timers rfl
  · split
    · exact goes_of_setPhase launched busy m (.failed _) p.timers rfl
    · exact goes_of_setPhase launched busy m _ _ (afterAction_still operation left)

theorem set_of_getElem? {α : Type} {xs : List α} {i : Nat} {x : α} (here : xs[i]? = some x) :
    xs.set i x = xs := by
  obtain ⟨bound, rfl⟩ := List.getElem?_eq_some_iff.1 here
  exact List.set_getElem_self bound

theorem countP_set_add {α : Type} {xs : List α} {x : α} (here : xs[i]? = some x) (f : α → Bool)
    (y : α) : (xs.set i y).countP f + (f x).toNat = xs.countP f + (f y).toNat := by
  obtain ⟨bound, rfl⟩ := List.getElem?_eq_some_iff.1 here
  have counted : f xs[i] = true → 0 < xs.countP f := fun holds =>
    List.countP_pos_iff.2 ⟨xs[i], List.getElem_mem bound, holds⟩
  rw [List.countP_set bound]
  cases before : f xs[i] with
  | true =>
    have := counted before
    cases f y <;> simp <;> omega
  | false => cases f y <;> simp

/-- A worker that stays as it is. -/
theorem goes_of_wait (launched : p.workers[i]? = some w) (busy : w.isFinished = false)
    (m : WorkerMove κ) : WorkerGoes p i w m p := by
  have own : WorkerGoes p i w m { p with workers := p.workers.set i w, timers := p.timers } :=
    .works w rfl rfl busy busy
  rwa [set_of_getElem? launched] at own

/-- Workers take no other steps. -/
theorem goes_of_workerStep {now : Nat} {m : WorkerMove κ} {q : Pool κ} {said : List Notice}
    (launched : p.workers[i]? = some w)
    (stepped : workerStep plan p now i w w.phase m = some (q, said)) : WorkerGoes p i w m q := by
  have busy : w.isFinished = false := by
    unfold Worker.isFinished
    split
    · next gone => rw [gone] at stepped; cases m <;> cases stepped
    · rfl
  have own (phase : WorkerPhase)
      (still : ({ w with phase := phase } : Worker κ).isFinished = false) :
      WorkerGoes p i w m (p.setPhase i phase) := goes_of_setPhase launched busy m phase p.timers still
  generalize stands : w.phase = phase at stepped
  unfold workerStep at stepped
  split at stepped
  · split at stepped
    · cases stepped; exact own .leaving rfl
    · split at stepped
      · cases stepped; exact own (.failed _) rfl
      · split at stepped <;> cases stepped
        · exact goes_of_wait launched busy _
        · exact own (.pacing _ _) rfl
  · split at stepped <;> cases stepped
    exact own .leaving rfl
  · split at stepped
    · cases stepped
    · split at stepped <;> cases stepped
      · exact own (.between _ _) rfl
      · exact own (.failed _) rfl
  · split at stepped <;> cases stepped
    exact own (.failed _) rfl
  · cases stepped; exact own (.acting _ _ _ _) rfl
  · split at stepped <;> cases stepped
    rw [modify_workers launched]
    exact .works { w with context := _ } rfl rfl busy busy
  · obtain ⟨a, -, made⟩ := Option.map_eq_some_iff.1 stepped
    cases made
    exact own (.acting _ _ _ a) rfl
  · next operation left since result =>
    have ends := goes_of_conclude launched busy .conclude now operation left since result
    rwa [Option.some.inj stepped] at ends
  · split at stepped <;> cases stepped
    exact own (.failed _) rfl
  · cases stepped; exact own (.failed _) rfl
  · cases stepped; exact .faults stands
  · cases stepped; exact .releases stands
  · cases stepped

/-- A pool takes no other steps. -/
theorem moves_of_step {now : Nat} {m : PoolMove κ} {q : Pool κ} {said : List Notice}
    (stepped : p.step plan now m = some (q, said)) : Moves plan p now m q := by
  unfold step at stepped
  split at stepped
  · cases stepped; exact .calls rfl
  · split at stepped
    · next kind called =>
      cases stepped
      exact .goes called (goes_of_finishCreate _ kind _)
    · cases stepped
  · split at stepped
    · next c called =>
      obtain ⟨⟨q', phase, said'⟩, resumed, made⟩ := Option.map_eq_some_iff.1 stepped
      cases made
      exact .goes called (goes_of_resume resumed)
    · cases stepped
  · obtain ⟨r, -, made⟩ := Option.map_eq_some_iff.1 stepped
    cases made
    exact .reports ⟨_, .inl rfl⟩
  · obtain ⟨r, -, made⟩ := Option.map_eq_some_iff.1 stepped
    cases made
    exact .reports ⟨_, .inr rfl⟩
  · split at stepped
    · next w launched => exact .works launched (goes_of_workerStep launched stepped)
    · cases stepped

end Pool

end LoadHarness
