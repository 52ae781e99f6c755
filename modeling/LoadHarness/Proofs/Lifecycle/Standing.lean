import LoadHarness.Proofs.Lifecycle.Schedule

/-!
# Where a pool stands

The lifecycle of a pool turns on little: its status, the generations, the slots, and which workers
have finished. Seen through these a pool takes six turns, and each of its steps is one of them or
none.
-/

namespace LoadHarness

variable {κ : Type}

/-- The moves of a status in a life. -/
inductive ServiceStatus.Next : ServiceStatus → ServiceStatus → Prop where
  | created : Next .destroyed .created
  | started : Next .created .started
  | stopped : Next .started .stopped
  | destroyed : Next .stopped .destroyed
  /-- Created, but never started. -/
  | discarded : Next .created .destroyed

/-- What the lifecycle knows of a worker. -/
structure Badge where
  number : Nat
  generation : Nat
  finished : Bool
deriving DecidableEq, Repr

def Worker.badge (w : Worker κ) : Badge := ⟨w.number, w.generation, w.isFinished⟩

/-- All that the lifecycle of a pool turns on. -/
structure PoolStanding (κ : Type) where
  status : ServiceStatus
  generations : List Generation
  slots : List (Slot κ)
  /-- The badges of all workers ever launched. -/
  crew : List Badge

/-- Where the pool stands. -/
def Pool.standing (p : Pool κ) : PoolStanding κ :=
  ⟨p.status, p.generations, p.slots, p.workers.map (·.badge)⟩

/-- The slots of a new generation. -/
def PoolPlan.freshSlots (plan : PoolPlan κ) : List (Slot κ) :=
  (List.range plan.threads).map fun i => ⟨i, plan.context i⟩

namespace Generation

def cancel (g : Generation) : Generation := { g with cancelled := true }

def release (guards : Nat) (g : Generation) : Generation :=
  { g with remaining := g.remaining - guards }

end Generation

namespace PoolStanding

/-- The number of the current generation. -/
def current (s : PoolStanding κ) : Nat := s.generations.length - 1

/-- The turns of a lifecycle, each with the step that it comes from. -/
inductive Turns (plan : PoolPlan κ) : PoolMove κ → PoolStanding κ → PoolStanding κ → Prop where
  | created {call s} (free : s.status = .destroyed) :
      Turns plan (.prepared call (.ok ())) s
        { s with
          status := .created
          generations := s.generations ++ [⟨false, plan.threads⟩]
          slots := plan.freshSlots }
  | started {s} (was : s.status = .created) :
      Turns plan (.call .start) s
        { s with
          status := .started
          slots := []
          crew := s.crew ++ s.slots.map fun x => ⟨x.worker, s.current, false⟩ }
  | stopped {m s} (was : s.status = .started)
      (cause : m = .call .stop ∨ m = .call .destroy ∨ ∃ i, m = .worker i .fault) :
      Turns plan m s
        { s with status := .stopped, generations := s.generations.modify s.current .cancel }
  | discarded {call s} (was : s.status = .created) :
      Turns plan (.proceed call) s
        { s with
          status := .destroyed
          generations := s.generations.modify s.current (.release s.slots.length)
          slots := [] }
  | destroyed {call s} (was : s.status = .stopped) :
      Turns plan (.proceed call) s { s with status := .destroyed }
  | finished {i b s} (launched : s.crew[i]? = some b) (busy : b.finished = false) :
      Turns plan (.worker i .release) s
        { s with
          generations := s.generations.modify b.generation (.release 1)
          crew := s.crew.set i { b with finished := true } }

/-- A turn leaves the status or moves it on. -/
theorem status_of_turn {plan : PoolPlan κ} {m : PoolMove κ} {s t : PoolStanding κ}
    (turned : Turns plan m s t) : t.status = s.status ∨ s.status.Next t.status := by
  cases turned with
  | created free => exact .inr (free ▸ .created)
  | started was => exact .inr (was ▸ .started)
  | stopped was => exact .inr (was ▸ .stopped)
  | discarded was => exact .inr (was ▸ .discarded)
  | destroyed was => exact .inr (was ▸ .destroyed)
  | finished => exact .inl rfl

end PoolStanding

namespace Pool

open PoolStanding

variable {plan : PoolPlan κ} {p q : Pool κ} {m : PoolMove κ}

/-- Where a call waits is nothing that the lifecycle turns on. -/
@[simp]
theorem standing_setCall (p : Pool κ) (i : Nat) (phase : CallPhase) :
    (p.setCall i phase).standing = p.standing := rfl

/-- The step turns where the pool stands, or leaves it. -/
def Follows (plan : PoolPlan κ) (m : PoolMove κ) (p q : Pool κ) : Prop :=
  q.standing = p.standing ∨ Turns plan m p.standing q.standing

/-- A pool is halted by a stop, by a destruction or by the report of a fault. -/
theorem follows_halt (cause : m = .call .stop ∨ m = .call .destroy ∨ ∃ i, m = .worker i .fault) :
    Follows plan m p p.halt := by
  by_cases was : p.status = .started
  · have halted : p.halt.standing =
        { p.standing with
          status := .stopped
          generations := p.generations.modify p.current .cancel } := by
      simp only [halt, ServiceStatus.move, if_pos was]
      rfl
    exact .inr (halted ▸ .stopped was cause)
  · have same : p.halt = p := by simp only [halt, ServiceStatus.move, if_neg was]
    exact .inl (congrArg _ same)

theorem follows_launch (now : Nat) : Follows plan (.call .start) p (p.launch now) := by
  by_cases was : p.status = .created
  · have launched : (p.launch now).standing =
        { p.standing with
          status := .started
          slots := []
          crew := p.standing.crew ++ p.slots.map fun x => ⟨x.worker, p.current, false⟩ } := by
      simp only [launch, ServiceStatus.move, if_pos was, standing, List.map_append, List.map_map]
      rfl
    exact .inr (launched ▸ .started was)
  · have same : p.launch now = p := by simp only [launch, ServiceStatus.move, if_neg was]
    exact .inl (congrArg _ same)

/-- How the first part of a call leaves the standing of a pool. -/
theorem follows_beginCall (plan : PoolPlan κ) (p : Pool κ) (now : Nat) (kind : LifecycleCall) :
    Follows plan (.call kind) p (p.beginCall plan now kind).1 := by
  cases kind with
  | create => exact .inl rfl
  | start => exact follows_launch now
  | stop => exact follows_halt (.inl rfl)
  | destroy => exact follows_halt (.inr (.inl rfl))

/-- How a later part leaves it. -/
theorem follows_callGoes {i : Nat} {kind : LifecycleCall} {phase phase' : CallPhase}
    (goes : CallGoes plan p i m kind phase q phase') : Follows plan m p q := by
  cases goes with
  | created free => exact .inr (.created free)
  | discarded was => exact .inr (.discarded was)
  | drains was => exact .inr (.destroyed was)
  | _ => exact .inl rfl

/-- The crew after worker `w`, the one at position `i`, has become `w'`. -/
theorem standing_set {i : Nat} {w w' : Worker κ} (timers : Timers)
    (launched : p.workers[i]? = some w) (same : w'.badge = w.badge) :
    ({ p with workers := p.workers.set i w', timers := timers } : Pool κ).standing =
      p.standing := by
  have crew : (p.workers.set i w').map (·.badge) = p.workers.map (·.badge) := by
    rw [List.map_set, same]
    exact set_of_getElem? (by rw [List.getElem?_map, launched]; rfl)
  simp only [standing, crew]

/-- How a worker leaves it. -/
theorem follows_workerGoes {i : Nat} {w : Worker κ} {m : WorkerMove κ}
    (launched : p.workers[i]? = some w) (goes : WorkerGoes p i w m q) :
    Follows plan (.worker i m) p q := by
  cases goes with
  | works w' number generation busy still =>
    have same : w'.badge = w.badge := by
      simp only [Worker.badge, number, generation, busy, still]
    exact .inl (standing_set _ launched same)
  | @faults e failing =>
    have here : p.halt.workers[i]? = some w := p.halt_workers.symm ▸ launched
    have busy : w.isFinished = false := by simp only [Worker.isFinished, failing]
    have same : ({ w with phase := .leaving } : Worker κ).badge = w.badge := by
      simp only [Worker.badge, busy]
      rfl
    have left : (p.halt.setPhase i .leaving).standing = p.halt.standing := by
      unfold setPhase
      rw [modify_workers here]
      exact standing_set p.halt.timers here same
    rw [Follows, left]
    exact follows_halt (.inr (.inr ⟨i, rfl⟩))
  | releases leaving =>
    have here : p.standing.crew[i]? = some w.badge := by
      simp only [standing, List.getElem?_map, launched, Option.map_some]
    have busy : w.badge.finished = false := by simp only [Worker.badge, Worker.isFinished, leaving]
    have done : ((p.release w.generation 1).setPhase i .finished).standing =
        { p.standing with
          generations := p.generations.modify w.generation (.release 1)
          crew := p.standing.crew.set i { w.badge with finished := true } } := by
      unfold setPhase
      rw [modify_workers (p := p.release w.generation 1) launched]
      simp only [standing, List.map_set]
      rfl
    exact .inr (done ▸ .finished here busy)

/-- The simulation: every step of a pool is a turn of its standing, or none. -/
theorem follows_of_moves {now : Nat} (moved : Moves plan p now m q) : Follows plan m p q := by
  cases moved with
  | @calls kind _ _ begun =>
    have first := follows_beginCall plan p now kind
    rw [begun] at first
    exact first
  | goes _ goes =>
    rw [Follows, standing_setCall]
    exact follows_callGoes goes
  | reports => exact .inl rfl
  | works launched goes => exact follows_workerGoes launched goes

/-- What every turn does to a standing, if anything, every step does to that of its pool. -/
theorem Follows.lift {R : PoolStanding κ → PoolStanding κ → Prop} (follows : Follows plan m p q)
    (refl : ∀ s, R s s) (turn : ∀ {s t}, Turns plan m s t → R s t) :
    R p.standing q.standing := by
  rcases follows with same | turned
  · exact same ▸ refl _
  · exact turn turned

/-- A step leaves the status or moves it on. -/
theorem status_of_follows (follows : Follows plan m p q) :
    q.status = p.status ∨ p.status.Next q.status :=
  follows.lift (R := fun s t => t.status = s.status ∨ s.status.Next t.status)
    (fun _ => .inl rfl) status_of_turn

end Pool

end LoadHarness
