import LoadHarness.Proofs.Lifecycle.Schedule
import LoadHarness.Proofs.Retry.Flow
import Mathlib.Algebra.GroupWithZero.Nat

/-!
# What workers do

A worker goes from phase to phase, and the turns below are all that it takes. A schedule leaves a
record of them, and what is said about actions, their calls and their ends is read off the record.
`balance_where` is the one induction over schedules: whatever every turn keeps in balance, between
what comes in, what goes out and what a phase holds, is in balance over the whole record.
-/

namespace LoadHarness

variable {κ : Type}

namespace WorkerPhase

/-- The turns of a worker with a number at an instant, under a token and a status. -/
inductive Turns (plan : PoolPlan κ) (cancelled halted : Bool) (now number : Nat) :
    WorkerPhase → WorkerMove κ → WorkerPhase → Prop where
  | stays {quantum} (calm : cancelled = false) :
      Turns plan cancelled halted now number .looping (.pick quantum (some 0)) .looping
  | leaves {quantum cost} (told : cancelled = true ∨ halted = true) :
      Turns plan cancelled halted now number .looping (.pick quantum cost) .leaving
  | breaksOff {quantum} (calm : cancelled = false) :
      Turns plan cancelled halted now number .looping (.pick quantum none)
        (.failed (.panicked number))
  | picks {quantum cost} (calm : cancelled = false) (positive : cost ≠ 0) :
      Turns plan cancelled halted now number .looping (.pick quantum (some cost))
        (.pacing (plan.mix.pick quantum) cost)
  | quits {operation cost} (told : cancelled = true) :
      Turns plan cancelled halted now number (.pacing operation cost) .quit .leaving
  | granted {operation cost} (calm : cancelled = false) :
      Turns plan cancelled halted now number (.pacing operation cost) (.paced (.ok ()))
        (.between operation cost)
  | refused {operation cost e} (calm : cancelled = false) :
      Turns plan cancelled halted now number (.pacing operation cost) (.paced (.error e))
        (.failed (.limiter e))
  | unpaced {operation cost} (calm : cancelled = false) :
      Turns plan cancelled halted now number (.pacing operation cost) .unpaced
        (.failed (.panicked number))
  | begins {operation left} :
      Turns plan cancelled halted now number (.between operation left) .begin
        (.acting operation left now (plan.policy.begin cancelled))
  | touches {operation left since n context} (calm : cancelled = false) :
      Turns plan cancelled halted now number (.acting operation left since (.running n))
        (.touch context) (.acting operation left since (.running n))
  | acts {operation left since a b slot m} (moved : plan.policy.Moves cancelled slot a m b) :
      Turns plan cancelled halted now number (.acting operation left since a) (.act slot m)
        (.acting operation left since b)
  | succeeds {operation left since} :
      Turns plan cancelled halted now number (.acting operation left since (.ended (.ok ())))
        .conclude (Pool.afterAction operation left)
  | givesUp {operation left since e} (mild : e.stopsNothing = true) :
      Turns plan cancelled halted now number (.acting operation left since (.ended (.error e)))
        .conclude (Pool.afterAction operation left)
  | obeys {operation left since} :
      Turns plan cancelled halted now number
        (.acting operation left since (.ended (.error .cancelled))) .conclude .leaving
  | fails {operation left since e} (fatal : e.isFatal = true) :
      Turns plan cancelled halted now number (.acting operation left since (.ended (.error e)))
        .conclude (.failed (.fatal e))
  | unnoted {operation left since result} (counted : Pool.isCounted result = true) :
      Turns plan cancelled halted now number (.acting operation left since (.ended result)) .unnoted
        (.failed (.panicked number))
  | crashes {operation left since text} :
      Turns plan cancelled halted now number (.acting operation left since (.crashed text))
        .conclude (.failed (.panicked number))
  | faults {e} : Turns plan cancelled halted now number (.failed e) .fault .leaving
  | releases : Turns plan cancelled halted now number .leaving .release .finished

/-- What a worker in this phase notes in the timers when it concludes its action. -/
def conclusion (now : Nat) (ts : Timers) : WorkerPhase → Timers
  | .acting operation _ since (.ended (.ok ())) => ts.record operation.tag (.ofNanos (now - since))
  | .acting operation _ _ (.ended (.error e)) =>
    if e.stopsNothing then ts.recordFailure operation.tag else ts
  | _ => ts

/-- What the timers say after a step of a worker in this phase. -/
def note (now : Nat) (ts : Timers) (before : WorkerPhase) : WorkerMove κ → Timers
  | .conclude => before.conclusion now ts
  | _ => ts

end WorkerPhase

namespace WorkerMove

/-- The running operation changes its context. -/
def isTouch : WorkerMove κ → Bool
  | .touch _ => true
  | _ => false

/-- Something breaks off over work that was or would be counted: the workload in its operation or
while it names a cost, a call on the backend, or the sink. -/
def breaksOff : WorkerMove κ → Bool
  | .pick _ none => true
  | .act _ m => m.breaksOff
  | .unnoted => true
  | _ => false

end WorkerMove

/-- The same of a step of the pool. -/
def PoolMove.breaksOff : PoolMove κ → Bool
  | .worker _ m => m.breaksOff
  | _ => false

/-- A turn that the worker at a position has taken. -/
structure WorkEntry (κ : Type) where
  worker : Nat
  before : WorkerPhase
  move : WorkerMove κ
  after : WorkerPhase

namespace Pool

/-- Worker `w`, the one at position `i`, has taken a turn and become `w'`. -/
structure Turned (plan : PoolPlan κ) (p : Pool κ) (now i : Nat) (w : Worker κ) (m : WorkerMove κ)
    (w' : Worker κ) (q : Pool κ) : Prop where
  turns : w.phase.Turns plan (p.isCancelled w.generation) p.status.isHalted now w.number m w'.phase
  number : w'.number = w.number
  generation : w'.generation = w.generation
  context : m.isTouch = false → w'.context = w.context
  workers : q.workers = p.workers.set i w'
  timers : q.timers = w.phase.note now p.timers m

variable {plan : PoolPlan κ} {p q r : Pool κ} {now i : Nat} {w : Worker κ} {m : WorkerMove κ}
  {e : PoolEvent κ} {es fs : List (PoolEvent κ)}

theorem turned_of_setPhase (launched : p.workers[i]? = some w) {before after : WorkerPhase}
    (stands : w.phase = before)
    (turns : before.Turns plan (p.isCancelled w.generation) p.status.isHalted now w.number m after)
    (workers : q.workers = p.workers.modify i fun w => { w with phase := after })
    (timers : q.timers = before.note now p.timers m) :
    Turned plan p now i w m { w with phase := after } q := by
  subst stands
  exact ⟨turns, rfl, rfl, fun _ => rfl, workers.trans (modify_workers launched _), timers⟩

theorem halt_timers (p : Pool κ) : p.halt.timers = p.timers := by
  unfold halt
  split <;> rfl

/-- Whatever its action has come to, a worker concludes it by one of the turns. -/
theorem turned_of_conclude (plan : PoolPlan κ) (now : Nat) (launched : p.workers[i]? = some w)
    {operation : OperationType}
    {left : UInt32} {since : Nat} {result : Except RetryError Unit}
    (stands : w.phase = .acting operation left since (.ended result)) :
    ∃ w', Turned plan p now i w .conclude w'
      (p.conclude now i w operation left since result).1 := by
  cases result with
  | ok => exact ⟨_, turned_of_setPhase launched stands .succeeds rfl rfl⟩
  | error e =>
    by_cases cancelled : e = .cancelled
    · subst cancelled
      exact ⟨_, turned_of_setPhase launched stands .obeys rfl rfl⟩
    have other : e.isCancelled = false := by cases e <;> first | rfl | exact absurd rfl cancelled
    have concluded : p.conclude now i w operation left since (.error e) =
        if e.isFatal then (p.setPhase i (.failed (.fatal e)), [])
        else
          ({ p.setPhase i (afterAction operation left) with
            timers := p.timers.recordFailure operation.tag },
            [.gaveUp w.number operation.tag e]) := by
      cases e <;> first | rfl | exact absurd rfl cancelled
    rw [concluded]
    by_cases fatal : e.isFatal = true
    · have stops : e.stopsNothing = false := by simp [RetryError.stopsNothing, fatal]
      rw [if_pos fatal]
      refine ⟨_, turned_of_setPhase launched stands (.fails fatal) rfl ?_⟩
      simp only [WorkerPhase.note, WorkerPhase.conclusion, stops]
      rfl
    · have mild : e.stopsNothing = true := by simp [RetryError.stopsNothing, fatal, other]
      rw [if_neg fatal]
      refine ⟨_, turned_of_setPhase launched stands (.givesUp mild) rfl ?_⟩
      simp only [WorkerPhase.note, WorkerPhase.conclusion, if_pos mild]

/-- A worker takes no other turns. -/
theorem turned_of_workerStep {said : List Notice} (launched : p.workers[i]? = some w)
    (stepped : workerStep plan p now i w w.phase m = some (q, said)) :
    ∃ w', Turned plan p now i w m w' q := by
  generalize stands : w.phase = before at stepped
  have own {after : WorkerPhase} (still : before.note now p.timers m = p.timers)
      (turns : before.Turns plan (p.isCancelled w.generation) p.status.isHalted now w.number m
        after) : ∃ w', Turned plan p now i w m w' (p.setPhase i after) :=
    ⟨_, turned_of_setPhase launched stands turns rfl still.symm⟩
  unfold workerStep at stepped
  split at stepped
  · split at stepped
    · next told =>
      cases stepped
      exact own rfl (.leaves (by simpa using told))
    · next calm =>
      obtain ⟨calm, -⟩ : p.isCancelled w.generation = false ∧ p.status.isHalted = false := by
        simpa using calm
      split at stepped
      · cases stepped
        exact own rfl (.breaksOff calm)
      · split at stepped <;> cases stepped
        · next zero =>
          subst zero
          refine ⟨w, ⟨?_, rfl, rfl, fun _ => rfl, (set_of_getElem? launched).symm, rfl⟩⟩
          rw [stands]
          exact .stays calm
        · next positive => exact own rfl (.picks calm positive)
  · split at stepped <;> cases stepped
    next told => exact own rfl (.quits told)
  · split at stepped
    · cases stepped
    · next calm =>
      have calm := Bool.eq_false_iff.2 calm
      split at stepped <;> cases stepped
      · exact own rfl (.granted calm)
      · exact own rfl (.refused calm)
  · split at stepped <;> cases stepped
    next calm => exact own rfl (.unpaced (Bool.eq_false_iff.2 calm))
  · cases stepped
    exact own rfl .begins
  · next operation left since n context =>
    split at stepped <;> cases stepped
    next calm =>
    have calm := Bool.eq_false_iff.2 calm
    refine ⟨{ w with context := context }, ⟨?_, rfl, rfl, nofun, modify_workers launched _, rfl⟩⟩
    show w.phase.Turns _ _ _ _ _ _ w.phase
    rw [stands]
    exact .touches calm
  · obtain ⟨a, moved, made⟩ := Option.map_eq_some_iff.1 stepped
    cases made
    exact own rfl (.acts (RetryPolicy.step_iff_moves.1 moved))
  · have concluded := turned_of_conclude plan now launched stands
    rwa [Option.some.inj stepped] at concluded
  · split at stepped <;> cases stepped
    next counted => exact own rfl (.unnoted counted)
  · cases stepped
    exact own rfl .crashes
  · cases stepped
    refine ⟨_, turned_of_setPhase launched stands .faults ?_ p.halt_timers⟩
    simp only [setPhase, halt_workers]
  · cases stepped
    exact ⟨_, turned_of_setPhase launched stands .releases rfl rfl⟩
  · cases stepped

/-! ## Records -/

/-- What a step leaves on record. -/
def entries (p q : Pool κ) : PoolMove κ → List (WorkEntry κ)
  | .worker i m =>
    match p.workers[i]?, q.workers[i]? with
    | some w, some w' => [⟨i, w.phase, m, w'.phase⟩]
    | _, _ => []
  | _ => []

/-- What several events leave on record, up to the first that is not possible. -/
def record (plan : PoolPlan κ) : Pool κ → List (PoolEvent κ) → List (WorkEntry κ)
  | _, [] => []
  | p, e :: es =>
    match p.after? plan e with
    | none => []
    | some q => p.entries q e.move ++ record plan q es

/-- How a step leaves the workers: one takes a turn, or new ones join the others. -/
inductive Works (plan : PoolPlan κ) (p : Pool κ) (now : Nat) : PoolMove κ → Pool κ → Prop where
  | turned {i : Nat} {w w' : Worker κ} {m : WorkerMove κ} {q : Pool κ}
      (launched : p.workers[i]? = some w) (turned : Turned plan p now i w m w' q) :
      Works plan p now (.worker i m) q
  | joined {m : PoolMove κ} {q : Pool κ} (new : List (Worker κ))
      (workers : q.workers = p.workers ++ new) (looping : ∀ w ∈ new, w.phase = .looping) (timers : q.timers = p.timers)
      (other : ∀ i m', m ≠ .worker i m') : Works plan p now m q

theorem Turned.here {w' : Worker κ} (turned : Turned plan p now i w m w' q)
    (launched : p.workers[i]? = some w) : q.workers[i]? = some w' := by
  rw [turned.workers, List.getElem?_set_self (List.getElem?_eq_some_iff.1 launched).1]

theorem Turned.entries_eq {w' : Worker κ} (turned : Turned plan p now i w m w' q)
    (launched : p.workers[i]? = some w) :
    p.entries q (.worker i m) = [⟨i, w.phase, m, w'.phase⟩] := by
  simp only [entries, launched, turned.here launched]

theorem entries_of_other {m : PoolMove κ} (other : ∀ i m', m ≠ .worker i m') :
    p.entries q m = [] := by
  cases m <;> first | rfl | exact absurd rfl (other _ _)

/-- Entries tell of the move that made them. -/
theorem move_of_mem_entries {m : PoolMove κ} {x : WorkEntry κ} (member : x ∈ p.entries q m) :
    m = .worker x.worker x.move := by
  unfold entries at member
  split at member
  · split at member
    · cases List.mem_singleton.1 member
      rfl
    · cases member
  · cases member

theorem callGoes_timers {m : PoolMove κ} {kind : LifecycleCall} {phase phase' : CallPhase}
    (goes : CallGoes plan p i m kind phase q phase') : q.timers = p.timers := by
  cases goes <;> rfl

/-- The first part of a call counts nothing and launches only workers that begin anew. -/
theorem beginCall_works (plan : PoolPlan κ) (p : Pool κ) (now : Nat) (kind : LifecycleCall) :
    (p.beginCall plan now kind).1.timers = p.timers ∧
      ∃ new : List (Worker κ), (p.beginCall plan now kind).1.workers = p.workers ++ new ∧
        ∀ w ∈ new, w.phase = .looping := by
  have same {q : Pool κ} (workers : q.workers = p.workers) :
      ∃ new, q.workers = p.workers ++ new ∧ ∀ w ∈ new, w.phase = .looping :=
    ⟨[], by rw [workers, List.append_nil], nofun⟩
  cases kind with
  | create => exact ⟨rfl, same rfl⟩
  | start =>
    simp only [beginCall, launch]
    split
    · exact ⟨rfl, same rfl⟩
    · refine ⟨rfl, _, rfl, fun w member => ?_⟩
      obtain ⟨slot, -, rfl⟩ := List.mem_map.1 member
      rfl
  | stop => exact ⟨p.halt_timers, same p.halt_workers⟩
  | destroy => exact ⟨p.halt_timers, same p.halt_workers⟩

/-- Steps leave workers in no other way. -/
theorem works_of_after (made : p.after? plan e = some q) : Works plan p e.now e.move q := by
  obtain ⟨now, move⟩ := e
  by_cases own : ∃ i m, move = .worker i m
  · obtain ⟨i, m, rfl⟩ := own
    obtain ⟨⟨q', said⟩, stepped, rfl⟩ := Option.map_eq_some_iff.1 made
    simp only [step] at stepped
    split at stepped
    · next w launched =>
      obtain ⟨w', turned⟩ := turned_of_workerStep launched stepped
      exact .turned launched turned
    · cases stepped
  · have other (i m') : move ≠ .worker i m' := fun same => own ⟨i, m', same⟩
    have moved := moves_of_after made
    cases moved with
    | @calls kind q' phase begun =>
      obtain ⟨timers, new, workers, looping⟩ := beginCall_works plan p now kind
      rw [begun] at timers workers
      exact .joined new workers looping timers other
    | goes _ goes =>
      have workers := (callGoes_workers goes).trans (List.append_nil _).symm
      have timers := callGoes_timers goes
      exact .joined [] workers nofun timers other
    | reports => exact .joined [] (List.append_nil _).symm nofun rfl other
    | works => exact absurd rfl (other _ _)

/-- A step of a worker is a turn that it takes. -/
theorem turned_of_after (made : p.after? plan e = some q) (move : e.move = .worker i m) :
    ∃ w w', p.workers[i]? = some w ∧ Turned plan p e.now i w m w' q := by
  have works := works_of_after made
  rw [move] at works
  cases works with
  | turned launched turned => exact ⟨_, _, launched, turned⟩
  | joined _ _ _ _ other => exact absurd rfl (other _ _)

/-- Records of schedules one after the other. -/
theorem record_append (ran : run plan p es = some q) :
    record plan p (es ++ fs) = record plan p es ++ record plan q fs := by
  induction es generalizing p with
  | nil =>
    cases ran
    rfl
  | cons e es ih =>
    obtain ⟨mid, first, rest⟩ := Option.bind_eq_some_iff.1 ran
    simp only [List.cons_append, record, first, ih rest, List.append_assoc]

/-- What the last event of a schedule leaves on record. -/
theorem record_concat (ran : run plan p es = some q) (made : q.after? plan e = some r) :
    record plan p (es ++ [e]) = record plan p es ++ q.entries r e.move := by
  simp only [record_append ran, record, made, List.append_nil]

/-! ## What is kept in balance -/

/-- The sum over a list in which one item has changed. -/
theorem sum_map_set {α : Type} {xs : List α} {i : Nat} {x : α} (here : xs[i]? = some x)
    (f : α → Nat) (y : α) : ((xs.set i y).map f).sum + f x = (xs.map f).sum + f y := by
  induction xs generalizing i with
  | nil => cases here
  | cons z zs ih =>
    cases i with
    | zero =>
      cases here
      simp only [List.set_cons_zero, List.map_cons, List.sum_cons]
      omega
    | succ i =>
      have rest := ih (List.getElem?_cons_succ ▸ here)
      simp only [List.set_cons_succ, List.map_cons, List.sum_cons]
      omega

/-- What the workers hold together. -/
def stockOf (stock : WorkerPhase → Nat) (p : Pool κ) : Nat :=
  (p.workers.map fun w => stock w.phase).sum

/-- The run: what every turn of some kind from an orderly phase keeps in balance, and no new worker
upsets, is in balance over the whole record of such turns, if they keep phases orderly. -/
theorem balance_where (Kind : PoolMove κ → Prop) (Orderly : WorkerPhase → Prop)
    (gain loss : WorkEntry κ → Nat) (stock : WorkerPhase → Nat) (idle : stock .looping = 0)
    (first : Orderly .looping)
    (turn : ∀ {cancelled halted now number before} {m : WorkerMove κ} {after} (i : Nat),
      Kind (.worker i m) → Orderly before → before.Turns plan cancelled halted now number m after →
      Orderly after ∧
        gain ⟨i, before, m, after⟩ + stock before = loss ⟨i, before, m, after⟩ + stock after)
    (start : ∀ w ∈ p.workers, Orderly w.phase) (all : ∀ e ∈ es, Kind e.move)
    (ran : run plan p es = some q) :
    ((record plan p es).map gain).sum + stockOf stock p =
      ((record plan p es).map loss).sum + stockOf stock q := by
  refine (run_induction_of all (fun es q => (∀ w ∈ q.workers, Orderly w.phase) ∧
    ((record plan p es).map gain).sum + stockOf stock p =
      ((record plan p es).map loss).sum + stockOf stock q) ⟨start, rfl⟩ ?_ ran).2
  rintro es q e r ran ⟨orderly, ih⟩ kind made
  have works := works_of_after made
  obtain ⟨now, move⟩ := e
  rw [record_concat ran made, List.map_append, List.map_append, List.sum_append, List.sum_append]
  cases works with
  | @turned i w w' m _ launched turned =>
    obtain ⟨still, one⟩ :=
      turn i kind (orderly w (List.mem_of_getElem? launched)) turned.turns
    have held := sum_map_set launched (fun w => stock w.phase) w'
    rw [← turned.workers] at held
    refine ⟨fun v member => ?_, ?_⟩
    · rw [turned.workers] at member
      rcases List.mem_or_eq_of_mem_set member with old | rfl
      · exact orderly v old
      · exact still
    · simp only [turned.entries_eq launched, List.map_cons, List.map_nil, List.sum_cons,
        List.sum_nil, stockOf] at ih held ⊢
      omega
  | joined new workers looping _ other =>
    have empty : (new.map fun w => stock w.phase).sum = 0 := by
      refine List.sum_eq_zero_iff_forall_eq_nat.2 fun n member => ?_
      obtain ⟨w, among, rfl⟩ := List.mem_map.1 member
      rw [looping w among, idle]
    refine ⟨fun v member => ?_, ?_⟩
    · rw [workers] at member
      rcases List.mem_append.1 member with old | among
      · exact orderly v old
      · exact looping v among ▸ first
    · simp only [entries_of_other other, stockOf, workers, List.map_append, List.sum_append, empty,
        List.map_nil, List.sum_nil] at ih ⊢
      omega

/-- The same where every turn keeps the balance, of whatever kind and from whatever phase. -/
theorem balance (gain loss : WorkEntry κ → Nat) (stock : WorkerPhase → Nat)
    (idle : stock .looping = 0)
    (turn : ∀ {cancelled halted now number before} {m : WorkerMove κ} {after} (i : Nat),
      before.Turns plan cancelled halted now number m after →
      gain ⟨i, before, m, after⟩ + stock before = loss ⟨i, before, m, after⟩ + stock after)
    (ran : run plan p es = some q) :
    ((record plan p es).map gain).sum + stockOf stock p =
      ((record plan p es).map loss).sum + stockOf stock q :=
  balance_where (fun _ => True) (fun _ => True) gain loss stock idle trivial
    (fun i _ _ turns => ⟨trivial, turn i turns⟩) (fun _ _ => trivial) (fun _ _ => trivial) ran

end Pool

end LoadHarness
