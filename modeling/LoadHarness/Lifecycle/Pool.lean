import LoadHarness.Traffic.Mix
import LoadHarness.Retry.Action
import LoadHarness.Latency.Report
import LoadHarness.Lifecycle.Hosted

/-!
# Worker pools, step by step

A pool is created, started, stopped and destroyed, round after round. Each creation begins a
generation: a token that cancels its workers and a count of those that have not finished. Workers
loop: they take an operation, wait for tokens, and run one action per token.

The pool moves one step at a time. A step is what happens between two points where a call or a
worker can wait, and every step names what it needs from outside: an answer, a drawn quantum, the
time. Any list of steps is a schedule, so what holds after all lists of steps holds for every
interleaving of calls and workers. Whatever a worker hands its thread to may break off instead of
answering: the workload, the limiter, the calls of an action, the sink. The worker then fails, and a
failure of a worker stops the pool.
-/

namespace LoadHarness

/-- What a pool is built from. -/
structure PoolPlan (κ : Type) where
  threads : Nat
  mix : Mix
  policy : RetryPolicy
  reports : ReportSettings
  context : Nat → κ

/-- The workers between one creation and the end of their work. -/
structure Generation where
  cancelled : Bool
  /-- Guards that have not been released. -/
  remaining : Nat
deriving DecidableEq, Repr, Inhabited

/-- A worker that has not been launched. -/
structure Slot (κ : Type) where
  worker : Nat
  context : κ

/-- Where a worker stands. -/
inductive WorkerPhase where
  /-- About to look whether to go on. -/
  | looping
  /-- Waiting for the tokens of a batch. -/
  | pacing (operation : OperationType) (cost : UInt32)
  /-- About to begin the next of the actions left. -/
  | between (operation : OperationType) (left : UInt32)
  /-- In one of the actions left. -/
  | acting (operation : OperationType) (left : UInt32) (since : Nat) (action : Action Unit)
  /-- Out of its loop with a failure that stops the pool. -/
  | failed (e : ServiceError)
  /-- Out of its loop, its guard still held. -/
  | leaving
  | finished

/-- A worker that has been launched. -/
structure Worker (κ : Type) where
  number : Nat
  generation : Nat
  context : κ
  phase : WorkerPhase

/-- What a call waits for. -/
inductive CallPhase where
  | settingUp
  /-- Waiting for the end of the reporting, if there was any. -/
  | silencing (loop : Option Nat)
  /-- Waiting until a generation has no workers left. -/
  | draining (generation : Nat)
  /-- Waiting for the ends of workers. -/
  | joining (workers : List Nat)
  | returned (result : Except ServiceError Unit)

/-- A call that has been made. -/
structure PoolCall where
  kind : LifecycleCall
  phase : CallPhase

/-- A worker pool with the context type of its workload. -/
structure Pool (κ : Type) where
  status : ServiceStatus
  /-- All generations so far; the last is the current one, and the first is there from the start,
  without workers. -/
  generations : List Generation
  slots : List (Slot κ)
  workers : List (Worker κ)
  /-- The workers that the next destruction waits for. -/
  handles : List Nat
  reporter : Reporter
  calls : List PoolCall
  timers : Timers

/-- What a pool says in the log. -/
inductive Notice where
  /-- An operation was given up. -/
  | gaveUp (worker : Nat) (tag : String) (e : RetryError)
  | failed (worker : Nat) (e : ServiceError)
  | report (timers : Timers)

/-- What the log says when a worker fails. -/
def Notice.faultTitle : String := "Worker failed, stopping pool"

/-- A step of a worker, with what it learns. -/
inductive WorkerMove (κ : Type) where
  /-- It looks whether to go on and takes a batch with a cost; nothing when the workload breaks off
  while it names the cost. -/
  | pick (quantum : Nat) (cost : Option UInt32)
  /-- It notices the cancellation while it waits for tokens. -/
  | quit
  | paced (answer : Except LimiterError Unit)
  /-- The limiter breaks off instead. -/
  | unpaced
  /-- It begins the next action. -/
  | begin
  /-- The running operation changes the worker's context. -/
  | touch (context : κ)
  /-- The action moves. -/
  | act (slot : Nat) (m : ActionMove Unit)
  | conclude
  /-- The same, but the sink breaks off over an outcome that it is to count. -/
  | unnoted
  | fault
  | release

/-- A step of a pool. -/
inductive PoolMove (κ : Type) where
  | call (kind : LifecycleCall)
  /-- The preparation that a creation waits for is over. -/
  | prepared (call : Nat) (result : Except OperationError Unit)
  /-- A call goes on: what it waits for has happened. -/
  | proceed (call : Nat)
  | tick (loop : Nat)
  | silence (loop : Nat)
  | worker (i : Nat) (m : WorkerMove κ)

namespace Pool

variable {κ : Type}

def fresh (plan : PoolPlan κ) : Pool κ where
  status := .initial
  generations := [⟨false, 0⟩]
  slots := []
  workers := []
  handles := []
  reporter := .ofSettings plan.reports
  calls := []
  timers := .ofTags plan.mix.tags

/-- The number of the current generation. -/
def current (p : Pool κ) : Nat := p.generations.length - 1

def isCancelled (p : Pool κ) (generation : Nat) : Bool :=
  (p.generations[generation]?.map (·.cancelled)).getD false

/-- Workers of a generation that have not finished. -/
def remainingOf (p : Pool κ) (generation : Nat) : Nat :=
  (p.generations[generation]?.map (·.remaining)).getD 0

def remaining (p : Pool κ) : Nat := p.remainingOf p.current

/-- Releases guards of a generation; the count does not fall below zero. -/
def release (p : Pool κ) (generation guards : Nat) : Pool κ :=
  { p with generations := p.generations.modify generation fun g =>
      { g with remaining := g.remaining - guards } }

/-- Stops a started pool and cancels the current token; does nothing to any other. -/
def halt (p : Pool κ) : Pool κ :=
  match p.status.move .started .stopped with
  | (false, _) => p
  | (true, s) =>
    { p with
      status := s
      generations := p.generations.modify p.current fun g => { g with cancelled := true } }

/-- Every one of the workers has finished. -/
def allFinished (p : Pool κ) (workers : List Nat) : Bool :=
  workers.all fun i => match p.workers[i]? with
    | some w => match w.phase with
      | .finished => true
      | _ => false
    | none => true

/-! The parts of the lifecycle calls. -/

/-- A creation up to the preparation. -/
def beginCreate (plan : PoolPlan κ) (p : Pool κ) : CallPhase :=
  if plan.threads = 0 then
    .returned (.error (.config "thread count must be greater than zero"))
  else if p.status ≠ .destroyed then .returned (.ok ())
  else .settingUp

/-- A creation after the preparation: a new generation, a slot for each of its workers. -/
def finishCreate (plan : PoolPlan κ) (p : Pool κ) :
    Except OperationError Unit → Pool κ × CallPhase
  | .error e => (p, .returned (.error (.resource e)))
  | .ok () =>
    match p.status.move .destroyed .created with
    | (false, _) => (p, .returned (.ok ()))
    | (true, s) =>
      ({ p with
        status := s
        generations := p.generations ++ [⟨false, plan.threads⟩]
        slots := (List.range plan.threads).map fun i => ⟨i, plan.context i⟩ },
      .returned (.ok ()))

/-- A start: every slot becomes a worker, and the reporting begins. -/
def launch (p : Pool κ) (now : Nat) : Pool κ :=
  match p.status.move .created .started with
  | (false, _) => p
  | (true, s) =>
    { p with
      status := s
      slots := []
      workers := p.workers ++
        p.slots.map fun slot => ⟨slot.worker, p.current, slot.context, .looping⟩
      handles := (List.range p.slots.length).map (p.workers.length + ·)
      reporter := p.reporter.start now }

/-- A stop, alone or as the first part of a destruction: the pool halts and the reporting is told
to end. -/
def beginStop (p : Pool κ) : Pool κ × CallPhase :=
  let p := p.halt
  let (loop, r) := p.reporter.tell
  ({ p with reporter := r }, .silencing loop)

/-- A destruction after its stop: a pool that never started loses its slots, and a stopped one is
drained. -/
def takeDown (p : Pool κ) : Pool κ × CallPhase :=
  match p.status.move .created .destroyed with
  | (true, s) =>
    ({ p.release p.current p.slots.length with status := s, slots := [] }, .returned (.ok ()))
  | (false, _) =>
    match p.status.move .stopped .destroyed with
    | (true, s) => ({ p with status := s }, .draining p.current)
    | (false, _) => (p, .returned (.ok ()))

/-- A call up to the first point where it waits. -/
def beginCall (plan : PoolPlan κ) (p : Pool κ) (now : Nat) : LifecycleCall → Pool κ × CallPhase
  | .create => (p, p.beginCreate plan)
  | .start => (p.launch now, .returned (.ok ()))
  | .stop => p.beginStop
  | .destroy => p.beginStop

/-- The report that a stop writes when it has ended a reporting loop. -/
def lastReport (p : Pool κ) : Option Nat → List Notice
  | some _ => [.report p.timers]
  | none => []

/-- A call past the point where it waits, if what it waits for has happened. -/
def resume (p : Pool κ) (kind : LifecycleCall) :
    CallPhase → Option (Pool κ × CallPhase × List Notice)
  | .silencing loop =>
    if (loop.map p.reporter.hasEnded).getD true then
      let (p', phase) := if kind = .destroy then p.takeDown else (p, .returned (.ok ()))
      some (p', phase, p.lastReport loop)
    else none
  | .draining generation =>
    if p.remainingOf generation = 0 then
      some ({ p with handles := [] }, .joining p.handles, [])
    else none
  | .joining workers => if p.allFinished workers then some (p, .returned (.ok ()), []) else none
  | .settingUp => none
  | .returned _ => none

def setCall (p : Pool κ) (i : Nat) (phase : CallPhase) : Pool κ :=
  { p with calls := p.calls.modify i fun c => { c with phase := phase } }

/-! The parts of a worker's life. -/

def setPhase (p : Pool κ) (i : Nat) (phase : WorkerPhase) : Pool κ :=
  { p with workers := p.workers.modify i fun w => { w with phase := phase } }

/-- After one of the actions left in a batch: the next one, or the next batch. -/
def afterAction (operation : OperationType) (left : UInt32) : WorkerPhase :=
  if left ≤ 1 then .looping else .between operation (left - 1)

/-- The end of an action of worker `w` that began at `since`: a success and a failure that stops
nothing are counted, and the worker goes on; a cancellation is not counted. -/
def conclude (p : Pool κ) (now i : Nat) (w : Worker κ) (operation : OperationType) (left : UInt32)
    (since : Nat) : Except RetryError Unit → Pool κ × List Notice
  | .ok () =>
    ({ p.setPhase i (afterAction operation left) with
      timers := p.timers.record operation.tag (.ofNanos (now - since)) }, [])
  | .error .cancelled => (p.setPhase i .leaving, [])
  | .error e =>
    if e.isFatal then (p.setPhase i (.failed (.fatal e)), [])
    else
      ({ p.setPhase i (afterAction operation left) with
        timers := p.timers.recordFailure operation.tag }, [.gaveUp w.number operation.tag e])

/-- The sink hears of an end of an action: of a success, and of a failure that stops nothing. -/
def isCounted : Except RetryError Unit → Bool
  | .ok () => true
  | .error e => e.stopsNothing

/-- A step of worker `w`, the one at position `i`; nothing when it cannot take that step. -/
def workerStep (plan : PoolPlan κ) (p : Pool κ) (now i : Nat) (w : Worker κ) :
    WorkerPhase → WorkerMove κ → Option (Pool κ × List Notice)
  | .looping, .pick quantum cost =>
    if p.isCancelled w.generation || p.status.isHalted then some (p.setPhase i .leaving, [])
    else match cost with
      | none => some (p.setPhase i (.failed (.panicked w.number)), [])
      | some c =>
        if c = 0 then some (p, [])
        else some (p.setPhase i (.pacing (plan.mix.pick quantum) c), [])
  | .pacing _ _, .quit =>
    if p.isCancelled w.generation then some (p.setPhase i .leaving, []) else none
  | .pacing operation cost, .paced answer =>
    if p.isCancelled w.generation then none
    else match answer with
      | .ok () => some (p.setPhase i (.between operation cost), [])
      | .error e => some (p.setPhase i (.failed (.limiter e)), [])
  | .pacing _ _, .unpaced =>
    if p.isCancelled w.generation then none
    else some (p.setPhase i (.failed (.panicked w.number)), [])
  | .between operation left, .begin =>
    some (p.setPhase i
      (.acting operation left now (plan.policy.begin (p.isCancelled w.generation))), [])
  | .acting _ _ _ (.running _), .touch context =>
    if p.isCancelled w.generation then none
    else some ({ p with workers := p.workers.modify i fun w => { w with context := context } }, [])
  | .acting operation left since action, .act slot m =>
    (plan.policy.step (p.isCancelled w.generation) slot action m).map fun a =>
      (p.setPhase i (.acting operation left since a), [])
  | .acting operation left since (.ended result), .conclude =>
    some (p.conclude now i w operation left since result)
  | .acting _ _ _ (.ended result), .unnoted =>
    if isCounted result then some (p.setPhase i (.failed (.panicked w.number)), []) else none
  | .acting _ _ _ (.crashed _), .conclude =>
    some (p.setPhase i (.failed (.panicked w.number)), [])
  | .failed e, .fault => some (p.halt.setPhase i .leaving, [.failed w.number e])
  | .leaving, .release => some ((p.release w.generation 1).setPhase i .finished, [])
  | _, _ => none

/-- The pool after a step, and what it says; nothing when the step is not possible. -/
def step (plan : PoolPlan κ) (p : Pool κ) (now : Nat) : PoolMove κ → Option (Pool κ × List Notice)
  | .call kind =>
    let (p, phase) := p.beginCall plan now kind
    some ({ p with calls := p.calls ++ [⟨kind, phase⟩] }, [])
  | .prepared i result =>
    match p.calls[i]? with
    | some ⟨_, .settingUp⟩ =>
      let (p, phase) := p.finishCreate plan result
      some (p.setCall i phase, [])
    | _ => none
  | .proceed i =>
    match p.calls[i]? with
    | some c => (p.resume c.kind c.phase).map fun (p, phase, said) => (p.setCall i phase, said)
    | none => none
  | .tick i =>
    (p.reporter.tick i now).map fun r => ({ p with reporter := r }, [.report p.timers])
  | .silence i => (p.reporter.finish i).map fun r => ({ p with reporter := r }, [])
  | .worker i m =>
    match p.workers[i]? with
    | some w => workerStep plan p now i w w.phase m
    | none => none

/-- The result of a call, once it has returned. -/
def result? (p : Pool κ) (call : Nat) : Option (Except ServiceError Unit) :=
  match p.calls[call]? with
  | some ⟨_, .returned r⟩ => some r
  | _ => none

end Pool

end LoadHarness
