import LoadHarness.Rehearsal.Script
import LoadHarness.Lifecycle.Pool
import LoadHarness.Pacing.Bucket
import LoadHarness.Traffic.Context

/-!
# Worker pools in rehearsal

A pool on a stage in virtual time. Whoever can go on does so without time passing, the worker that
was launched first before the others, and a cancellation is seen before anything else. Quanta and
slots are the first ones unless chance says otherwise. Contexts are named after their workers, and
each execution takes a name first.
-/

namespace LoadHarness.Rehearsal

/-- An execution of an operation. -/
structure Execution where
  worker : Nat
  instant : Nat
  tag : String
  urn : String

/-- What a worker of a given number goes by. -/
structure Part where
  performer : Performer
  /-- Costs of its batches; one token each after the last. -/
  costs : List UInt32
  /-- What it does when its outcomes have come to an end, given the tag of the operation and the
  number of runs. -/
  improvise : String → Nat → Outcome

/-- A pool on the stage. -/
structure PoolScene where
  now : Nat
  pool : Pool WorkerContext
  stage : Stage
  bucket : Option (Bucket Float)
  /-- Errors of the preparations; none for one that succeeds, as do all after the last. -/
  setups : List (Option OperationError)
  /-- By the number of the worker. -/
  parts : List Part
  /-- By the position of the worker: what its action is going to hear. -/
  replies : List Reply
  /-- By the position of the worker: when it looks at the bucket again. -/
  looks : List Nat
  /-- The latest first. -/
  executions : List Execution
  /-- The latest first. -/
  notices : List (Nat × Notice)
  chance : Chance
  /-- Draws so far. -/
  drawn : Nat

/-- The context that a rehearsed worker begins with. -/
def contextOf (worker : Nat) : WorkerContext := .fresh worker ("w" ++ toString worker)

/-- A part that hangs once its outcomes have come to an end. -/
def Part.ofScript (outcomes : List Outcome) (costs : List UInt32) : Part :=
  ⟨⟨outcomes, fun _ => .stuck, 0, ⟨none⟩⟩, costs, fun _ _ => .stuck⟩

instance : Inhabited Part := ⟨.ofScript [] []⟩

namespace PoolScene

/-- The scene before anything was done. -/
def fresh (plan : PoolPlan WorkerContext) (stage : Stage) (bucket : Option (Bucket Float))
    (setups : List (Option OperationError)) (parts : List Part) : PoolScene :=
  ⟨0, .fresh plan, stage, bucket, setups, parts, [], [], [], [], .first, 0⟩

variable (plan : PoolPlan WorkerContext)

/-- The pool takes a step, and what it says is noted. -/
def move (s : PoolScene) (m : PoolMove WorkerContext) : Option PoolScene :=
  (s.pool.step plan s.now m).map fun (p, said) =>
    { s with pool := p, notices := said.reverse.map (s.now, ·) ++ s.notices }

/-- The list with another value at a position, filled up to there if it is shorter. -/
def put {α : Type} (xs : List α) (i : Nat) (filler x : α) : List α :=
  (xs ++ List.replicate (i + 1 - xs.length) filler).set i x

def reply (s : PoolScene) (i : Nat) : Reply := s.replies.getD i none

def look (s : PoolScene) (i : Nat) : Nat := s.looks.getD i 0

def part (s : PoolScene) (number : Nat) : Part := s.parts.getD number default

/-- A number below a size, as chance falls. -/
def draw (s : PoolScene) (size : Nat) : Nat × PoolScene :=
  (s.chance s.drawn size, { s with drawn := s.drawn + 1 })

/-- The cost of the next batch of a worker. -/
def nextCost (s : PoolScene) (number : Nat) : UInt32 × PoolScene :=
  let part := s.part number
  let parts := s.parts.modify number fun p => { p with costs := p.costs.tail }
  (part.costs.headD 1, { s with parts := parts })

/-- The operation of the worker at position `i` takes a name and is noted. -/
def execute (s : PoolScene) (i : Nat) (w : Worker WorkerContext) (operation : OperationType) :
    PoolScene :=
  let (urn, context) := w.context.nextUrn
  let s := { s with executions := ⟨w.number, s.now, operation.tag, urn⟩ :: s.executions }
  (s.move plan (.worker i (.touch context))).getD s

/-- The action of the worker at position `i` has entered its phase: the script is asked for the
answer. -/
def enter (s : PoolScene) (i : Nat) : PoolScene :=
  match s.pool.workers[i]? with
  | some w =>
    match w.phase with
    | .acting operation _ _ action =>
      let part := s.part w.number
      let performer := { part.performer with afterwards := part.improvise operation.tag }
      let (reply, stage, performer) := s.stage.reply performer s.now action
      let s := { s with
        stage := stage
        replies := put s.replies i none reply
        parts := s.parts.modify w.number fun p => { p with performer := performer } }
      if action.call? = some .run then s.execute plan i w operation else s
    | _ => s
  | none => s

/-- The worker at position `i` takes its next step, if there is one without waiting. -/
def turn (s : PoolScene) (i : Nat) : Option PoolScene :=
  match s.pool.workers[i]? with
  | none => none
  | some w =>
    let cancelled := s.pool.isCancelled w.generation
    match w.phase with
    | .looping =>
      if cancelled || s.pool.status.isHalted then s.move plan (.worker i (.pick 0 none))
      else
        let (cost, s) := s.nextCost w.number
        let (quantum, s) := s.draw (Mix.total + 1)
        s.move plan (.worker i (.pick quantum (some cost)))
    | .pacing _ cost =>
      if cancelled then s.move plan (.worker i .quit)
      else if s.now < s.look i then none
      else match s.bucket with
        | none => s.move plan (.worker i (.paced (.ok ())))
        | some b =>
          let (answer, b) := b.look cost s.now
          let s := { s with bucket := some b }
          match answer with
          | .granted => s.move plan (.worker i (.paced (.ok ())))
          | .refused e => s.move plan (.worker i (.paced (.error e)))
          | .wait d => some { s with looks := put s.looks i 0 (wake (s.now + d.nanos)) }
    | .between _ _ => (s.move plan (.worker i .begin)).map fun s => s.enter plan i
    | .acting _ _ _ action =>
      if action.isOver then s.move plan (.worker i .conclude)
      else
        let m : Option (ActionMove Unit) :=
          if cancelled && action.isCancellable then some .abandon
          else match s.reply i with
            | some (t, a) => if t ≤ s.now then some (.answer (a.map fun _ => ())) else none
            | none => none
        m.bind fun m =>
          let (slot, s) := s.draw (plan.policy.config.slots action.attempts)
          (s.move plan (.worker i (.act slot m))).map fun s => s.enter plan i
    | .failed _ => s.move plan (.worker i .fault)
    | .leaving => s.move plan (.worker i .release)
    | .finished => none

/-- A call goes on, if it can without waiting. -/
def callTurn (s : PoolScene) (i : Nat) : Option PoolScene :=
  match s.pool.calls[i]? with
  | some ⟨_, .settingUp⟩ =>
    let result := match s.setups.headD none with
      | some e => .error e
      | none => .ok ()
    { s with setups := s.setups.tail }.move plan (.prepared i result)
  | some _ => s.move plan (.proceed i)
  | none => none

/-- A reporting loop ends when it has been told to, or writes the report that is due. -/
def loopTurn (s : PoolScene) (i : Nat) : Option PoolScene :=
  (s.move plan (.silence i)).or (s.move plan (.tick i))

/-- The next thing that can be done without time passing. -/
def next (s : PoolScene) : Option PoolScene :=
  ((List.range s.pool.workers.length).findSome? (s.turn plan)).or
    (((List.range s.pool.reporter.loops.length).findSome? (s.loopTurn plan)).or
      ((List.range s.pool.calls.length).findSome? (s.callTurn plan)))

/-- Everyone goes on until all wait. -/
def settle : Nat → PoolScene → PoolScene
  | 0, s => s
  | fuel + 1, s =>
    match s.next plan with
    | some s => settle fuel s
    | none => s

/-- The instant at which the worker at position `i` wakes. -/
def wakeOf (s : PoolScene) (i : Nat) : Option Nat :=
  match s.pool.workers[i]? with
  | some w => match w.phase with
    | .pacing _ _ => some (s.look i)
    | .acting _ _ _ _ => (s.reply i).map (·.1)
    | _ => none
  | none => none

/-- The earliest instant at which anyone wakes. -/
def nextWake (s : PoolScene) : Option Nat :=
  let workers := (List.range s.pool.workers.length).map s.wakeOf
  let loops := s.pool.reporter.loops.map fun l => if l.ended then none else some (wake l.due)
  (workers ++ loops).foldl earlier none

/-- Lets time pass up to an instant. -/
def sleepUntil (deadline : Nat) : Nat → PoolScene → PoolScene
  | 0, s => s
  | fuel + 1, s =>
    match s.nextWake with
    | some t =>
      if t ≤ deadline then
        sleepUntil deadline fuel (settle plan patience { s with now := max s.now t })
      else settle plan patience { s with now := deadline }
    | none => settle plan patience { s with now := deadline }

/-- Makes a call and waits until it has returned. -/
def awaitCall (call : Nat) : Nat → PoolScene → PoolScene
  | 0, s => s
  | fuel + 1, s =>
    let s := settle plan patience s
    match s.pool.result? call with
    | some _ => s
    | none => match s.nextWake with
      | some t => awaitCall call fuel { s with now := max s.now t }
      | none => s

/-- A lifecycle call from outside: its result, once everyone waits again. -/
def call (s : PoolScene) (kind : LifecycleCall) : Except ServiceError Unit × PoolScene :=
  let i := s.pool.calls.length
  let s := awaitCall plan i patience ((s.move plan (.call kind)).getD s)
  ((s.pool.result? i).getD (.ok ()), s)

def sleep (s : PoolScene) (ms : Nat) : PoolScene :=
  sleepUntil plan (s.now + ms * tick) patience s

end PoolScene

end LoadHarness.Rehearsal
