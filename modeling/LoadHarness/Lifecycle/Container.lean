import LoadHarness.Failure.Container
import LoadHarness.Lifecycle.Hosted
import LoadHarness.Service.Registry

/-!
# Containers, step by step

A container runs one service: a start brings it up and then waits until a stop has torn it down. A
container that has been stopped never starts again. Starts and stops take turns under a lock, which
whoever holds it keeps while it waits for a service; everyone who listens hears of every change
from a single dispatcher, in order.

As with pools, a step is what happens between two points where somebody can wait, and any list of
steps is a schedule.
-/

namespace LoadHarness

/-- Whether a container runs its service. -/
inductive ContainerStatus where
  | started
  | stopped
deriving DecidableEq, Repr, Inhabited

/-- The status as it is shown, and as it is stored. -/
def ContainerStatus.shown : ContainerStatus → String
  | started => "STARTED"
  | stopped => "STOPPED"

/-- What can be asked of a container. -/
inductive ContainerCall where
  | start
  | stop
deriving DecidableEq, Repr

/-- Why a service is torn down. -/
inductive TearDown where
  /-- It did not come up. -/
  | undo (e : ServiceError)
  /-- The container stops; these services are still to go. -/
  | halt (rest : List Nat)

/-- What a call waits for. In all phases but the first, `waiting` and `returned` it holds the
lock. -/
inductive TurnPhase where
  | queued
  /-- Waiting for a call of the service. -/
  | creating (service call : Nat)
  | starting (service call : Nat)
  | stopping (service call : Nat) (why : TearDown)
  | destroying (service call : Nat) (why : TearDown)
  /-- A start whose service is up, waiting for the stop. -/
  | waiting
  | returned (result : Except ContainerError Unit)

/-- A start or a stop that has been asked for. -/
structure Turn where
  kind : ContainerCall
  phase : TurnPhase

/-- Someone who listens, with what has been heard. -/
structure Listener where
  heard : List ContainerStatus
deriving DecidableEq, Repr, Inhabited

/-- What a container is made of. -/
structure ContainerPlan (σ : Type) where
  settings : Settings
  registry : Registry σ

/-- A container of services in `σ`. -/
structure Container (σ : Type) where
  status : ContainerStatus
  /-- It has been stopped after it ran. -/
  finished : Bool
  /-- All services ever built. -/
  services : List σ
  /-- The services that run or have run to the end. -/
  kept : List Nat
  /-- The call that holds the lock. -/
  holder : Option Nat
  turns : List Turn
  /-- The word to the waiting starts. -/
  shutdown : Bool
  listeners : List Listener
  /-- Changes not yet taken by the dispatcher; nothing before the first listener, and changes are
  not kept then. -/
  queue : Option (List ContainerStatus)
  /-- The change that is being delivered, and who is still to hear it. -/
  delivery : Option (ContainerStatus × List Nat)

/-- What a container does to its services. -/
inductive Deed where
  /-- It asks a factory for a service. -/
  | build (name : String)
  | call (name : String) (kind : LifecycleCall)
deriving DecidableEq, Repr

/-- A step of a container of services in `σ`, with what it learns. -/
inductive ContainerMove (σ μ : Type) where
  | ask (kind : ContainerCall)
  /-- A call gets the lock; if it asks a factory for a service, it gets this answer. -/
  | lock (turn : Nat) (answer : Except ServiceError σ)
  /-- A call goes on: what it waits for has happened. -/
  | proceed (turn : Nat)
  | listen
  | dispatch
  /-- The next listener hears the change and may break off over it. -/
  | deliver (breaksOff : Bool)
  | service (i : Nat) (m : μ)

namespace Container

variable {σ μ : Type}

def fresh : Container σ where
  status := .stopped
  finished := false
  services := []
  kept := []
  holder := none
  turns := []
  shutdown := false
  listeners := []
  queue := none
  delivery := none

/-- A change for everyone who listens. -/
def publish (c : Container σ) (s : ContainerStatus) : Container σ :=
  { c with queue := c.queue.map (· ++ [s]) }

def setPhase (c : Container σ) (turn : Nat) (phase : TurnPhase) : Container σ :=
  { c with turns := c.turns.modify turn fun t => { t with phase := phase } }

/-- The call returns and gives the lock back. -/
def finish (c : Container σ) (turn : Nat) (result : Except ContainerError Unit) : Container σ :=
  { c.setPhase turn (.returned result) with holder := none }

variable [Hosted σ μ]

/-- The result of a call of a service, once it has returned. -/
def result? (c : Container σ) (service call : Nat) : Option (Except ServiceError Unit) :=
  c.services[service]?.bind fun s => Hosted.result? s call

/-- Makes a call of a service: the call's number and what was done. -/
def callService (c : Container σ) (now service : Nat) (kind : LifecycleCall) :
    Nat × Container σ × List Deed :=
  match c.services[service]? with
  | some s =>
    let (call, s') := Hosted.call s now kind
    (call, { c with services := c.services.set service s' }, [.call (Hosted.name s) kind])
  | none => (0, c, [])

/-- Begins to tear a service down. -/
def beginTearDown (c : Container σ) (now turn service : Nat) (why : TearDown) :
    Container σ × List Deed :=
  let (call, c, deeds) := c.callService now service .stop
  (c.setPhase turn (.stopping service call why), deeds)

/-- The end of a stop: the container has run for good. -/
def close (c : Container σ) (turn : Nat) : Container σ :=
  { (c.publish .stopped).finish turn (.ok ()) with
    status := .stopped, finished := true, shutdown := true }

/-- A start that has got the lock. A factory may answer otherwise each time it is asked. -/
def beginStart (plan : ContainerPlan σ) (c : Container σ) (now turn : Nat)
    (answer : Except ServiceError σ) : Container σ × List Deed :=
  let name := plan.settings.service
  if c.status = .started then (c.finish turn (.ok ()), [])
  else if c.finished then (c.finish turn (.error .finished), [])
  else match plan.settings.validate with
    | .error e => (c.finish turn (.error (.config e)), [])
    | .ok () =>
    if !plan.registry.contains name then
      (c.finish turn (.error (.service name (.unknown name))), [])
    else match answer with
      | .error e => (c.finish turn (.error (.service name e)), [.build name])
      | .ok s =>
        let i := c.services.length
        let (call, c, deeds) := { c with services := c.services ++ [s] }.callService now i .create
        (c.setPhase turn (.creating i call), .build name :: deeds)

/-- A stop that has got the lock. -/
def beginStop (c : Container σ) (now turn : Nat) : Container σ × List Deed :=
  if c.status = .stopped then (c.finish turn (.ok ()), [])
  else match c.kept with
    | [] => (c.close turn, [])
    | i :: rest => c.beginTearDown now turn i (.halt rest)

/-- A call past the point where it waits, if what it waits for has happened. -/
def resume (plan : ContainerPlan σ) (c : Container σ) (now turn : Nat) :
    TurnPhase → Option (Container σ × List Deed)
  | .creating i call => (c.result? i call).map fun
    | .ok () =>
      let (call, c, deeds) := c.callService now i .start
      (c.setPhase turn (.starting i call), deeds)
    | .error e => c.beginTearDown now turn i (.undo e)
  | .starting i call => (c.result? i call).map fun
    | .ok () =>
      ({ (c.publish .started).setPhase turn .waiting with
        status := .started, kept := c.kept ++ [i], holder := none }, [])
    | .error e => c.beginTearDown now turn i (.undo e)
  | .stopping i call why => (c.result? i call).map fun _ =>
      let (call, c, deeds) := c.callService now i .destroy
      (c.setPhase turn (.destroying i call why), deeds)
  | .destroying i call why => (c.result? i call).map fun _ =>
    match why with
    | .undo e => (c.finish turn (.error (.service plan.settings.service e)), [])
    | .halt [] => (c.close turn, [])
    | .halt (j :: rest) => c.beginTearDown now turn j (.halt rest)
  | .waiting => if c.shutdown then some (c.setPhase turn (.returned (.ok ())), []) else none
  | .queued => none
  | .returned _ => none

/-- The container after a step, and what it did; nothing when the step is not possible. -/
def step (plan : ContainerPlan σ) (c : Container σ) (now : Nat) :
    ContainerMove σ μ → Option (Container σ × List Deed)
  | .ask kind => some ({ c with turns := c.turns ++ [⟨kind, .queued⟩] }, [])
  | .lock turn answer =>
    match c.holder, c.turns[turn]? with
    | none, some ⟨kind, .queued⟩ =>
      let c := { c with holder := some turn }
      some (match kind with
        | .start => c.beginStart plan now turn answer
        | .stop => c.beginStop now turn)
    | _, _ => none
  | .proceed turn =>
    match c.turns[turn]? with
    | some t => c.resume plan now turn t.phase
    | none => none
  | .listen =>
    some ({ c with listeners := c.listeners ++ [⟨[]⟩], queue := some (c.queue.getD []) }, [])
  | .dispatch =>
    match c.delivery, c.queue with
    | none, some (s :: rest) =>
      some ({ c with queue := some rest, delivery := some (s, List.range c.listeners.length) }, [])
    | _, _ => none
  | .deliver _ =>
    match c.delivery with
    | some (s, i :: rest) =>
      some ({ c with
        listeners := c.listeners.modify i fun l => { l with heard := l.heard ++ [s] }
        delivery := some (s, rest) }, [])
    | some (_, []) => some ({ c with delivery := none }, [])
    | none => none
  | .service i m =>
    (c.services[i]?.bind fun s => Hosted.step s now m).map fun s =>
      ({ c with services := c.services.set i s }, [])

end Container

end LoadHarness
