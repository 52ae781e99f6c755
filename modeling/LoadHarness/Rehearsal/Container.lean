import LoadHarness.Rehearsal.Address
import LoadHarness.Rehearsal.Pool
import LoadHarness.Lifecycle.Container

/-!
# Containers in rehearsal

A container in virtual time, with services that follow a script or pools of workers that never get
an answer. Calls go on in the order in which they were made.
-/

namespace LoadHarness.Rehearsal

/-- A service that only goes through its life, and fails where its script says. -/
structure ScriptedService where
  name : String
  status : ServiceStatus
  create : Option ServiceError
  start : Option ServiceError
  results : List (Except ServiceError Unit)

namespace ScriptedService

def fresh (name : String) (create start : Option ServiceError) : ScriptedService :=
  ⟨name, .initial, create, start, []⟩

/-- The error a script has for a call. -/
def failure? (s : ScriptedService) : LifecycleCall → Option ServiceError
  | .create => s.create
  | .start => s.start
  | .stop => none
  | .destroy => none

/-- The status after a call that succeeds. -/
def statusAfter (s : ServiceStatus) : LifecycleCall → ServiceStatus
  | .create => (s.move .destroyed .created).2
  | .start => (s.move .created .started).2
  | .stop => (s.move .started .stopped).2
  | .destroy => ((s.move .created .destroyed).2.move .stopped .destroyed).2

def call (s : ScriptedService) (kind : LifecycleCall) : ScriptedService :=
  match s.failure? kind with
  | some e => { s with results := s.results ++ [.error e] }
  | none => { s with results := s.results ++ [.ok ()], status := statusAfter s.status kind }

end ScriptedService

/-- A service on the stage. -/
inductive Actor where
  | scripted (s : ScriptedService)
  | pool (name : String) (plan : PoolPlan WorkerContext) (scene : PoolScene)

namespace Actor

/-- How a database that cannot be reached answers. -/
def unreachable : OperationError :=
  (DatabaseError.io "No such file or directory (os error 2)").toOperation

/-- A built-in service whose database cannot be reached and whose operations never end. -/
def ofService (s : PoolService) : Actor :=
  let setups := match s.workload with
    | .ping _ _ false => [some unreachable]
    | _ => []
  .pool s.name s.plan (.fresh s.plan ⟨[], [], .refusing 0⟩ (some s.bucket) setups [])

instance : Hosted Actor Unit where
  name
    | scripted s => s.name
    | pool name _ _ => name
  status
    | scripted s => s.status
    | pool _ _ scene => scene.pool.status
  call a now kind := match a with
    | scripted s => (s.results.length, scripted (s.call kind))
    | pool name plan scene =>
      let i := scene.pool.calls.length
      let scene := scene.sleepUntil plan now patience
      (i, pool name plan ((scene.move plan (.call kind)).getD scene))
  result? a i := match a with
    | scripted s => s.results[i]?
    | pool _ _ scene => scene.pool.result? i
  step a now _ := match a with
    | scripted _ => none
    | pool name plan scene => some (pool name plan (scene.sleepUntil plan now patience))

def builtin : Registry Actor :=
  let made := Registry.builtin Address.faults fun i => (contextOf i).identity
  ⟨made.entries.map fun (name, build) => (name, fun s => (build s).map ofService)⟩

end Actor

/-- A container on the stage. -/
structure ContainerScene where
  now : Nat
  container : Container Actor
  /-- The latest first. -/
  deeds : List Deed
  /-- Which listeners break off over everything they hear. -/
  breaking : List Bool
  /-- How often one has. -/
  breakOffs : Nat

namespace ContainerScene

def fresh : ContainerScene := ⟨0, .fresh, [], [], 0⟩

variable (plan : ContainerPlan Actor)

/-- The container takes a step, and what it does is noted. -/
def move (s : ContainerScene) (m : ContainerMove Actor Unit) : Option ContainerScene :=
  (s.container.step plan s.now m).map fun (c, deeds) =>
    { s with container := c, deeds := deeds.reverse ++ s.deeds }

/-- Every service goes on as far as it can without time passing. -/
def settleServices (s : ContainerScene) : ContainerScene :=
  (List.range s.container.services.length).foldl (fun s i => (s.move plan (.service i ())).getD s) s

/-- The next listener hears the change that is being delivered. -/
def deliver (s : ContainerScene) : Option ContainerScene :=
  let hearer := s.container.delivery.bind (·.2.head?)
  let breaksOff := (hearer.map (s.breaking.getD · false)).getD false
  (s.move plan (.deliver breaksOff)).map fun s =>
    if breaksOff then { s with breakOffs := s.breakOffs + 1 } else s

/-- What the registry's factory for the service says. -/
def answer : Except ServiceError Actor :=
  plan.registry.create plan.settings.service plan.settings

/-- The next thing that can be done without time passing. -/
def next (s : ContainerScene) : Option ContainerScene :=
  ((List.range s.container.turns.length).findSome? fun i =>
    (s.move plan (.lock i (answer plan))).or (s.move plan (.proceed i))).or
    ((s.deliver plan).or (s.move plan .dispatch))

/-- Everyone goes on until all wait. -/
def settle : Nat → ContainerScene → ContainerScene
  | 0, s => s
  | fuel + 1, s =>
    match (s.settleServices plan).next plan with
    | some s => settle fuel s
    | none => s.settleServices plan

/-- The container after a step from outside, once everyone waits again. -/
def take (s : ContainerScene) (m : ContainerMove Actor Unit) : ContainerScene :=
  settle plan patience ((s.move plan m).getD s)

/-- Several calls at the same time. -/
def ask (s : ContainerScene) (kinds : List ContainerCall) : ContainerScene :=
  settle plan patience (kinds.foldl (fun s kind => (s.move plan (.ask kind)).getD s) s)

def listen (s : ContainerScene) (breaksOff : Bool) : ContainerScene :=
  { s with breaking := s.breaking ++ [breaksOff] }.take plan .listen

def sleep (s : ContainerScene) (ms : Nat) : ContainerScene :=
  settle plan patience { s with now := s.now + ms * tick }

/-- The service that runs, or that ran last. -/
def service? (s : ContainerScene) : Option Actor :=
  s.container.kept.head?.bind fun i => s.container.services[i]?

end ContainerScene

end LoadHarness.Rehearsal
