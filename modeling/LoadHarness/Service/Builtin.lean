import LoadHarness.Failure.Database
import LoadHarness.Lifecycle.Pool
import LoadHarness.Pacing.Bucket
import LoadHarness.Service.Registry
import LoadHarness.Service.Synthetic

/-!
# The built-in services

Both are worker pools, assembled from the settings in the same way. The synthetic service simulates
its operations; the ping service asks a database for the number one, and has to know where it is.
-/

namespace LoadHarness

/-- What the operations of a service do. -/
inductive Workload where
  | synthetic (s : SyntheticSettings)
  /-- One small query per operation, over at most `connections` connections; unless `skipInit`, also
  once when the service is created. -/
  | ping (address : String) (connections : UInt32) (skipInit : Bool)

/-- The preparation can end this way: only one that asks the database can fail. -/
def Workload.canEndWith : Workload → Except OperationError Unit → Bool
  | _, .ok () => true
  | .synthetic _, .error _ => false
  | .ping _ _ skipInit, .error _ => !skipInit

/-- A worker pool with everything that was assembled for it. -/
structure PoolService where
  name : String
  workload : Workload
  plan : PoolPlan WorkerContext
  bucket : Bucket Float
  pool : Pool WorkerContext

namespace PoolService

/-- Makes up the identity of the worker with a number. -/
abbrev Identities := Nat → String

/-- A pool that paces, retries and reports as the settings say. -/
def assemble (identities : Identities) (name : String) (s : Settings) (mix : Mix)
    (workload : Workload) : Except ServiceError PoolService := do
  let bucket ← (Bucket.full s.driver.rates 0).mapError .limiter
  let plan : PoolPlan WorkerContext := {
    threads := s.driver.threads.toNat
    mix := mix
    policy := ⟨s.retry, .sqlState⟩
    reports := s.metrics
    context := fun i => .fresh i (identities i) }
  return ⟨name, workload, plan, bucket, .fresh plan⟩

def poolStep (s : PoolService) (now : Nat) (m : PoolMove WorkerContext) : Option PoolService :=
  (s.pool.step s.plan now m).map fun (p, _) => { s with pool := p }

/-- A pool that nobody but its host calls. -/
instance : Hosted PoolService (PoolMove WorkerContext) where
  name s := s.name
  status s := s.pool.status
  call s now kind := (s.pool.calls.length, (s.poolStep now (.call kind)).getD s)
  result? s i := s.pool.result? i
  step s now
    | .call _ => none
    | .prepared i r => if s.workload.canEndWith r then s.poolStep now (.prepared i r) else none
    | m => s.poolStep now m

end PoolService

open PoolService (Identities assemble)

namespace Synthetic

def name : String := "synthetic"

/-- The service that simulates its operations. -/
def build (identities : Identities) : Factory PoolService := fun s => do
  let mix ← (s.workload.mixOr weights tags).mapError .mix
  assemble identities name s mix (.synthetic s.synthetic)

end Synthetic

/-- What the database driver says of an address that it does not take. It connects only when an
operation needs it to, so that this is all that can go wrong at first. -/
abbrev AddressFaults := String → Option DatabaseError

namespace Ping

def name : String := "ping"

/-- The only operation of the service. -/
def tag : String := "PING"

/-- The service that asks a database for the number one. -/
def build (faults : AddressFaults) (identities : Identities) : Factory PoolService := fun s => do
  match s.database.url with
  | none => throw (.config "the ping service needs dash.db.url or DATABASE_URL")
  | some address =>
    let mix ← (s.workload.mixOr [100] [tag]).mapError .mix
    match faults address with
    | some e => throw (.resource e.toOperation)
    | none =>
      assemble identities name s mix
        (.ping address s.maxConnections s.database.skipInit)

/-- How an operation with a tag fails that the service does not know. -/
def unknownTag (tag : String) : OperationError := .fatal ("unknown tag: " ++ tag)

end Ping

/-- The registry with the built-in services. -/
def Registry.builtin (faults : AddressFaults) (identities : Identities) : Registry PoolService :=
  (Registry.empty.register Ping.name (Ping.build faults identities)).register Synthetic.name
    (Synthetic.build identities)

end LoadHarness
