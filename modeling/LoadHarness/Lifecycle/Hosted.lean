import LoadHarness.Failure.Service
import LoadHarness.Lifecycle.Status

/-!
# Services that are driven through their life

Whoever drives a service makes calls, waits for each to return, and looks at the status. What the
service does meanwhile is its own business.
-/

namespace LoadHarness

/-- The calls that move a service through its life. -/
inductive LifecycleCall where
  | create
  | start
  | stop
  | destroy
deriving DecidableEq, Repr

def LifecycleCall.name : LifecycleCall → String
  | create => "create"
  | start => "start"
  | stop => "stop"
  | destroy => "destroy"

/-- Services with states in `σ` that take steps of their own in `μ`. -/
class Hosted (σ : Type) (μ : outParam Type) where
  name : σ → String
  status : σ → ServiceStatus
  /-- Makes a call at an instant; the call's number and the service after its first part. -/
  call : σ → Nat → LifecycleCall → Nat × σ
  result? : σ → Nat → Option (Except ServiceError Unit)
  /-- A step of the service's own, if it is possible at that instant. -/
  step : σ → Nat → μ → Option σ

end LoadHarness
