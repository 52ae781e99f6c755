import LoadHarness.Traffic.Mix
import LoadHarness.Pacing.Rate
import LoadHarness.Retry.Policy

/-!
# Failures of a service

What keeps a service from being built, created or kept running.
-/

namespace LoadHarness

inductive ServiceError where
  | config (text : String)
  | mix (e : MixError)
  | limiter (e : LimiterError)
  /-- No service has that name. -/
  | unknown (name : String)
  /-- The preparation of its resource failed. -/
  | resource (e : OperationError)
  /-- A worker met a failure that stops the pool. -/
  | fatal (e : RetryError)
  | panicked (worker : Nat)
deriving DecidableEq, Repr

instance : Explained ServiceError where
  message
    | .config text => "invalid service configuration: " ++ text
    | .mix e => "invalid mix: " ++ message e
    | .limiter e => "rate limiter: " ++ message e
    | .unknown name => "unknown service: " ++ name
    | .resource _ => "resource setup failed"
    | .fatal _ => "fatal worker failure"
    | .panicked worker => "worker " ++ toString worker ++ " panicked"
  sources
    | .mix e => chain e
    | .limiter e => chain e
    | .resource e => chain e
    | .fatal e => chain e
    | _ => []

end LoadHarness
