import LoadHarness.Retry.Config
import LoadHarness.Failure.Class

/-!
# Retry policies

A policy is a configuration and a classifier. An action that does not end well ends in one of three
ways, and two of them carry the failure of the last attempt.
-/

namespace LoadHarness

/-- Why an action was given up. -/
inductive RetryError where
  /-- Every attempt failed in a way that may pass. -/
  | exhausted (attempts : UInt32) (last : OperationError)
  /-- An attempt failed in a way that trying again cannot mend. -/
  | nonTransient (attempt : UInt32) (error : OperationError)
  /-- Cancelled while waiting or running. -/
  | cancelled
deriving DecidableEq, Repr

namespace RetryError

instance : Explained RetryError where
  message
    | exhausted n _ => "gave up after " ++ toString n.toNat ++ " attempt(s)"
    | nonTransient n _ => "non-transient failure on attempt " ++ toString n.toNat
    | cancelled => "operation cancelled"
  sources
    | exhausted _ e => chain e
    | nonTransient _ e => chain e
    | cancelled => []

def isCancelled : RetryError → Bool
  | cancelled => true
  | _ => false

/-- The failure of the last attempt. -/
def operation? : RetryError → Option OperationError
  | exhausted _ e => some e
  | nonTransient _ e => some e
  | cancelled => none

def attempts? : RetryError → Option UInt32
  | exhausted n _ => some n
  | nonTransient n _ => some n
  | cancelled => none

/-- The failure must stop the whole pool. -/
def isFatal (e : RetryError) : Bool := (e.operation?.map (·.isFatal)).getD false

/-- The failure ends an action and stops nothing: the worker counts it and goes on. -/
def stopsNothing (e : RetryError) : Bool := !e.isCancelled && !e.isFatal

end RetryError

/-- How actions are tried again. -/
structure RetryPolicy where
  config : RetryConfig
  classify : Classifier

/-- Exponential backoff, classes by SQLSTATE. -/
def RetryPolicy.standard : RetryPolicy := ⟨.exponential, .sqlState⟩

end LoadHarness
