import LoadHarness.Failure.Causes

/-!
# Failures of one attempt

What a provider or an operation can answer instead of a result. `other` keeps a chain of texts,
the outermost first, and shows itself as that chain.
-/

namespace LoadHarness

/-- A failure raised while a resource is acquired, used or committed. -/
inductive OperationError where
  /-- The backend is out of reach, or the connection broke. -/
  | connection (text : String)
  /-- The backend rejected the work with a signal code. -/
  | backend (code text : String)
  /-- The operation was abandoned because its pool is stopping. -/
  | cancelled
  /-- A condition no retry can mend; it stops the whole pool. -/
  | fatal (text : String)
  /-- Anything without a code: the outermost text and the texts beneath it. -/
  | other (outermost : String) (beneath : List String)
deriving DecidableEq, Repr, Inhabited

namespace OperationError

/-- The backend's signal code, if there is one. -/
def code? : OperationError → Option String
  | backend code _ => some code
  | _ => none

def isCancelled : OperationError → Bool
  | cancelled => true
  | _ => false

def isFatal : OperationError → Bool
  | fatal _ => true
  | _ => false

/-- An error from a root text and contexts added around it one after another. -/
def ofChain (root : String) (contexts : List String) : OperationError :=
  match contexts.reverse with
  | [] => other root []
  | outermost :: inner => other outermost (inner ++ [root])

instance : Explained OperationError where
  message
    | connection text => "connection failure: " ++ text
    | backend code text => text ++ " (code " ++ code ++ ")"
    | cancelled => "operation cancelled"
    | fatal text => "fatal: " ++ text
    | other outermost _ => outermost
  sources
    | other _ beneath => beneath
    | _ => []

end OperationError

end LoadHarness
