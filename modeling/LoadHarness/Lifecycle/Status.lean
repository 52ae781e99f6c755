/-!
# The status of a service

A service is created, started, stopped and destroyed, in this order and round again. A move names
the status it starts from and does nothing from any other.
-/

namespace LoadHarness

/-- Where a service stands in its life. -/
inductive ServiceStatus where
  | created
  | started
  | stopped
  | destroyed
deriving DecidableEq, Repr, Inhabited

namespace ServiceStatus

/-- Place in the order of life. -/
def rank : ServiceStatus → Nat
  | created => 0
  | started => 1
  | stopped => 2
  | destroyed => 3

def isHalted (s : ServiceStatus) : Bool := stopped.rank ≤ s.rank

/-- The status as it is shown. -/
def shown : ServiceStatus → String
  | created => "CREATED"
  | started => "STARTED"
  | stopped => "STOPPED"
  | destroyed => "DESTROYED"

/-- The status as it is stored. -/
def stored : ServiceStatus → String
  | created => "created"
  | started => "started"
  | stopped => "stopped"
  | destroyed => "destroyed"

def ofStored? (s : String) : Option ServiceStatus :=
  [created, started, stopped, destroyed].find? (·.stored == s)

/-- The status of a service before anything was done with it. -/
def initial : ServiceStatus := destroyed

/-- Moves to `target` from `source` and from nowhere else; says whether it moved. -/
def move (s source target : ServiceStatus) : Bool × ServiceStatus :=
  if s = source then (true, target) else (false, s)

def order (a b : ServiceStatus) : Ordering := compare a.rank b.rank

theorem ofStored?_stored (s : ServiceStatus) : ofStored? s.stored = some s := by
  cases s <;> decide

end ServiceStatus

end LoadHarness
