import LoadHarness.Failure.Operation
import LoadHarness.Text.Cut

/-!
# Classes of failures

The retry loop does not look at errors, only at their class. A classifier is any function from one
to the other; `sqlState` reads the five-character codes of SQL backends and `Rule.classifier`
looks for words in the error's text.
-/

namespace LoadHarness

/-- How the retry loop treats a failure. -/
inductive FailureClass where
  /-- The resource is broken: try again, and throw the resource away without rollback. -/
  | connection
  /-- The backend rolled the work back: try again. -/
  | rollback
  /-- A key was taken: try again, the next attempt draws new keys. -/
  | uniqueViolation
  /-- Trying again cannot help. -/
  | nonTransient
  /-- The pool is stopping. -/
  | cancelled
deriving DecidableEq, Repr, Inhabited

namespace FailureClass

/-- A new attempt may succeed. -/
def isTransient : FailureClass → Bool
  | connection | rollback | uniqueViolation => true
  | nonTransient | cancelled => false

/-- The resource is thrown away without rollback. -/
def isConnection (c : FailureClass) : Bool := c == connection

/-- The name people and files use. -/
def name : FailureClass → String
  | connection => "connection"
  | rollback => "rollback"
  | uniqueViolation => "unique_violation"
  | nonTransient => "non_transient"
  | cancelled => "cancelled"

def ofName? (s : String) : Option FailureClass :=
  [connection, rollback, uniqueViolation, nonTransient, cancelled].find? (·.name == s)

theorem ofName?_name (c : FailureClass) : ofName? c.name = some c := by
  cases c <;> decide

end FailureClass

/-- Decides the class of an error. -/
abbrev Classifier := OperationError → FailureClass

namespace Classifier

/-- The class of an SQLSTATE code: classes 08 and 40, the shutdown codes and the unique key
violation may pass; everything else will not. -/
def ofSqlState (code : String) : FailureClass :=
  if "08".toList.isPrefixOf code.toList then .connection
  else if "40".toList.isPrefixOf code.toList then .rollback
  else if code = "57P01" ∨ code = "57P02" ∨ code = "57P03" then .connection
  else if code = "23505" then .uniqueViolation
  else .nonTransient

/-- Reads the SQLSTATE of backend errors. -/
def sqlState : Classifier
  | .connection _ => .connection
  | .cancelled => .cancelled
  | .backend code _ => ofSqlState code
  | .fatal _ => .nonTransient
  | .other _ _ => .nonTransient

/-- A word to look for, and the class of the errors whose message has it. -/
structure Rule where
  word : String
  verdict : FailureClass

/-- The verdict of the first rule whose word occurs in the message. -/
def ofRules (rules : List Rule) : Classifier := fun e =>
  ((rules.find? fun r => Text.occurs r.word.toList (message e).toList).map Rule.verdict).getD
    .nonTransient

end Classifier

end LoadHarness
