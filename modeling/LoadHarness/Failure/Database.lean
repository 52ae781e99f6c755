import LoadHarness.Failure.Operation

/-!
# Failures of the database driver

The driver's own errors and how an attempt reports them: rejections keep their code, broken and
missing connections become connection failures, and the rest is passed on as it is.
-/

namespace LoadHarness

inductive DatabaseError where
  | rejected (code : Option String) (text : String)
  | io (text : String)
  | tls (text : String)
  | protocol (text : String)
  | poolTimedOut
  | poolClosed
  | workerCrashed
  | rowNotFound
  | columnNotFound (name : String)
  | columnIndex (index length : Nat)
  | typeNotFound (name : String)
  | configuration (text : String)
  | decode (text : String)
deriving DecidableEq, Repr

namespace DatabaseError

instance : Explained DatabaseError where
  message
    | rejected _ text => text
    | io text => "error communicating with database: " ++ text
    | tls text => "error occurred while attempting to establish a TLS connection: " ++ text
    | protocol text => "encountered unexpected or invalid data: " ++ text
    | poolTimedOut => "pool timed out while waiting for an open connection"
    | poolClosed => "attempted to acquire a connection on a closed pool"
    | workerCrashed => "attempted to communicate with a crashed background worker"
    | rowNotFound => "no rows returned by a query that expected to return at least one row"
    | columnNotFound name => "no column found for name: " ++ name
    | columnIndex index length =>
      "column index out of bounds: the len is " ++ toString length ++ ", but the index is " ++
        toString index
    | typeNotFound name => "type named " ++ name ++ " not found"
    | configuration text => "error with configuration: " ++ text
    | decode text => "error occurred while decoding: " ++ text
  sources
    | configuration text => [text]
    | decode text => [text]
    | _ => []

/-- How an attempt reports the error. -/
def toOperation : DatabaseError → OperationError
  | rejected code text => .backend (code.getD "") text
  | e@(io _) | e@(tls _) | e@(protocol _) | e@poolTimedOut | e@poolClosed | e@workerCrashed =>
    .connection (message e)
  | e => .other (message e) (sources e)

end DatabaseError

end LoadHarness
