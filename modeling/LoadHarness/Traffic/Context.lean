import LoadHarness.Traffic.Draw

/-!
# A worker's private state

A worker names the things it creates after itself: its identity, a colon and a number that only
grows.
-/

namespace LoadHarness

/-- The state that one worker owns for its whole life. -/
structure WorkerContext where
  worker : Nat
  identity : String
  /-- Numbers given out so far. -/
  counter : UInt64
deriving DecidableEq, Repr, Inhabited

namespace WorkerContext

/-- Characters in an identity that is made up. -/
def identityLength : Nat := 15

/-- The characters of identities that are made up. -/
def identityAlphabet : String := "ABCDEFGHIJKLMNOPQRSTUVWXYZabcdefghijklmnopqrstuvwxyz0123456789"

/-- An identity made up from as many draws as it has characters. -/
def identityOf (draw : Fin identityLength → Fin 62) : String :=
  String.ofList ((List.ofFn draw).map fun i => identityAlphabet.toList.getD i.val 'A')

def fresh (worker : Nat) (identity : String) : WorkerContext := ⟨worker, identity, 0⟩

def urn (c : WorkerContext) (n : Nat) : String := c.identity ++ ":" ++ toString n

/-- Gives out the next number. -/
def increment (c : WorkerContext) : UInt64 × WorkerContext :=
  (c.counter + 1, { c with counter := c.counter + 1 })

def nextUrn (c : WorkerContext) : String × WorkerContext :=
  let (n, c) := c.increment
  (c.urn n.toNat, c)

/-- One of the names given out so far, if there is one, drawn from a source of words. -/
def randomUrn (c : WorkerContext) (ws : WordSource) : Option String :=
  if c.counter = 0 then none else some (c.urn (WordSource.oneTo c.counter.toNat ws).1)

end WorkerContext

end LoadHarness
