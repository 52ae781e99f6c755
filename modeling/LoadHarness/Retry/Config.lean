import LoadHarness.Duration

/-!
# Delays between attempts

The first attempt runs at once. Before each later one a number of slots is drawn from a range that
doubles with every attempt up to a ceiling, and the delay is the floor plus that many slots, but
never more than the cap.
-/

namespace LoadHarness

/-- How often an action is tried and how long it waits in between. -/
structure RetryConfig where
  /-- Attempts in all, the first one included. -/
  maxAttempts : UInt32
  /-- Floor under every delay. -/
  minBackoff : Duration
  /-- Cap on every delay. -/
  maxBackoff : Duration
  /-- Length of one slot. -/
  slotTime : Duration
  /-- Attempts after which the range of slots stops doubling. -/
  backoffCeiling : UInt32
deriving DecidableEq, Inhabited

namespace RetryConfig

/-- Ten attempts, from 5 ms in slots of 10 ms up to 2 s. -/
def exponential : RetryConfig where
  maxAttempts := 10
  minBackoff := .ofMillis 5
  maxBackoff := .ofMillis 2000
  slotTime := .ofMillis 10
  backoffCeiling := 10

def noRetry : RetryConfig := ⟨1, .zero, .zero, .zero, 0⟩

/-- The same delay before every further attempt. -/
def fixed (interval : Duration) (attempts : UInt32) : RetryConfig :=
  ⟨attempts, interval, interval, .zero, 0⟩

/-- At least one attempt. -/
def withMaxAttempts (c : RetryConfig) (n : UInt32) : RetryConfig :=
  { c with maxAttempts := max n 1 }

/-- The largest ceiling: the range of slots is drawn as a 32-bit word. -/
def exponentLimit : UInt32 := 31

def withBackoffCeiling (c : RetryConfig) (n : UInt32) : RetryConfig :=
  { c with backoffCeiling := min n exponentLimit }

/-- How many slot counts the delay before attempt `made + 1` is drawn from. -/
def slots (c : RetryConfig) (made : UInt32) : Nat :=
  Nat.pow 2 (min (min made.toNat c.backoffCeiling.toNat) exponentLimit.toNat)

/-- The delay after `made` attempts when `slot` is drawn; nothing when floor and slots together
are longer than any duration. -/
def delay? (c : RetryConfig) (made : UInt32) (slot : Nat) : Option Duration :=
  if made = 0 then some .zero
  else (c.minBackoff.add? (c.slotTime.scale slot)).map (·.shorter c.maxBackoff)

/-- Another attempt may follow after `made` of them. -/
def hasAttemptsRemaining (c : RetryConfig) (made : UInt32) : Bool := made < c.maxAttempts

/-- The first `limit` distinct delays for the slots from `slot` on, `n` of them left; the delays
never fall. -/
def distinctDelays (c : RetryConfig) (made : UInt32) (n slot : Nat) (last : Option Duration) :
    Nat → List Duration
  | 0 => []
  | limit + 1 =>
    match n, c.delay? made slot with
    | 0, _ => []
    | _, none => []
    | n + 1, some d =>
      if last = some d then []
      else d :: distinctDelays c made n (slot + 1) (some d) limit

/-- What all draws together can give. -/
inductive DelayRange where
  /-- Some draw is too long for a duration. -/
  | overflow
  | many
  | exactly (delays : List Duration)

/-- The distinct delays after `made` attempts, if there are at most `limit`. -/
def delays (c : RetryConfig) (made : UInt32) (limit : Nat) : DelayRange :=
  if (c.delay? made (c.slots made - 1)).isNone then .overflow
  else
    let ds := c.distinctDelays made (c.slots made) 0 none (limit + 1)
    if limit < ds.length then .many else .exactly ds

end RetryConfig

end LoadHarness
