import LoadHarness.Duration

/-!
# Virtual time

A rehearsal runs the machines of this library against a script instead of a backend. Its clock
stands still while anything can happen and then jumps to the next wake-up. Sleepers wake on whole
milliseconds.
-/

namespace LoadHarness.Rehearsal

/-- Nanoseconds of a millisecond. -/
def tick : Nat := 1000000

/-- The instant at which a sleeper with a deadline wakes: the next whole millisecond. -/
def wake (deadline : Nat) : Nat := (deadline + (tick - 1)) / tick * tick

/-- The earlier of two instants that may never come. -/
def earlier : Option Nat → Option Nat → Option Nat
  | some a, some b => some (min a b)
  | some a, none => some a
  | none, b => b

def reached (now : Nat) : Option Nat → Bool
  | some t => t ≤ now
  | none => false

/-- More steps than any script that comes to an end needs. -/
def patience : Nat := 1000000000

theorem le_wake (t : Nat) : t ≤ wake t := by
  unfold wake tick; omega

theorem wake_lt (t : Nat) : wake t < t + tick := by
  unfold wake tick; omega

end LoadHarness.Rehearsal
