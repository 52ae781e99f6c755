import LoadHarness.Rehearsal.Clock
import LoadHarness.Pacing.Bucket

/-!
# Buckets in rehearsal

One caller at a bucket in virtual time. A caller that waits looks again when it wakes.
-/

namespace LoadHarness.Rehearsal

/-- A bucket, or no limit at all, at an instant. -/
structure PacingScene where
  now : Nat
  bucket : Option (Bucket Float)

/-- How waiting for tokens ended. -/
inductive Waited where
  | granted
  | refused (e : LimiterError)
  | late

namespace PacingScene

/-- Waits for tokens, at most until a deadline. A token that comes at the deadline is taken. -/
def consume (tokens : UInt32) (deadline : Option Nat) : Nat → PacingScene → Waited × PacingScene
  | 0, s => (.late, s)
  | fuel + 1, s =>
    match s.bucket with
    | none => (.granted, s)
    | some b =>
      let (answer, b) := b.look tokens s.now
      let s := { s with bucket := some b }
      match answer with
      | .granted => (.granted, s)
      | .refused e => (.refused e, s)
      | .wait d =>
        let next := wake (s.now + d.nanos)
        match deadline with
        | some t =>
          if t ≤ s.now then (.late, s)
          else if t < next then (.late, { s with now := t })
          else consume tokens deadline fuel { s with now := next }
        | none => consume tokens deadline fuel { s with now := next }

/-- Looks that no wait needs more of. -/
def looks : Nat := 1000000

/-- Waits for tokens several times and notes the instant of each grant; stops at an error. -/
def consumeMany (tokens : UInt32) : Nat → PacingScene → List (Except LimiterError Nat) × PacingScene
  | 0, s => ([], s)
  | n + 1, s =>
    match s.consume tokens none looks with
    | (.refused e, s) => ([.error e], s)
    | (_, s) =>
      let (rest, s') := consumeMany tokens n s
      (.ok s.now :: rest, s')

/-- Takes tokens if they are there; nothing to say without a limit. -/
def tryConsume (s : PacingScene) (tokens : UInt32) : Option Bool × PacingScene :=
  match s.bucket with
  | none => (none, s)
  | some b => let (ok, b) := b.tryConsume tokens s.now; (some ok, { s with bucket := some b })

def available (s : PacingScene) : Option UInt64 × PacingScene :=
  match s.bucket with
  | none => (none, s)
  | some b => let (n, b) := b.available s.now; (some n, { s with bucket := some b })

end PacingScene

end LoadHarness.Rehearsal
