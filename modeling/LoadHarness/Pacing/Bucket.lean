import LoadHarness.Pacing.Rate
import LoadHarness.Pacing.Quantity

/-!
# Token buckets

A bucket starts full and fills at a steady rate up to its capacity. It is filled only when someone
looks at it: every question first adds what has flowed in since the last one. Instants are
nanoseconds since the start of the clock.
-/

namespace LoadHarness

/-- A bucket of tokens, some of them fractions. -/
structure Bucket (α : Type) where
  rate : UInt64
  capacity : UInt64
  level : α
  /-- When the level was last brought up to date. -/
  filledAt : Nat

namespace Bucket

variable {α : Type} [Quantity α]

open Quantity (add sub mul div atMost slack seconds whole lower higher)

/-- A full bucket at an instant. -/
def full (c : RateConfig) (now : Nat) : Except LimiterError (Bucket α) :=
  match c.validate with
  | .error e => .error e
  | .ok () => .ok ⟨c.limit, c.capacity, Quantity.ofNat c.capacity.toNat, now⟩

/-- The level that has been reached at an instant. -/
def levelAt (b : Bucket α) (now : Nat) : α :=
  let elapsed := Duration.ofNanos (now - b.filledAt)
  lower (add b.level (mul (seconds elapsed) (Quantity.ofNat b.rate.toNat)))
    (Quantity.ofNat b.capacity.toNat)

/-- Brings the level up to date. -/
def refill (b : Bucket α) (now : Nat) : Bucket α :=
  { b with level := b.levelAt now, filledAt := now }

/-- Whole tokens in the bucket at an instant. -/
def available (b : Bucket α) (now : Nat) : UInt64 × Bucket α :=
  let b := b.refill now
  (whole (add b.level slack), b)

/-- The level covers `tokens`, up to the slack. -/
def covers (b : Bucket α) (tokens : UInt32) : Bool :=
  atMost (Quantity.ofNat tokens.toNat) (add b.level slack)

def take (b : Bucket α) (tokens : UInt32) : Bucket α :=
  { b with level := higher (sub b.level (Quantity.ofNat tokens.toNat)) (Quantity.ofNat 0) }

/-- Takes the tokens if they are there at once. -/
def tryConsume (b : Bucket α) (tokens : UInt32) (now : Nat) : Bool × Bucket α :=
  let b := b.refill now
  if b.covers tokens then (true, b.take tokens) else (false, b)

/-- The shortest sleep between two looks at the bucket. -/
def minWait : Duration := .ofMicros 100

/-- The sleep after which the bucket should cover `tokens`. -/
def waitFor (b : Bucket α) (tokens : UInt32) : Duration :=
  (Quantity.toDuration (div (sub (Quantity.ofNat tokens.toNat) b.level)
    (Quantity.ofNat b.rate.toNat))).longer minWait

/-- What a caller who waits for tokens hears when it looks. -/
inductive Answer where
  | granted
  | refused (e : LimiterError)
  /-- Look again after this sleep. -/
  | wait (d : Duration)
deriving DecidableEq

/-- One look of a caller who waits: requests beyond the capacity are refused at once and change
nothing. -/
def look (b : Bucket α) (tokens : UInt32) (now : Nat) : Answer × Bucket α :=
  if b.capacity.toNat < tokens.toNat then (.refused (.exceedsCapacity tokens b.capacity), b)
  else
    let b := b.refill now
    if b.covers tokens then (.granted, b.take tokens) else (.wait (b.waitFor tokens), b)

end Bucket

end LoadHarness
