import LoadHarness.Duration
import LoadHarness.Decimal.Binary64

/-!
# Quantities of tokens

The bucket counts fractions of tokens. It runs on doubles; the laws about rates are laws about the
same bucket on exact fractions. `Quantity` is what the two have in common.
-/

namespace LoadHarness

/-- The arithmetic a token bucket needs. -/
class Quantity (α : Type) where
  ofNat : Nat → α
  seconds : Duration → α
  add : α → α → α
  sub : α → α → α
  mul : α → α → α
  div : α → α → α
  atMost : α → α → Bool
  /-- What a level may fall short of a request: 10⁻⁹ tokens. -/
  slack : α
  /-- The whole part in a 64-bit word: zero below zero, and the largest word for what is larger. -/
  whole : α → UInt64
  /-- That many seconds, to the nearest nanosecond, a tie to the even one. -/
  toDuration : α → Duration

namespace Quantity

def lower {α : Type} [Quantity α] (a b : α) : α := if atMost a b then a else b

def higher {α : Type} [Quantity α] (a b : α) : α := if atMost a b then b else a

/-- The exact fraction `n / d` of a second, to the nearest nanosecond. -/
def nearestNanos (n d : Nat) : Duration :=
  .ofNanos (Binary64.divideToEven (n * 1000000000) d)

instance : Quantity Float where
  ofNat n := (UInt64.ofNat n).toFloat
  seconds := Duration.toSeconds
  add a b := a + b
  sub a b := a - b
  mul a b := a * b
  div a b := a / b
  atMost a b := a ≤ b
  slack := 1e-9
  whole x := x.toUInt64
  toDuration x := match Binary64.decode x with
    | none => .zero
    | some b =>
      nearestNanos b.numerator b.denominator

instance : Quantity Rat where
  ofNat n := n
  seconds d := (d.nanos : Rat) / 1000000000
  add a b := a + b
  sub a b := a - b
  mul a b := a * b
  div a b := a / b
  atMost a b := a ≤ b
  slack := 1 / 1000000000
  whole x := UInt64.ofNat (min x.floor.toNat (UInt64.size - 1))
  toDuration x := nearestNanos x.num.toNat x.den

end Quantity

end LoadHarness
