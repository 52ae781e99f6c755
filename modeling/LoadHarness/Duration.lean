/-!
# Spans of time

A duration is a whole number of nanoseconds, at most every second a 64-bit word can count plus a
full fraction. The bound is part of the type: sums say when they leave it, products stop at it.
-/

namespace LoadHarness

/-- The longest duration, in nanoseconds. -/
def Duration.maxNanos : Nat := 18446744073709551615 * 1000000000 + 999999999

/-- A span of time in nanoseconds. -/
structure Duration where
  nanos : Nat
  nanos_le : nanos ≤ Duration.maxNanos
deriving DecidableEq

namespace Duration

theorem ext_nanos {a b : Duration} (h : a.nanos = b.nanos) : a = b := by
  cases a; cases b; simp_all

def zero : Duration := ⟨0, Nat.zero_le _⟩

instance : Inhabited Duration := ⟨zero⟩

/-- `n` nanoseconds, cut at the longest duration. -/
def ofNanos (n : Nat) : Duration := ⟨min n maxNanos, Nat.min_le_right _ _⟩

/-- `n` nanoseconds, if that many fit. -/
def ofNanos? (n : Nat) : Option Duration :=
  if h : n ≤ maxNanos then some ⟨n, h⟩ else none

/-- Whole microseconds; every 64-bit count fits. -/
def ofMicros (n : UInt64) : Duration := ofNanos (n.toNat * 1000)

/-- Whole milliseconds; every 64-bit count fits. -/
def ofMillis (n : UInt64) : Duration := ofNanos (n.toNat * 1000000)

/-- Whole seconds; every 64-bit count fits. -/
def ofSeconds (n : UInt64) : Duration := ofNanos (n.toNat * 1000000000)

def isZero (d : Duration) : Bool := d.nanos == 0

/-- The sum, unless it is too long. -/
def add? (a b : Duration) : Option Duration := ofNanos? (a.nanos + b.nanos)

/-- `n` times `d`, cut at the longest duration. -/
def scale (d : Duration) (n : Nat) : Duration := ofNanos (d.nanos * n)

def shorter (a b : Duration) : Duration := if a.nanos ≤ b.nanos then a else b

def longer (a b : Duration) : Duration := if a.nanos ≤ b.nanos then b else a

/-- Whole microseconds in a 64-bit word; only the low bits of a longer span are kept. -/
def micros (d : Duration) : UInt64 := UInt64.ofNat (d.nanos / 1000)

/-- Whole milliseconds in a 64-bit word; only the low bits of a longer span are kept. -/
def millis (d : Duration) : UInt64 := UInt64.ofNat (d.nanos / 1000000)

/-- Whole seconds; they always fit. -/
def seconds (d : Duration) : UInt64 := UInt64.ofNat (d.nanos / 1000000000)

/-- Nanoseconds past the last whole second. -/
def subsecond (d : Duration) : Nat := d.nanos % 1000000000

@[simp] theorem nanos_zero : zero.nanos = 0 := rfl

theorem nanos_ofNanos {n : Nat} (h : n ≤ maxNanos) : (ofNanos n).nanos = n :=
  Nat.min_eq_left h

theorem ofNanos?_eq_none_iff {n : Nat} : ofNanos? n = none ↔ maxNanos < n := by
  simp [ofNanos?]

theorem nanos_shorter (a b : Duration) : (shorter a b).nanos = min a.nanos b.nanos := by
  unfold shorter; split <;> omega

theorem nanos_ofMicros (n : UInt64) : (ofMicros n).nanos = n.toNat * 1000 := by
  refine nanos_ofNanos ?_
  have := n.toNat_lt
  simp only [maxNanos]
  omega

theorem millis_ofMillis (n : UInt64) : (ofMillis n).millis = n := by
  have h : n.toNat * 1000000 ≤ maxNanos := by
    have := n.toNat_lt; simp only [maxNanos]; omega
  simp [millis, ofMillis, nanos_ofNanos h]

theorem seconds_ofSeconds (n : UInt64) : (ofSeconds n).seconds = n := by
  have h : n.toNat * 1000000000 ≤ maxNanos := by
    have := n.toNat_lt; simp only [maxNanos]; omega
  simp [seconds, ofSeconds, nanos_ofNanos h]

/-! Text for people: the largest unit that is not zero, and the fraction without trailing zeros. -/

/-- The `width` decimal digits of `n`, leading zeros kept and trailing zeros dropped. -/
def fractionDigits (width n : Nat) : String :=
  let digits := (Nat.toDigits 10 n)
  let padded := List.replicate (width - digits.length) '0' ++ digits
  String.ofList (padded.reverse.dropWhile (· == '0')).reverse

/-- A count of units with `width` digits of fraction, then the unit's sign. -/
def inUnit (whole fraction width : Nat) (unit : String) : String :=
  let digits := if fraction = 0 then "" else fractionDigits width fraction
  toString whole ++ (if digits.isEmpty then "" else "." ++ digits) ++ unit

/-- The span as a person writes it: `1.5s`, `5ms`, `250µs`, `0ns`. -/
def text (d : Duration) : String :=
  if 1000000000 ≤ d.nanos then inUnit (d.nanos / 1000000000) (d.nanos % 1000000000) 9 "s"
  else if 1000000 ≤ d.nanos then inUnit (d.nanos / 1000000) (d.nanos % 1000000) 6 "ms"
  else if 1000 ≤ d.nanos then inUnit (d.nanos / 1000) (d.nanos % 1000) 3 "µs"
  else inUnit d.nanos 0 0 "ns"

/-! Seconds as binary fractions, for the rate arithmetic. -/

/-- Seconds as a double: whole seconds plus the fraction divided by 10⁹. -/
def toSeconds (d : Duration) : Float :=
  d.seconds.toFloat + (UInt64.ofNat d.subsecond).toFloat / 1000000000.0

end Duration

end LoadHarness
