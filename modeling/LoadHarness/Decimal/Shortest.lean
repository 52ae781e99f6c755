import LoadHarness.Decimal.Binary64

/-!
# The fewest digits that read back

A double stands for every real that rounds to it. Among the decimals in that interval the shortest
is printed, and of several with that many digits the nearest to the double; a tie goes to the even
digit.
-/

namespace LoadHarness.Decimal

/-- A positive decimal number: `digits * 10 ^ exponent`. -/
structure Scientific where
  digits : Nat
  exponent : Int
deriving DecidableEq, Repr

/-- The reals that round to a double, in units of a common denominator: the double is
`value / scale`, and the interval is from `low / scale` to `high / scale`, its ends included when
`closed`. -/
structure Interval where
  value : Nat
  low : Nat
  high : Nat
  scale : Nat
  closed : Bool

/-- The interval of a positive finite double. The gap below a power of two is half as wide. -/
def intervalOf (b : Binary64) : Interval :=
  let m := b.significand
  let below := if m = Binary64.fractionSize ∧ b.exponent ≠ Binary64.minExponent then 1 else 2
  let up := Nat.pow 2 b.exponent.toNat
  let down := b.denominator
  { value := 4 * m * up
    low := (4 * m - below) * up
    high := (4 * m + 2) * up
    scale := 4 * down
    closed := m % 2 == 0 }

/-- The decimal `k * 10 ^ e` lies in the interval. -/
def Interval.holds (i : Interval) (k : Nat) (e : Int) : Bool :=
  let v := k * Nat.pow 10 e.toNat * i.scale
  let unit := Nat.pow 10 (-e).toNat
  if i.closed then i.low * unit ≤ v && v ≤ i.high * unit
  else i.low * unit < v && v < i.high * unit

/-- The best decimal with exponent `e` in the interval: of the value's two neighbours on that grid
the one that lies in it, of two the nearer, of two equally near the even. -/
def Interval.onGrid (i : Interval) (e : Int) : Option Scientific :=
  let num := i.value * Nat.pow 10 (-e).toNat
  let den := i.scale * Nat.pow 10 e.toNat
  let k := num / den
  let r := num % den
  let lower := i.holds k e && k != 0
  let upper := i.holds (k + 1) e
  if lower && upper then
    if 2 * r < den then some ⟨k, e⟩
    else if den < 2 * r then some ⟨k + 1, e⟩
    else some ⟨if k % 2 = 0 then k else k + 1, e⟩
  else if lower then some ⟨k, e⟩
  else if upper then some ⟨k + 1, e⟩
  else none

/-- The first grid with a point in the interval, from exponent `e` on downwards. -/
def Interval.search (i : Interval) : Nat → Int → Scientific
  | 0, e => ⟨i.value / i.scale, e⟩
  | n + 1, e => (i.onGrid e).getD (i.search n (e - 1))

/-- Trailing zeros move into the exponent. -/
def Scientific.normal : Nat → Scientific → Scientific
  | 0, s => s
  | n + 1, s =>
    if s.digits ≠ 0 ∧ s.digits % 10 = 0 then normal n ⟨s.digits / 10, s.exponent + 1⟩ else s

/-- The shortest decimal that reads back as the positive double `b`. -/
def shortest (b : Binary64) : Scientific :=
  let i := intervalOf b
  -- an exponent at which the value is below ten: no coarser grid holds a point near it
  let top : Int := ((Nat.log2 b.significand : Int) + b.exponent) * 1233 / 4096 + 1
  (i.search 25 top).normal 25

end LoadHarness.Decimal
