import LoadHarness.Decimal.Shortest

/-!
# Written forms of doubles

`FloatFormat` holds the decisions a text format makes about doubles; `FloatFormat.render` follows
them. `fixed` writes a set number of places instead, rounded from the exact binary value.
-/

namespace LoadHarness.Decimal

/-- What a format says about writing doubles: where the point may stand without an exponent, and
the words for the values that have no digits. -/
structure FloatFormat where
  /-- Numbers below `10 ^ maxPoint` are written positionally, with `.0` when they are whole. -/
  maxPoint : Int
  /-- Numbers below `10 ^ minPoint` get an exponent. -/
  minPoint : Int
  plus : Bool
  nan : String
  infinity : String
  minusInfinity : String

/-- Positional for a small exponent, otherwise one digit, the fraction and `e` with the exponent. -/
def FloatFormat.layout (f : FloatFormat) (s : Scientific) : String :=
  let ds := Nat.toDigits 10 s.digits
  let n := ds.length
  -- the decimal point stands after `point` digits
  let point : Int := n + s.exponent
  if 0 ≤ s.exponent ∧ point ≤ f.maxPoint then
    String.ofList (ds ++ List.replicate s.exponent.toNat '0') ++ ".0"
  else if 0 < point ∧ point ≤ f.maxPoint then
    String.ofList (ds.take point.toNat) ++ "." ++ String.ofList (ds.drop point.toNat)
  else if f.minPoint < point ∧ point ≤ 0 then
    "0." ++ String.ofList (List.replicate (-point).toNat '0' ++ ds)
  else
    let mantissa := String.ofList (ds.take 1) ++
      (if n = 1 then "" else "." ++ String.ofList (ds.drop 1))
    mantissa ++ (if f.plus && 0 < point then "e+" else "e") ++ toString (point - 1)

/-- A double in the format's words. -/
def FloatFormat.render (f : FloatFormat) (x : Float) : String :=
  match Binary64.decode x with
  | none => if x.isNaN then f.nan else if Binary64.signBit x then f.minusInfinity else f.infinity
  | some b =>
    let digits := if b.significand = 0 then "0.0" else f.layout (shortest b)
    (if Binary64.signBit x then "-" else "") ++ digits

/-- `x` with exactly `places` decimals, rounded from its exact value, a tie to the even digit. -/
def fixed (places : Nat) (x : Float) : String :=
  match Binary64.decode x with
  | none => if x.isNaN then "NaN" else if Binary64.signBit x then "-inf" else "inf"
  | some b =>
    let n := Binary64.divideToEven (b.numerator * Nat.pow 10 places) b.denominator
    let ds := Nat.toDigits 10 n
    let padded := List.replicate (places + 1 - ds.length) '0' ++ ds
    let whole := padded.take (padded.length - places)
    let fraction := padded.drop (padded.length - places)
    (if Binary64.signBit x then "-" else "") ++ String.ofList whole ++
      (if places = 0 then "" else "." ++ String.ofList fraction)

end LoadHarness.Decimal
