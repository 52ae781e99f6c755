/-!
# Doubles as integers times powers of two

A finite double is ±m · 2^e with a whole m. `Binary64.decode` takes the three parts out of the 64
bits and `Binary64.ofRatio` goes the other way for any quotient, rounding to the nearest double
and a tie to the even one. Reading and printing decimals needs nothing else.
-/

namespace LoadHarness

/-- The size of a finite double: `significand * 2 ^ exponent`. -/
structure Binary64 where
  significand : Nat
  exponent : Int
deriving DecidableEq, Repr

namespace Binary64

/-- The size as a quotient of whole numbers, its denominator a power of two. -/
def numerator (b : Binary64) : Nat := b.significand * Nat.pow 2 b.exponent.toNat

def denominator (b : Binary64) : Nat := Nat.pow 2 (-b.exponent).toNat

/-- One more than the largest fraction, which has 52 bits. -/
def fractionSize : Nat := Nat.pow 2 52

/-- The exponent of the smallest doubles. -/
def minExponent : Int := -1074

/-- The exponent field that infinities and NaN carry. -/
def specialExponent : Nat := 2047

def signBit (x : Float) : Bool := x.toBits.toNat / (fractionSize * 2048) == 1

def exponentField (x : Float) : Nat := x.toBits.toNat / fractionSize % 2048

def fractionField (x : Float) : Nat := x.toBits.toNat % fractionSize

/-- The size of a finite double, and nothing for infinities and NaN. -/
def decode (x : Float) : Option Binary64 :=
  let e := exponentField x
  let f := fractionField x
  if e = specialExponent then none
  else if e = 0 then some ⟨f, minExponent⟩
  else some ⟨fractionSize + f, minExponent + (e - 1 : Nat)⟩

/-- `n / d` rounded to a whole number, a tie to the even neighbour. -/
def divideToEven (n d : Nat) : Nat :=
  let q := n / d
  let r := n % d
  if 2 * r < d then q
  else if d < 2 * r then q + 1
  else if q % 2 = 0 then q else q + 1

/-- The bits of the non-negative double nearest to `n / d`, for a positive `d`. -/
def bitsOfRatio (n d : Nat) : UInt64 :=
  if n = 0 then 0
  else
    -- the exponent for which the quotient has 53 bits, or the smallest one
    let guess : Int := (Nat.log2 n : Int) - (Nat.log2 d : Int) - 53
    let quotient (e : Int) : Nat × Nat :=
      if 0 ≤ e then (n, d * Nat.pow 2 e.toNat) else (n * Nat.pow 2 (-e).toNat, d)
    let fits (e : Int) : Bool := let (a, b) := quotient e; a / b < 2 * fractionSize
    let e := if fits guess then guess else guess + 1
    let e := if fits e then e else e + 1
    let e := max e minExponent
    let (a, b) := quotient e
    let m := divideToEven a b
    let (m, e) := if m = 2 * fractionSize then (fractionSize, e + 1) else (m, e)
    if m < fractionSize then UInt64.ofNat m
    else
      let field := (e - minExponent).toNat + 1
      if specialExponent ≤ field then UInt64.ofNat (specialExponent * fractionSize)
      else UInt64.ofNat (field * fractionSize + (m - fractionSize))

/-- The double nearest to `n / d`, with the given sign. -/
def ofRatio (negative : Bool) (n d : Nat) : Float :=
  let x := Float.ofBits (bitsOfRatio n d)
  if negative then -x else x

/-- The bits of `x` as sixteen hexadecimal digits. -/
def hex (x : Float) : String :=
  let digits := Nat.toDigits 16 x.toBits.toNat
  String.ofList (List.replicate (16 - digits.length) '0' ++ digits)

end Binary64

end LoadHarness
