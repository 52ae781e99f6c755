import LoadHarness.Decimal.Reading

/-!
# Numbers in JSON

What a number stands for depends on who asks. A whole number is its digits and nothing else. A
double is computed from as many leading digits as a 64-bit word holds and one power of ten, so it
can differ in its last bit from the double nearest to the decimal.
-/

namespace LoadHarness.JsonNumber

/-- The digits of an exponent and the rest. -/
def spanExponent (cs : List Char) : Option (List Char × List Char) :=
  let (sign, r) := match cs with
    | '+' :: r => (['+'], r)
    | '-' :: r => (['-'], r)
    | r => ([], r)
  let (ds, rest) := Decimal.spanDigits r
  if ds.isEmpty then none else some (sign ++ ds, rest)

/-- An optional exponent at the front, and the rest. -/
def spanScale (cs : List Char) : Option (List Char × List Char) :=
  match cs with
  | 'e' :: r => (spanExponent r).map fun (e, r) => ('e' :: e, r)
  | 'E' :: r => (spanExponent r).map fun (e, r) => ('e' :: e, r)
  | r => some ([], r)

/-- An optional fraction and exponent at the front, and the rest. -/
def spanTail (cs : List Char) : Option (List Char × List Char) :=
  match cs with
  | '.' :: r =>
    let (ds, r) := Decimal.spanDigits r
    if ds.isEmpty then none
    else (spanScale r).map fun (e, r) => ('.' :: (ds ++ e), r)
  | r => spanScale r

/-- Whole digits without a leading zero, then the tail. -/
def spanMagnitude (cs : List Char) : Option (List Char × List Char) :=
  let (ds, r) := Decimal.spanDigits cs
  if ds.isEmpty || (ds.head? == some '0' && 1 < ds.length) then none
  else (spanTail r).map fun (t, r) => (ds ++ t, r)

/-- The number at the front as it is written, and the rest. -/
def span (cs : List Char) : Option (List Char × List Char) :=
  match cs with
  | '-' :: r => (spanMagnitude r).map fun (n, r) => ('-' :: n, r)
  | r => spanMagnitude r

/-- A number with digits only, up to `max`. -/
def toNat? (max : Nat) (literal : String) : Option Nat := do
  let n ← Text.readNat 10 literal.toList
  if n ≤ max then some n else none

/-- A whole number from -2⁶³ to 2⁶³ - 1; a zero has no sign. -/
def toInt64? (literal : String) : Option Int64 :=
  match literal.toList with
  | '-' :: r => do
    let n ← Text.readNat 10 r
    if 0 < n ∧ n ≤ Text.signedBound then some (Int64.ofInt (-(n : Int))) else none
  | r => do
    let n ← Text.readNat 10 r
    if n < Text.signedBound then some (Int64.ofNat n) else none

/-! Doubles. -/

/-- Digits taken into a word, how many of them stood there, and how many were left out. -/
structure Significand where
  value : Nat
  taken : Nat
  left : Nat

/-- Takes digits as long as the word holds them; after the first that does not fit none is taken. -/
def Significand.take (s : Significand) (ds : List Char) : Significand :=
  ds.foldl (fun s c =>
    let v := s.value * 10 + Text.digitValue c
    if s.left = 0 ∧ v < UInt64.size then ⟨v, s.taken + 1, 0⟩ else { s with left := s.left + 1 }) s

/-- The largest power of ten that is a double. -/
def maxPower : Nat := 308

/-- Ten to a power that is at most `maxPower`. -/
def power (n : Nat) : Float := Binary64.ofRatio false (Nat.pow 10 n) 1

/-- The word times ten to the exponent; nothing when that is too large. Small exponents are
divided out in steps of the largest power. -/
def scale (fuel : Nat) (f : Float) (exponent : Int) : Option Float :=
  match fuel with
  | 0 => some f
  | fuel + 1 =>
    if exponent.natAbs ≤ maxPower then
      if 0 ≤ exponent then
        let g := f * power exponent.toNat
        if g.isInf then none else some g
      else some (f / power (-exponent).toNat)
    else if f == 0.0 then some f
    else if 0 ≤ exponent then none
    else scale fuel (f / power maxPower) (exponent + maxPower)

/-- The largest exponent that is read; a larger one is as good as infinite. -/
def exponentLimit : Nat := 2147483647

/-- The double a written number stands for, and nothing when it is too large. -/
def toFloat? (literal : String) : Option Float := do
  let (negative, cs) := match literal.toList with
    | '-' :: r => (true, r)
    | r => (false, r)
  let signed (f : Float) : Float := if negative then -f else f
  let (whole, r) := Decimal.spanDigits cs
  let (fraction, r) := match r with
    | '.' :: r => Decimal.spanDigits r
    | r => ([], r)
  let s := (Significand.mk 0 0 0).take whole
  let before : Int := s.left
  let t := (Significand.mk s.value 0 0).take fraction
  let point : Int := before - t.taken
  let f := (UInt64.ofNat t.value).toFloat
  match r with
  | [] => (scale 8 f point).map signed
  | _ :: r =>
    let (down, ds) := Decimal.splitSign r
    let e := Text.ofDigits 10 ds
    if exponentLimit < e then
      if t.value ≠ 0 ∧ !down then none else some (signed 0.0)
    else (scale 8 f (if down then point - e else point + e)).map signed

end LoadHarness.JsonNumber
