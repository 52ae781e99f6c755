import LoadHarness.Decimal.Binary64
import LoadHarness.Text.Digits

/-!
# Doubles from text

A decimal with an optional sign, point and exponent, or a word for a value without digits. The
result is the double nearest to the exact decimal, whatever the number of digits.
-/

namespace LoadHarness.Decimal

/-- A written decimal: `±(whole.fraction) * 10 ^ exponent`. -/
structure Written where
  negative : Bool
  whole : List Char
  fraction : List Char
  exponent : Int

/-- The digits at the front, and the rest. -/
def spanDigits (cs : List Char) : List Char × List Char :=
  (cs.takeWhile (Text.isDigitIn 10), cs.dropWhile (Text.isDigitIn 10))

/-- An optional sign at the front, and the rest. -/
def splitSign : List Char → Bool × List Char
  | '-' :: r => (true, r)
  | '+' :: r => (false, r)
  | r => (false, r)

/-- Exponents past this many places leave nothing between zero and infinity. -/
def exponentCap : Nat := 100000

/-- An exponent's digits, cut at the cap. -/
def readExponent (cs : List Char) : Option Int := do
  let (negative, r) := splitSign cs
  let n ← Text.readNat 10 r
  let n := min n exponentCap
  some (if negative then -(n : Int) else n)

/-- A decimal without its sign: digits on at least one side of an optional point, then an
optional exponent. -/
def readMagnitude (negative : Bool) (cs : List Char) : Option Written :=
  let (whole, r) := spanDigits cs
  let (fraction, r) := match r with
    | '.' :: r => spanDigits r
    | r => ([], r)
  if whole.isEmpty && fraction.isEmpty then none
  else match r with
    | [] => some ⟨negative, whole, fraction, 0⟩
    | c :: r =>
      if c = 'e' ∨ c = 'E' then
        (readExponent r).map fun e => ⟨negative, whole, fraction, e⟩
      else none

/-- The double nearest to `digits * 10 ^ exponent`. -/
def nearest (negative : Bool) (digits : Nat) (exponent : Int) (length : Nat) : Float :=
  if digits = 0 ∨ (exponent + length) < -400 then Binary64.ofRatio negative 0 1
  else if 400 < exponent + length then Binary64.ofRatio negative (Nat.pow 2 1100) 1
  else Binary64.ofRatio negative (digits * Nat.pow 10 exponent.toNat)
    (Nat.pow 10 (-exponent).toNat)

/-- The double nearest to a written decimal. -/
def Written.toFloat (w : Written) : Float :=
  let ds := w.whole ++ w.fraction
  -- leading zeros do not count for the size
  let significant := ds.dropWhile (· == '0')
  nearest w.negative (Text.ofDigits 10 significant) (w.exponent - w.fraction.length)
    significant.length

/-- A decimal, or `inf`, `infinity` or `nan` in any case, after an optional sign. -/
def readFloat (s : String) : Option Float :=
  let (negative, r) := splitSign s.toList
  let word := String.ofList (r.map Char.toLower)
  let signed (x : Float) : Float := if negative then -x else x
  if word = "inf" ∨ word = "infinity" then some (signed (1.0 / 0.0))
  else if word = "nan" then some (signed (0.0 / 0.0))
  else (readMagnitude negative r).map Written.toFloat

end LoadHarness.Decimal
