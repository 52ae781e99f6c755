/-!
# Whole numbers in a given base

Digits are ASCII. `readNat` takes a nonempty run of digits and nothing else; a sign is the business
of the signed and unsigned readers above it.
-/

namespace LoadHarness.Text

/-- The value of one digit, letters in either case. -/
def digitValue (c : Char) : Nat :=
  if '0' ≤ c ∧ c ≤ '9' then c.toNat - '0'.toNat
  else if 'a' ≤ c ∧ c ≤ 'f' then c.toNat - 'a'.toNat + 10
  else if 'A' ≤ c ∧ c ≤ 'F' then c.toNat - 'A'.toNat + 10
  else 16

def isDigitIn (base : Nat) (c : Char) : Bool := digitValue c < base

/-- The number a list of digits stands for, the first digit the highest. -/
def ofDigits (base : Nat) (cs : List Char) : Nat :=
  cs.foldl (fun n c => n * base + digitValue c) 0

/-- A nonempty list of digits and nothing else. -/
def readNat (base : Nat) (cs : List Char) : Option Nat :=
  if cs.isEmpty || !cs.all (isDigitIn base) then none else some (ofDigits base cs)

/-- Digits after an optional plus sign, for a number up to `max`. -/
def readUnsigned (base max : Nat) (cs : List Char) : Option Nat := do
  let n ← readNat base (match cs with | '+' :: r => r | r => r)
  if n ≤ max then some n else none

/-- Digits after an optional sign, for a number from `-bound` to `bound - 1`. -/
def readSigned (base bound : Nat) (cs : List Char) : Option Int :=
  match cs with
  | '-' :: r => do
    let n ← readNat base r
    if n ≤ bound then some (-(n : Int)) else none
  | r => (readUnsigned base (bound - 1) r).map Int.ofNat

/-! Whole texts as machine words. -/

/-- Half of the numbers that a 64-bit word holds: where the signed ones end. -/
def signedBound : Nat := Nat.pow 2 63

def readUInt64 (s : String) : Option UInt64 :=
  (readUnsigned 10 (UInt64.size - 1) s.toList).map UInt64.ofNat

def readUInt32 (s : String) : Option UInt32 :=
  (readUnsigned 10 (UInt32.size - 1) s.toList).map UInt32.ofNat

def readInt64 (s : String) : Option Int64 :=
  (readSigned 10 signedBound s.toList).map Int64.ofInt

/-- The words `true` and `false`, as they stand. -/
def readBool (s : String) : Option Bool :=
  if s = "true" then some true else if s = "false" then some false else none

end LoadHarness.Text
