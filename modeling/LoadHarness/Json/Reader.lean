import LoadHarness.Json.Value
import LoadHarness.Json.Number

/-!
# Reading JSON

One value with blanks around it, and nothing else. A string whose escapes leave half of a surrogate
pair is still a string, but it has no text.
-/

namespace LoadHarness.JsonValue

/-- Blanks between tokens. -/
def isSpace (c : Char) : Bool := c = ' ' || c = '\n' || c = '\t' || c = '\r'

def skipSpace (cs : List Char) : List Char := cs.dropWhile isSpace

/-- Four hexadecimal digits as a number. -/
def hex4? (a b c d : Char) : Option Nat := Text.readNat 16 [a, b, c, d]

/-- The first half of a surrogate pair. -/
def isHigh (n : Nat) : Bool := 0xD800 ≤ n && n < 0xDC00

/-- The second half of a surrogate pair. -/
def isLow (n : Nat) : Bool := 0xDC00 ≤ n && n < 0xE000

/-- The character that two halves make. -/
def joinPair (high low : Nat) : Char :=
  Char.ofNat (0x10000 + (high - 0xD800) * 0x400 + (low - 0xDC00))

/-- The character after a backslash, other than `u`. -/
def unescape (c : Char) : Option Char :=
  if c = '"' ∨ c = '\\' ∨ c = '/' then some c
  else if c = 'b' then some (Char.ofNat 8)
  else if c = 'f' then some (Char.ofNat 12)
  else if c = 'n' then some '\n'
  else if c = 'r' then some '\r'
  else if c = 't' then some '\t'
  else none

/-- A character in front of the text read so far. -/
def addChar (c : Char) : Option (List Char) × List Char → Option (List Char) × List Char
  | (t, r) => (t.map (c :: ·), r)

/-- The rest of a string after its opening quote: its characters, if they make a text, and what
follows the closing quote. -/
def readString : List Char → Option (Option (List Char) × List Char)
  | [] => none
  | '"' :: r => some (some [], r)
  | '\\' :: 'u' :: a :: b :: c :: d :: r =>
    match hex4? a b c d with
    | none => none
    | some n =>
      if isHigh n then
        match r with
        | '\\' :: 'u' :: a' :: b' :: c' :: d' :: r' =>
          match hex4? a' b' c' d' with
          | none => none
          | some n' =>
            if isLow n' then (readString r').map (addChar (joinPair n n'))
            else (readString ('\\' :: 'u' :: a' :: b' :: c' :: d' :: r')).map fun p => (none, p.2)
        | r => (readString r).map fun p => (none, p.2)
      else if isLow n then (readString r).map fun p => (none, p.2)
      else (readString r).map (addChar (Char.ofNat n))
  | '\\' :: c :: r =>
    match unescape c with
    | none => none
    | some x => (readString r).map (addChar x)
  | c :: r => if c.toNat < 32 then none else (readString r).map (addChar c)
termination_by cs => cs.length

/-- A string after its opening quote, as a text. -/
def readText (cs : List Char) : Option (JsonText × List Char) :=
  (readString cs).map fun (t, r) => (t.map String.ofList, r)

mutual

/-- The value at the front and the rest. Every step down costs one unit of fuel. -/
def readValue : Nat → List Char → Option (JsonValue × List Char)
  | 0, _ => none
  | fuel + 1, cs =>
    match skipSpace cs with
    | '"' :: r => (readText r).map fun (t, r) => (string t, r)
    | '[' :: r =>
      match skipSpace r with
      | ']' :: r => some (array [], r)
      | r => (readItems fuel r).map fun (vs, r) => (array vs, r)
    | '{' :: r =>
      match skipSpace r with
      | '}' :: r => some (object [], r)
      | r => (readMembers fuel r).map fun (ms, r) => (object ms, r)
    | 'n' :: 'u' :: 'l' :: 'l' :: r => some (null, r)
    | 't' :: 'r' :: 'u' :: 'e' :: r => some (bool true, r)
    | 'f' :: 'a' :: 'l' :: 's' :: 'e' :: r => some (bool false, r)
    | r => (JsonNumber.span r).map fun (n, r) => (number (String.ofList n), r)

/-- Items up to the closing bracket. -/
def readItems : Nat → List Char → Option (List JsonValue × List Char)
  | 0, _ => none
  | fuel + 1, cs =>
    match readValue fuel cs with
    | none => none
    | some (v, r) =>
      match skipSpace r with
      | ']' :: r => some ([v], r)
      | ',' :: r => (readItems fuel r).map fun (vs, r) => (v :: vs, r)
      | _ => none

/-- Members up to the closing brace. -/
def readMembers : Nat → List Char → Option (List (JsonText × JsonValue) × List Char)
  | 0, _ => none
  | fuel + 1, cs =>
    match skipSpace cs with
    | '"' :: r =>
      match readText r with
      | none => none
      | some (k, r) =>
        match skipSpace r with
        | ':' :: r =>
          match readValue fuel r with
          | none => none
          | some (v, r) =>
            match skipSpace r with
            | '}' :: r => some ([(k, v)], r)
            | ',' :: r => (readMembers fuel r).map fun (ms, r) => ((k, v) :: ms, r)
            | _ => none
        | _ => none
    | _ => none

end

/-- The value that a text holds, if it holds one and nothing else. -/
def parse? (s : String) : Option JsonValue :=
  let cs := s.toList
  match readValue (2 * cs.length + 2) cs with
  | some (v, r) => if (skipSpace r).isEmpty then some v else none
  | none => none

end LoadHarness.JsonValue
