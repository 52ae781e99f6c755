import LoadHarness.Decimal.Layout
import LoadHarness.Encoding

/-!
# JSON values and their written form

A number is kept as it is written and a string as the text it stands for. Two printers share the
spelling of scalars: `compact` leaves out every blank, `pretty` puts each item on a line of its own.
-/

namespace LoadHarness

/-- The text of a string; none when an escape leaves half of a surrogate pair, which is no text. -/
abbrev JsonText := Option String

inductive JsonValue where
  | null
  | bool (b : Bool)
  /-- A number in its own digits. -/
  | number (literal : String)
  | string (text : JsonText)
  | array (items : List JsonValue)
  /-- Members in the order in which they are written. -/
  | object (members : List (JsonText × JsonValue))

namespace JsonValue

/-- Doubles in JSON: the fewest digits, and `null` for those that have none. -/
def floatFormat : Decimal.FloatFormat where
  maxPoint := 16
  minPoint := -5
  plus := true
  nan := "null"
  infinity := "null"
  minusInfinity := "null"

def ofFloat (x : Float) : JsonValue :=
  if (Binary64.decode x).isNone then null else number (floatFormat.render x)

instance : Encoding JsonValue where
  nothing := null
  truth := bool
  whole n := number (toString n)
  real := ofFloat
  text s := string (some s)
  list := array
  record members := object (members.map fun (k, v) => (some k, v))

def hexDigit (n : Nat) : Char := Nat.digitChar n

/-- A character inside a string: quotes, backslashes and control characters are escaped. -/
def escape (c : Char) : List Char :=
  if c = '"' then ['\\', '"']
  else if c = '\\' then ['\\', '\\']
  else if c = '\n' then ['\\', 'n']
  else if c = '\r' then ['\\', 'r']
  else if c = '\t' then ['\\', 't']
  else if c.toNat = 8 then ['\\', 'b']
  else if c.toNat = 12 then ['\\', 'f']
  else if c.toNat < 32 then
    ['\\', 'u', '0', '0', hexDigit (c.toNat / 16), hexDigit (c.toNat % 16)]
  else [c]

/-- A string in quotes. -/
def quoted (s : String) : List Char := '"' :: (s.toList.flatMap escape ++ ['"'])

/-- A string value in quotes; what stands for no text is written empty. -/
def quotedText (t : JsonText) : List Char := quoted (t.getD "")

mutual

/-- The value without any blanks. -/
def compactChars : JsonValue → List Char
  | null => "null".toList
  | bool true => "true".toList
  | bool false => "false".toList
  | number literal => literal.toList
  | string t => quotedText t
  | array [] => ['[', ']']
  | array (v :: vs) => '[' :: (compactChars v ++ compactItems vs)
  | object [] => ['{', '}']
  | object ((k, v) :: ms) => '{' :: (quotedText k ++ ':' :: (compactChars v ++ compactMembers ms))

/-- The items after the first one, and the closing bracket. -/
def compactItems : List JsonValue → List Char
  | [] => [']']
  | v :: vs => ',' :: (compactChars v ++ compactItems vs)

/-- The members after the first one, and the closing brace. -/
def compactMembers : List (JsonText × JsonValue) → List Char
  | [] => ['}']
  | (k, v) :: ms => ',' :: (quotedText k ++ ':' :: (compactChars v ++ compactMembers ms))

end

/-- A new line, two blanks further in for every level. -/
def newline (level : Nat) : List Char := '\n' :: List.replicate (2 * level) ' '

mutual

/-- The value with every item and member on a line of its own, at a level. -/
def prettyChars (level : Nat) : JsonValue → List Char
  | array (v :: vs) =>
    '[' :: (newline (level + 1) ++ prettyChars (level + 1) v ++ prettyItems level vs)
  | object ((k, v) :: ms) =>
    '{' :: (newline (level + 1) ++ quotedText k ++ ": ".toList ++ prettyChars (level + 1) v ++
      prettyMembers level ms)
  | array [] => ['[', ']']
  | object [] => ['{', '}']
  | null => "null".toList
  | bool true => "true".toList
  | bool false => "false".toList
  | number literal => literal.toList
  | string t => quotedText t

def prettyItems (level : Nat) : List JsonValue → List Char
  | [] => newline level ++ [']']
  | v :: vs => ',' :: (newline (level + 1) ++ prettyChars (level + 1) v ++ prettyItems level vs)

def prettyMembers (level : Nat) : List (JsonText × JsonValue) → List Char
  | [] => newline level ++ ['}']
  | (k, v) :: ms =>
    ',' :: (newline (level + 1) ++ quotedText k ++ ": ".toList ++ prettyChars (level + 1) v ++
      prettyMembers level ms)

end

/-- The value on one line without blanks. -/
def compact (v : JsonValue) : String := String.ofList v.compactChars

/-- The value over several lines. -/
def pretty (v : JsonValue) : String := String.ofList (v.prettyChars 0)

end JsonValue

end LoadHarness
