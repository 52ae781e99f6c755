import LoadHarness.Yaml.Node
import LoadHarness.Decimal.Reading
import LoadHarness.Decimal.Layout

/-!
# Values of a YAML document

A plain scalar is a null, a truth value or a number when it looks like one; all else is text. A
tag of the core schema demands its type, and a tag of an application keeps the value apart from
the plain ones.
-/

namespace LoadHarness.Yaml

/-- What a plain scalar looks like. -/
inductive Reading where
  | null
  | bool (b : Bool)
  | integer (n : Int)
  | float (x : Float)
  | text

/-- Digits after a zero: text, not a number. -/
def isZeroPadded (cs : List Char) : Bool :=
  let ds := match cs with
    | '-' :: r => r
    | '+' :: r => r
    | r => r
  match ds with
  | '0' :: d :: r => (d :: r).all Char.isDigit
  | _ => false

/-- The base a number names, and its digits. -/
def basePrefixed (cs : List Char) : Option (Nat × List Char) :=
  match cs with
  | '0' :: 'x' :: r => some (16, r)
  | '0' :: 'o' :: r => some (8, r)
  | '0' :: 'b' :: r => some (2, r)
  | _ => none

/-- A number without its sign: in a base it names, or decimal. -/
def readMagnitude (cs : List Char) : Option Nat :=
  match (basePrefixed cs).bind fun (base, ds) => Text.readNat base ds with
  | some n => some n
  | none => Text.readNat 10 cs

/-- Where the numbers end that 128 bits with a sign hold. -/
def signedLimit : Nat := Nat.pow 2 127

/-- A whole number that 128 bits hold. -/
def readInteger (cs : List Char) : Option Int :=
  match cs with
  | '-' :: r => do
    if (basePrefixed r).isNone && isZeroPadded r then none
    let n ← readMagnitude r
    if 0 < n ∧ n ≤ signedLimit then some (-(n : Int)) else if n = 0 then some 0 else none
  | _ => do
    let r := match cs with
      | '+' :: r => r
      | r => r
    if (basePrefixed r).isNone && isZeroPadded r then none
    let n ← readMagnitude r
    if n < 2 * signedLimit then some n else none

/-- A decimal that is finite, or one of the words for what has no digits. -/
def readDecimal (cs : List Char) : Option Float :=
  let s := String.ofList cs
  let unsigned := match cs with
    | '+' :: '+' :: _ => none
    | '+' :: '-' :: _ => none
    | '+' :: r => some r
    | r => some r
  match unsigned with
  | none => none
  | some r =>
    if [".inf", ".Inf", ".INF"].contains (String.ofList r) then some (1.0 / 0.0)
    else if ["-.inf", "-.Inf", "-.INF"].contains s then some (-1.0 / 0.0)
    else if [".nan", ".NaN", ".NAN"].contains s then some (0.0 / 0.0)
    else (Decimal.readFloat (String.ofList r)).filter fun x => (Binary64.decode x).isSome

/-- The words for nothing. -/
def isNullWord (s : String) : Bool := ["null", "Null", "NULL", "~"].contains s

/-- The words for truth values. -/
def readTruth (s : String) : Option Bool :=
  if ["true", "True", "TRUE"].contains s then some true
  else if ["false", "False", "FALSE"].contains s then some false
  else none

/-- What a plain scalar looks like: nothing, a truth value, a whole number, a decimal, or text. -/
def Reading.ofPlain (s : String) : Reading :=
  if s.isEmpty || isNullWord s then .null
  else match readTruth s with
    | some b => .bool b
    | none => match readInteger s.toList with
      | some n => .integer n
      | none =>
        if isZeroPadded s.toList then .text
        else match readDecimal s.toList with
          | some x => .float x
          | none => .text

/-- Doubles in YAML: as few digits as read back, and a point. -/
def floatFormat : Decimal.FloatFormat where
  maxPoint := 16
  minPoint := -5
  plus := false
  nan := ".nan"
  infinity := ".inf"
  minusInfinity := "-.inf"

inductive Value where
  | null
  | bool (b : Bool)
  | integer (n : Int)
  | float (x : Float)
  | string (s : String)
  | sequence (items : List Value)
  | mapping (entries : List (Value × Value))
  | tagged (tag : String) (v : Value)
deriving Inhabited

namespace Value

/-- Doubles that are the same number, or both none. -/
def sameFloat (x y : Float) : Bool := x == y || (x.isNaN && y.isNaN)

mutual

/-- The same value; the order of a mapping's entries does not count. -/
def same : Value → Value → Bool
  | null, null => true
  | bool a, bool b => a == b
  | integer a, integer b => a == b
  | float a, float b => sameFloat a b
  | string a, string b => a == b
  | sequence as, sequence bs => sameItems as bs
  | mapping as, mapping bs => as.length == bs.length && allFound as bs
  | tagged t a, tagged u b => t == u && same a b
  | _, _ => false

def sameItems : List Value → List Value → Bool
  | [], [] => true
  | a :: as, b :: bs => same a b && sameItems as bs
  | _, _ => false

/-- Every entry stands among the others. -/
def allFound : List (Value × Value) → List (Value × Value) → Bool
  | [], _ => true
  | (k, v) :: rest, bs => bs.any (fun (k', v') => same k k' && same v v') && allFound rest bs

end

/-- No key of the entries stands twice. -/
def keysDiffer : List (Value × Value) → Bool
  | [] => true
  | (k, _) :: rest => rest.all (fun (k', _) => !same k k') && keysDiffer rest

/-- The range of integers a value can hold. -/
def inRange (n : Int) : Bool := Int64.minValue.toInt ≤ n && n < UInt64.size

def fault {α : Type} (reason : String) : Except Fault α := .error ⟨reason, none⟩

def ofInteger (n : Int) : Except Fault Value :=
  if inRange n then .ok (.integer n) else fault "an integer is out of range"

def ofPlain (s : String) : Except Fault Value :=
  match Reading.ofPlain s with
  | .null => .ok .null
  | .bool b => .ok (.bool b)
  | .integer n => ofInteger n
  | .float x => .ok (.float x)
  | .text => .ok (.string s)

/-- The value of a scalar with a tag that no application owns: the core types are demanded, and
any other tag makes text. -/
def ofCoreTagged (tag s : String) : Except Fault Value :=
  if tag = "tag:yaml.org,2002:bool" then
    match readTruth s with
    | some b => .ok (.bool b)
    | none => fault "a truth value is expected"
  else if tag = "tag:yaml.org,2002:int" then
    match readInteger s.toList with
    | some n => ofInteger n
    | none => fault "an integer is expected"
  else if tag = "tag:yaml.org,2002:float" then
    match readDecimal s.toList with
    | some x => .ok (.float x)
    | none => fault "a number is expected"
  else if tag = "tag:yaml.org,2002:null" then
    if isNullWord s then .ok .null else fault "null is expected"
  else .ok (.string s)

/-- A value under the tag of its node: an application's tag begins with the single mark. -/
def underTag (tag : Option String) (v : Value) : Except Fault Value :=
  match tag.map String.toList with
  | some ('!' :: name) =>
    if name.isEmpty then fault "a tag is empty" else .ok (.tagged (String.ofList name) v)
  | _ => .ok v

def ofScalar (tag : Option String) (s : String) (plain : Bool) : Except Fault Value := do
  match tag with
  | none => if plain then ofPlain s else return .string s
  | some t =>
    if ['!'].isPrefixOf t.toList then
      underTag tag (← if plain then ofPlain s else pure (.string s))
    else ofCoreTagged t s

mutual

/-- The value of a node; keys must differ. -/
def ofNode : Node → Except Fault Value
  | .scalar tag s plain => ofScalar tag s plain
  | .sequence tag items => do underTag tag (.sequence (← ofItems items))
  | .mapping tag entries => do
    let es ← ofEntries entries
    if keysDiffer es then underTag tag (.mapping es) else fault "a key stands twice"

def ofItems : List Node → Except Fault (List Value)
  | [] => .ok []
  | n :: ns => do return (← ofNode n) :: (← ofItems ns)

def ofEntries : List (Node × Node) → Except Fault (List (Value × Value))
  | [] => .ok []
  | (k, v) :: rest => do
    let k ← ofNode k
    let v ← ofNode v
    return (k, v) :: (← ofEntries rest)

end

/-- The value in a text; an empty text holds nothing. -/
def ofText? (s : String) : Except Fault Value := do
  match ← Node.ofText? s with
  | some n => ofNode n
  | none => return .null

/-- The value without its tags. -/
def untagged : Value → Value
  | tagged _ v => v.untagged
  | v => v

/-- The entries of a mapping, whether or not it has a tag. -/
def entries? (v : Value) : Option (List (Value × Value)) :=
  match v.untagged with
  | mapping es => some es
  | _ => none

/-- What a mapping has under a text. -/
def get? (v : Value) (key : String) : Option Value :=
  v.entries?.bind fun es => (es.find? fun (k, _) => same k (.string key)).map (·.2)

/-- The text of a scalar; nothing for null, collections and values with a tag. -/
def scalarText? : Value → Option String
  | string s => some s
  | integer n => some (toString n)
  | float x => some (floatFormat.render x)
  | bool b => some (if b then "true" else "false")
  | _ => none

end Value

end LoadHarness.Yaml
