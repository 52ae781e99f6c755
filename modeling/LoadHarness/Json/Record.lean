import LoadHarness.Json.Value
import LoadHarness.Json.Number

/-!
# Records in JSON

A record is an object with named fields, or an array of the fields in their order. Members that the
record does not know are skipped; a known one must not come twice, and an array must not go on
after the last field.
-/

namespace LoadHarness.JsonValue

/-- The value of the only member with a name; nothing when it comes twice. -/
def member? (name : String) (members : List (JsonText × JsonValue)) :
    Option (Option JsonValue) :=
  match members.filter (·.1 == some name) with
  | [] => some none
  | [m] => some (some m.2)
  | _ => none

/-- The values of the named fields, none for a field that is missing. -/
def fields? (names : List String) : JsonValue → Option (List (Option JsonValue))
  | object members =>
    if members.all (·.1.isSome) then names.mapM (member? · members) else none
  | array items =>
    if items.length ≤ names.length then
      some (items.map some ++ List.replicate (names.length - items.length) none)
    else none
  | _ => none

/-- Reads a field that must be there. -/
def needed {α : Type} (read : JsonValue → Option α) : Option JsonValue → Option α
  | some v => read v
  | none => none

/-- Reads a field that has a value when it is missing. -/
def orElse {α : Type} (standard : α) (read : JsonValue → Option α) : Option JsonValue → Option α
  | some v => read v
  | none => some standard

/-- Reads a value that may be `null`. -/
def nullable {α : Type} (read : JsonValue → Option α) : JsonValue → Option (Option α)
  | null => some none
  | v => (read v).map some

def toText? : JsonValue → Option String
  | string t => t
  | _ => none

def toBool? : JsonValue → Option Bool
  | bool b => some b
  | _ => none

def toUInt64? : JsonValue → Option UInt64
  | number n => (JsonNumber.toNat? (UInt64.size - 1) n).map UInt64.ofNat
  | _ => none

def toUInt32? : JsonValue → Option UInt32
  | number n => (JsonNumber.toNat? (UInt32.size - 1) n).map UInt32.ofNat
  | _ => none

def toInt64? : JsonValue → Option Int64
  | number n => JsonNumber.toInt64? n
  | _ => none

def toFloat? : JsonValue → Option Float
  | number n => JsonNumber.toFloat? n
  | _ => none

def toList? {α : Type} (read : JsonValue → Option α) : JsonValue → Option (List α)
  | array items => items.mapM read
  | _ => none

end LoadHarness.JsonValue
