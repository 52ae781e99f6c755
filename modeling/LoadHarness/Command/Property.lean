import LoadHarness.Settings.Property
import LoadHarness.Text.Cut
import LoadHarness.Text.Blank

/-!
# Properties on the command line

A property is written as its key, an equals sign and its value. The key loses the blanks around it,
the value is kept as it is.
-/

namespace LoadHarness.Command

/-- Why a text is no property. -/
inductive PropertyError where
  | noEquals (raw : String)
  | emptyKey (raw : String)
deriving DecidableEq, Repr

def PropertyError.text : PropertyError → String
  | noEquals raw => "expected KEY=VALUE, got '" ++ raw ++ "'"
  | emptyKey raw => "empty key in '" ++ raw ++ "'"

def readProperty (raw : String) : Except PropertyError Property :=
  match Text.cutFirst? '=' raw.toList with
  | none => .error (.noEquals raw)
  | some (key, value) =>
    let key := Text.trimmed key
    if key.isEmpty then .error (.emptyKey raw)
    else .ok (String.ofList key, String.ofList value)

end LoadHarness.Command
