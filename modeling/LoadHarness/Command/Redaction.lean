import LoadHarness.Text.Cut

/-!
# Passwords in addresses

An address is only shown with three stars in place of its password. The password begins after the
first colon behind the scheme and ends before the last at sign; an address without the two has no
password and is shown as it is.
-/

namespace LoadHarness.Command

/-- What stands for a password. -/
def mask : List Char := ['*', '*', '*']

/-- The mark between the scheme and the rest of an address. -/
def schemeMark : List Char := [':', '/', '/']

/-- An address without its password. -/
def redactedChars (cs : List Char) : List Char :=
  match Text.cutFirstText? schemeMark cs with
  | none => cs
  | some (scheme, rest) =>
    match Text.cutLast? '@' rest with
    | none => cs
    | some (login, host) =>
      match Text.cutFirst? ':' login with
      | none => cs
      | some (user, _) => scheme ++ schemeMark ++ user ++ ':' :: mask ++ '@' :: host

def redacted (address : String) : String := String.ofList (redactedChars address.toList)

end LoadHarness.Command
