import LoadHarness.Service.Builtin
import LoadHarness.Text.Digits

/-!
# Addresses in rehearsal

A reader of addresses in place of the database driver's: a scheme, a colon, and usually two slashes,
an authority and a path. What the driver makes of parameters behind a question mark is left out.
-/

namespace LoadHarness.Rehearsal.Address

/-- Why an address cannot be read. -/
inductive Fault where
  /-- It does not begin with a scheme. -/
  | noScheme
  | badPort
  | noHost
  /-- The host holds a character that no host can hold. -/
  | badHost
deriving DecidableEq, Repr

def Fault.text : Fault → String
  | noScheme => "relative URL without a base"
  | badPort => "invalid port number"
  | noHost => "empty host"
  | badHost => "invalid international domain name"

/-- Characters of a scheme after its first. -/
def isSchemeChar (c : Char) : Bool := c.isAlphanum || c == '+' || c == '-' || c == '.'

/-- What follows the colon of the scheme. -/
def afterScheme? (cs : List Char) : Option (List Char) :=
  match cs with
  | [] => none
  | c :: _ =>
    if !c.isAlpha then none
    else match cs.dropWhile isSchemeChar with
      | ':' :: rest => some rest
      | _ => none

/-- The authority ends before the first of these. -/
def endsAuthority (c : Char) : Bool := c == '/' || c == '?' || c == '#'

/-- The part after the last at sign: host and port. -/
def hostAndPort (authority : List Char) : List Char :=
  (authority.reverse.takeWhile (· != '@')).reverse

/-- The port is empty or a number that fits sixteen bits. -/
def isPort (cs : List Char) : Bool :=
  cs.all Char.isDigit && Text.ofDigits 10 cs ≤ 65535

/-- Characters that no host holds. -/
def isForbidden (c : Char) : Bool :=
  c.toNat = 0 || [' ', '<', '>', '[', ']', '^', '|', '\\', ':'].contains c

/-- The first fault of a host with its port. -/
def hostFault? (cs : List Char) : Option Fault :=
  let (host, port) := match cs with
    | '[' :: _ =>
      let host := cs.takeWhile (· != ']')
      (['h'], cs.drop (host.length + 1))
    | _ => (cs.takeWhile (· != ':'), cs.dropWhile (· != ':'))
  if host.any isForbidden then some .badHost
  else match port with
    | [] => none
    | ':' :: digits =>
      if host.isEmpty then some .noHost else if isPort digits then none else some .badPort
    | _ => some .badPort

/-- Spaces and controls, which may stand at the ends. -/
def isPadding (c : Char) : Bool := c.toNat ≤ 0x20

/-- The first fault of an address. -/
def fault? (address : String) : Option Fault :=
  let cs := (address.toList.dropWhile isPadding).reverse.dropWhile isPadding
  match afterScheme? cs.reverse with
  | none => some .noScheme
  | some ('/' :: '/' :: rest) => hostFault? (hostAndPort (rest.takeWhile (!endsAuthority ·)))
  | some _ => none

/-- What the reader says of addresses. -/
def faults : AddressFaults := fun address =>
  (fault? address).map fun f => .configuration f.text

end LoadHarness.Rehearsal.Address
