import LoadHarness.Settings.Environment
import LoadHarness.Text.Blank
import LoadHarness.Text.Cut
import LoadHarness.Text.Digits

/-!
# Log filters

A filter is a list of directives. A directive lets through what a target logs down to a level, or
all targets when it names none. Directives with longer targets come first, a later directive
replaces an earlier one for the same target, and a filter with a directive that cannot be read
gives way to the standard one.
-/

namespace LoadHarness.Telemetry

/-- What is logged: nothing, or all down to a level. -/
inductive Level where
  | off
  | error
  | warn
  | info
  | debug
  | trace
deriving DecidableEq, Repr

namespace Level

def name : Level → String
  | off => "off"
  | error => "error"
  | warn => "warn"
  | info => "info"
  | debug => "debug"
  | trace => "trace"

def all : List Level := [off, error, warn, info, debug, trace]

/-- The level with a name, in letters of either case, or with a number. -/
def ofText? (s : String) : Option Level :=
  match Text.readUnsigned 10 (UInt64.size - 1) s.toList with
  | some n => all[n]?
  | none => all.find? fun l => l.name == s.toLower

end Level

/-- A directive of a filter. -/
structure Directive where
  target : Option String
  level : Level
deriving DecidableEq, Repr

namespace Directive

/-- A letter or a digit; every character beyond ASCII that is not blank passes for one. -/
def isWordChar (c : Char) : Bool := c.isAlphanum || (128 ≤ c.toNat && !Text.isBlank c)

/-- Characters with which a directive can begin. -/
def canBegin (c : Char) : Bool := isWordChar c || c == '-' || c == ':' || c == '_'

/-- Brackets would restrict a directive to a span, which filters here cannot. -/
def isBracket (c : Char) : Bool := c == '[' || c == ']'

/-- A level, a target, or a target with a level; what has no level lets everything through. -/
def ofText? (s : String) : Option Directive :=
  let cs := Text.trimmed s.toList
  if !(cs.head?.map canBegin).getD false || cs.any isBracket then none
  else match Text.cutFirst? '=' cs with
    | none =>
      let word := String.ofList cs
      match Level.ofText? word with
      | some l => some ⟨none, l⟩
      | none => some ⟨some word, .trace⟩
    | some (target, level) =>
      if level.isEmpty then some ⟨some (String.ofList target), .trace⟩
      else (Level.ofText? (String.ofList level)).map fun l => ⟨some (String.ofList target), l⟩

def shown (d : Directive) : String :=
  match d.target with
  | some t => t ++ "=" ++ d.level.name
  | none => d.level.name

/-- Comes before: the longer target, of two as long the greater; no target comes last. -/
def before (a b : Directive) : Bool :=
  match a.target, b.target with
  | some s, some t =>
    t.utf8ByteSize < s.utf8ByteSize || (s.utf8ByteSize == t.utf8ByteSize && t < s)
  | some _, none => true
  | none, _ => false

end Directive

/-- Directives, the most specific first. -/
structure Filter where
  directives : List Directive
deriving DecidableEq, Repr

namespace Filter

/-- The directives with one more, in its place. -/
def insert (d : Directive) : List Directive → List Directive
  | [] => [d]
  | e :: rest =>
    if e.target = d.target then d :: rest
    else if d.before e then d :: e :: rest
    else e :: insert d rest

def ofDirectives (ds : List Directive) : Filter := ⟨ds.foldl (fun f d => insert d f) []⟩

/-- The filter in a text of directives with commas between them; an empty text lets nothing
through. -/
def ofText? (s : String) : Option Filter :=
  if s.isEmpty then some ⟨[]⟩
  else
    let directives := (Text.pieces ',' s.toList).mapM fun p => Directive.ofText? (String.ofList p)
    directives.map ofDirectives

def shown (f : Filter) : String := ",".intercalate (f.directives.map (·.shown))

/-- What is logged when nothing is said. -/
def standard : Filter :=
  ofDirectives [⟨some "dash_engine", .info⟩, ⟨some "dash", .info⟩]

end Filter

/-- How the log is written. -/
structure LogSettings where
  filter : Option String
  /-- Lines name their targets. -/
  withTarget : Bool
  coloured : Bool
deriving DecidableEq, Repr

namespace LogSettings

def standard : LogSettings := ⟨none, true, true⟩

/-- The settings that the environment asks for. -/
def ofEnvironment (env : Environment) : LogSettings :=
  ⟨(env "RUST_LOG").or (env "LOG_LEVEL"), true, (env "NO_COLOR").isNone⟩

/-- The filter in force. -/
def effective (s : LogSettings) : Filter := (s.filter.bind Filter.ofText?).getD .standard

end LogSettings

end LoadHarness.Telemetry
