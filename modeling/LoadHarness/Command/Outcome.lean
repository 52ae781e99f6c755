import LoadHarness.Command.Arguments
import LoadHarness.Command.EnvironmentFile
import LoadHarness.Command.Redaction
import LoadHarness.Failure.Container
import LoadHarness.Service.Builtin
import LoadHarness.Settings.Encoded
import LoadHarness.Settings.Spec
import LoadHarness.Yaml.Printer

/-!
# What a command does

Settings are layered: the standard ones, the conf file, the environment, the properties, and for a
run its own options. A command then prints something and ends, or it runs a service with the
settings it has come to. Files and variables come in from outside.
-/

namespace LoadHarness.Command

/-- Why a command fails. -/
inductive CommandError where
  | load (test path : String) (e : ConfigError)
  | environment (e : ConfigError)
  | property (e : ConfigError)
  | run (service : String) (e : ContainerError)

instance : Explained CommandError where
  message
    | .load test path _ => "failed to load test '" ++ test ++ "' from " ++ path
    | .environment _ => "invalid environment override"
    | .property _ => "invalid -D override"
    | .run service _ => "service '" ++ service ++ "' did not run"
  sources
    | .load _ _ e => chain e
    | .environment e => chain e
    | .property e => chain e
    | .run _ e => chain e

/-- What a command leaves behind. -/
structure Outcome where
  exit : Nat
  stdout : String
  stderr : String
deriving DecidableEq, Repr

namespace Outcome

/-- It has printed something and is done. -/
def success (text : String) : Outcome := ⟨0, text, ""⟩

/-- A text with the lines after the first as far in as the first. -/
def hung (margin first text : String) : String :=
  let lines := (Text.pieces '\n' text.toList).map String.ofList
  first ++ ("\n" ++ margin).intercalate lines

/-- A number right-aligned in five places. -/
def rightAligned (n : Nat) : String :=
  let digits := toString n
  "".pushn ' ' (5 - digits.length) ++ digits

/-- The causes of a failure, numbered when there are several. -/
def causeLines : List String → List String
  | [] => []
  | [cause] => [hung "    " "    " cause]
  | causes => causes.mapIdx fun i cause => hung "       " (rightAligned i ++ ": ") cause

def failure (e : CommandError) : Outcome :=
  let causes := match Explained.sources e with
    | [] => ""
    | causes => "\n\nCaused by:\n" ++ "\n".intercalate (causeLines causes)
  ⟨1, "", "Error: " ++ message e ++ causes ++ "\n"⟩

/-- The arguments were not understood. -/
def misused (text : String) : Outcome := ⟨2, "", text⟩

end Outcome

/-! Settings -/

/-- The text of a file, or what the system says about it. -/
abbrev Files := String → Except String String

namespace Invocation

/-- The settings that the invocation comes to, before the options of a run. -/
def settings (i : Invocation) (env : Environment) (files : Files) (processors : Nat := 1) :
    Except CommandError Settings := do
  let base ← match i.conf with
    | none => pure (Settings.standard processors)
    | some path =>
      let spec : Except ConfigError Settings := do
        let text ← (files path).mapError (.io path)
        Settings.ofSpec env text i.test processors
      spec.mapError (.load i.test path)
  let changed ← match base.applyEnvironment env with
    | (s, .ok ()) => pure s
    | (_, .error e) => throw (.environment e)
  match changed.apply i.properties with
  | (s, .ok ()) => pure s
  | (_, .error e) => throw (.property e)

end Invocation

/-- The settings with the options of a run. -/
def RunFlags.apply (f : RunFlags) (s : Settings) : Settings :=
  { s with
    service := f.service.getD s.service
    driver.threads := f.threads.getD s.driver.threads
    driver.rates.limit := f.rate.getD s.driver.rates.limit
    driver.rates.burst := f.burst.or s.driver.rates.burst }

/-! Tables -/

/-- A line with a label and a value. -/
def fieldLine (label value : String) : String := padded 22 (label ++ ":") ++ " " ++ value ++ "\n"

def rowLine (cells : List (String × Nat)) : String :=
  "  ".intercalate (cells.map fun (s, width) => padded width s) ++ "\n"

/-- A value in a format for machines. -/
def encodedAs (json : JsonValue) (yaml : Yaml.Value) : OutputFormat → Option String
  | .text => none
  | .json => some (json.pretty ++ "\n")
  | .yaml => some yaml.render

/-- The settings as they are shown: without the password of the database. -/
def shownSettings (s : Settings) : Settings :=
  { s with database.url := s.database.url.map redacted }

/-- The settings in lines for people. -/
def settingsLines (s : Settings) : List String :=
  let weights := ", ".intercalate (s.workload.mix.map fun w => toString w.toInt)
  let mix := if s.workload.isSet then
      [fieldLine "mix" ("[" ++ weights ++ "]"),
        fieldLine "tags" (",".intercalate s.workload.tags)]
    else [fieldLine "mix" "service default"]
  let backoff := s.retry.minBackoff.text ++ ".." ++ s.retry.maxBackoff.text ++ " (slot " ++
    s.retry.slotTime.text ++ ")"
  [fieldLine "service" s.service,
    fieldLine "threads" (toString s.driver.threads.toNat),
    fieldLine "rate limit" (toString s.driver.rates.limit.toNat),
    fieldLine "burst" (toString s.driver.rates.capacity.toNat)] ++ mix ++
  [fieldLine "retry attempts" (toString s.retry.maxAttempts.toNat),
    fieldLine "retry backoff" backoff,
    fieldLine "database" (s.database.url.getD "-"),
    fieldLine "max connections" (toString s.maxConnections.toNat),
    fieldLine "console reporter"
      (if s.metrics.enabled then "every " ++ s.metrics.interval.text else "off")]

def showSettings (s : Settings) (format : OutputFormat) : String :=
  let shown := shownSettings s
  (encodedAs shown.encode shown.encode format).getD (String.join (settingsLines shown))

/-- The services that can be run, each with whether the settings name it. -/
def serviceRows (s : Settings) : List (String × Bool) :=
  (Registry.builtin (fun _ => none) fun _ => "").names.map fun name => (name, name == s.service)

def encodeServices {α : Type} [Encoding α] (rows : List (String × Bool)) : α :=
  Encoding.list (rows.map fun (name, selected) =>
    Encoding.record [("name", Encoding.text name), ("selected", Encoding.truth selected)])

def showServices (s : Settings) (format : OutputFormat) : String :=
  let rows := serviceRows s
  (encodedAs (encodeServices rows) (encodeServices rows) format).getD
    (rowLine [("NAME", 16), ("SELECTED", 8)] ++
      String.join (rows.map fun (name, selected) =>
        rowLine [(name, 16), (if selected then "*" else "", 8)]))

/-! The whole command -/

/-- What becomes of a command. -/
inductive Response where
  | done (o : Outcome)
  | run (s : Settings)

def versionText : String := "dash 0.2.0\n"

/-- What is said to arguments that cannot be understood. -/
def misuseText : String :=
  "error: the arguments were not understood\n\n" ++ usageLine "[OPTIONS] <COMMAND>" ++
    "\nFor more information, try '--help'.\n"

def Invocation.respond (i : Invocation) (env : Environment) (files : Files)
    (processors : Nat := 1) : Response :=
  match i.settings env files processors with
  | .error e => .done (.failure e)
  | .ok s =>
    match i.task with
    | .run flags => .run (flags.apply s)
    | .config => .done (.success (showSettings s i.output))
    | .services => .done (.success (showServices s i.output))

def Request.respond (r : Request) (env : Environment) (files : Files) (processors : Nat := 1) :
    Response :=
  match r with
  | .perform i => i.respond env files processors
  | .version => .done (.success versionText)
  | .help page => .done (.success (page.text env))
  | .misuse => .done (.misused misuseText)

end LoadHarness.Command
