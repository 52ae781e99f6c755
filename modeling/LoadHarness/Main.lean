import LoadHarness.Command.Outcome
import LoadHarness.Rehearsal.Improvisation
import LoadHarness.Telemetry.Journal

/-!
# The program

Reads the environment and the files that a request names, does what it asks for, and runs a service
in real time until it is interrupted.
-/

namespace LoadHarness.Program

/-- What the system says about a file that cannot be read. -/
def systemText : IO.Error → String
  | .noFileOrDirectory _ _ _ => "No such file or directory (os error 2)"
  | .permissionDenied _ _ _ => "Permission denied (os error 13)"
  | .inappropriateType _ _ _ => "Is a directory (os error 21)"
  | e => toString e

def readText (path : String) : IO (Except String String) := do
  try
    let bytes ← IO.FS.readBinFile path
    match String.fromUTF8? bytes with
    | some text => return .ok text
    | none => return .error "stream did not contain valid UTF-8"
  catch e => return .error (systemText e)

def readEnvironment : IO Environment := do
  match ← readText "/proc/self/environ" with
  | .error _ => return .empty
  | .ok text =>
    let pair (cs : List Char) : Option (String × String) :=
      (Text.cutFirst? '=' cs).map fun (name, value) => (String.ofList name, String.ofList value)
    return .ofList ((Text.pieces (Char.ofNat 0) text.toList).filterMap pair)

/-- How many processors this process may use, or one if the system does not tell. -/
def readProcessors : IO Nat := do
  match ← readText "/proc/self/status" with
  | .error _ => return 1
  | .ok text =>
    let line := (Text.pieces '\n' text.toList).findSome? (Text.after? "Cpus_allowed:".toList)
    let mask := Text.ofDigits 16 ((line.getD []).filter (Text.isDigitIn 16))
    return max 1 ((Nat.toDigits 2 mask).count '1')

/-- How many directories are searched for an environment file. -/
def ancestors : Nat := 64

/-- The environment file here or in the nearest directory above. -/
def readEnvironmentFile : IO (Option String) := do
  let mut path := ".env"
  for _ in [0:ancestors] do
    match ← readText path with
    | .ok text => return some text
    | .error _ => path := "../" ++ path
  return none

/-- The file that a request names, read beforehand. -/
def readFiles : Command.Request → IO Command.Files
  | .perform { conf := some path, .. } => do
    let text ← readText path
    return fun _ => text
  | _ => return fun path => .error path

/-- Prints an outcome and gives its exit code. -/
def finish (o : Command.Outcome) : IO UInt32 := do
  IO.print o.stdout
  IO.eprint o.stderr
  return o.exit.toUInt32

/-- A word that cannot be foreseen. -/
def randomWord : IO UInt64 := do
  let bytes ← IO.getRandomBytes 8
  return bytes.foldl (fun w b => w <<< 8 ||| b.toUInt64) 0

open Rehearsal

/-- Milliseconds between two looks at the clock. -/
def pulse : Nat := 2

/-- Keeps a container going in real time until its start returns. -/
partial def follow (plan : ContainerPlan Actor) (log : Telemetry.LogSettings) (origin : Nat)
    (s : ContainerScene) : IO UInt32 := do
  let now ← IO.monoNanosNow
  let (notices, s) := (s.sleep plan ((now - origin) / tick - s.now / tick)).takeNotices
  for line in notices.flatMap Telemetry.LogLine.ofNotice do
    if log.effective.passes line then IO.println (line.shown log.withTarget)
  unless notices.isEmpty do (← IO.getStdout).flush
  match s.startResult? with
  | some (.ok ()) => return 0
  | some (.error e) => finish (.failure (.run plan.settings.service e))
  | none =>
    IO.sleep pulse.toUInt32
    follow plan log origin s

/-- Runs a service until the process is interrupted. -/
def run (settings : Settings) (log : Telemetry.LogSettings) : IO UInt32 := do
  let plan : ContainerPlan Actor := ⟨settings, Actor.improvisers (← randomWord)⟩
  follow plan log (← IO.monoNanosNow) (ContainerScene.fresh.ask plan [.start])

end LoadHarness.Program

open LoadHarness LoadHarness.Program in
def main (args : List String) : IO UInt32 := do
  let given ← readEnvironment
  let env := match ← readEnvironmentFile with
    | some text => Command.EnvironmentFile.extend given text
    | none => given
  let request := Command.Request.ofArguments env args
  match request.respond env (← readFiles request) (← readProcessors) with
  | .done o => finish o
  | .run settings => run settings (.ofEnvironment env)
