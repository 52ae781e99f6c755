import LoadHarness.Settings.Basic
import LoadHarness.Text.Blank
import LoadHarness.Text.Cut
import LoadHarness.Text.Digits
import LoadHarness.Decimal.Reading

/-!
# Settings by key

Conf files, environment and command line all name settings by text keys. `Key` is the closed list
of the keys that mean something, and `Key.assign` reads a value for one of them and changes the one
setting it stands for.
-/

namespace LoadHarness

/-- A key that stands for a setting. -/
inductive Key where
  | service
  | threads
  | rateLimit
  | rateBurst
  | mix
  | tags
  | maxAttempts
  | minBackoff
  | maxBackoff
  | slotTime
  | backoffCeiling
  | databaseUrl
  | skipInit
  | maxConnections
  | reportInterval
  | reporters
  | latency
  | failureRatio
deriving DecidableEq, Repr

namespace Key

def all : List Key :=
  [service, threads, rateLimit, rateBurst, mix, tags, maxAttempts, minBackoff, maxBackoff,
    slotTime, backoffCeiling, databaseUrl, skipInit, maxConnections, reportInterval, reporters,
    latency, failureRatio]

def name : Key → String
  | service => "runner.class"
  | threads => "dash.driver.threads"
  | rateLimit => "dash.driver.rates.limit"
  | rateBurst => "dash.driver.rates.burst"
  | mix => "dash.workload.mix"
  | tags => "dash.workload.tag"
  | maxAttempts => "dash.retry.max.attempts"
  | minBackoff => "dash.retry.min.backoff"
  | maxBackoff => "dash.retry.max.backoff"
  | slotTime => "dash.retry.slot.time"
  | backoffCeiling => "dash.retry.backoff.ceiling"
  | databaseUrl => "dash.db.url"
  | skipInit => "dash.db.skip.init"
  | maxConnections => "dash.db.max.connections"
  | reportInterval => "dash.metrics.service.interval"
  | reporters => "dash.metrics.service.reporters"
  | latency => "dash.synthetic.latency"
  | failureRatio => "dash.synthetic.failure.ratio"

/-- The key with a text, if it stands for a setting. -/
def ofName? (s : String) : Option Key := all.find? (·.name == s)

theorem mem_all (k : Key) : k ∈ all := by cases k <;> decide

theorem ofName?_name (k : Key) : ofName? k.name = some k := by cases k <;> decide +kernel

/-- The items of a list that is written with commas, blanks around them and empty ones left out. -/
def splitList (value : String) : List String :=
  ((Text.pieces ',' value.toList).map Text.trimmed).filterMap fun p =>
    if p.isEmpty then none else some (String.ofList p)

/-- A value that has been read, or the error that it is not of the kind. -/
def required {α : Type} (key value : String) (kind : ValueKind) (read : String → Option α) :
    Except ConfigError α :=
  match read value with
  | some a => .ok a
  | none => .error (.invalidValue key value kind)

/-- Every item read, or the error of the first that cannot be. -/
def requiredAll {α : Type} (key : String) (kind : ValueKind) (read : String → Option α) :
    List String → Except ConfigError (List α)
  | [] => .ok []
  | item :: rest => do
    let a ← required key item kind read
    let as ← requiredAll key kind read rest
    return a :: as

/-- Reads a value and changes the setting it is for. What has been changed when it fails stays. -/
def assign (k : Key) (value : String) : ExceptT ConfigError (StateM Settings) Unit :=
  let word64 := required k.name value .word64 Text.readUInt64
  let word32 := required k.name value .word32 Text.readUInt32
  match k with
  | service => modify fun s => { s with service := value }
  | threads => do
    let n ← required k.name value .count Text.readUInt64
    modify fun s => { s with driver.threads := n }
  | rateLimit => do
    let n ← word64
    modify fun s => { s with driver.rates.limit := n }
  | rateBurst => do
    let n ← word64
    modify fun s => { s with driver.rates.burst := some n }
  | mix => do
    let ws ← requiredAll k.name .signed Text.readInt64 (splitList value)
    modify fun s => { s with workload.mix := ws }
  | tags => modify fun s => { s with workload.tags := splitList value }
  | maxAttempts => do
    let n ← word32
    modify fun s => { s with retry.maxAttempts := n }
  | minBackoff => do
    let n ← word64
    modify fun s => { s with retry.minBackoff := .ofMillis n }
  | maxBackoff => do
    let n ← word64
    modify fun s => { s with retry.maxBackoff := .ofMillis n }
  | slotTime => do
    let n ← word64
    modify fun s => { s with retry.slotTime := .ofMillis n }
  | backoffCeiling => do
    let n ← word32
    modify fun s => { s with retry.backoffCeiling := n }
  | databaseUrl => modify fun s => { s with database.url := some value }
  | skipInit => do
    let b ← required k.name value .truth Text.readBool
    modify fun s => { s with database.skipInit := b }
  | maxConnections => do
    let n ← word32
    modify fun s => { s with database.maxConnections := some n }
  | reportInterval => do
    let n ← word64
    modify fun s => { s with metrics.interval := .ofSeconds n }
  | reporters =>
    modify fun s => { s with metrics.enabled := (splitList value).any (· == "console") }
  | latency => do
    let n ← word64
    modify fun s => { s with synthetic.latency := .ofMillis n }
  | failureRatio => do
    let x ← required k.name value .fraction Decimal.readFloat
    modify fun s => { s with synthetic.failureRatio := x }

end Key

/-- A key and its value, as they are written. -/
abbrev Property := String × String

namespace Settings

/-- The settings after one property, and its error if it cannot be read; a key that stands for no
setting changes nothing. -/
def applyOne (s : Settings) (p : Property) : Settings × Except ConfigError Unit :=
  match Key.ofName? p.1 with
  | some k => ((k.assign (Text.trim p.2)).run.run s).swap
  | none => (s, .ok ())

/-- Properties applied one after another up to the first that cannot be read, with its error. -/
def apply (s : Settings) : List Property → Settings × Except ConfigError Unit
  | [] => (s, .ok ())
  | p :: rest =>
    match s.applyOne p with
    | (s, .ok ()) => s.apply rest
    | (s, .error e) => (s, .error e)

/-- The standard settings with properties applied. -/
def ofProperties (ps : List Property) (processors : Nat := 1) : Except ConfigError Settings :=
  match (standard processors).apply ps with
  | (s, .ok ()) => .ok s
  | (_, .error e) => .error e

end Settings

end LoadHarness
