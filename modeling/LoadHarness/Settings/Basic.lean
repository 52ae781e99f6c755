import LoadHarness.Traffic.Mix
import LoadHarness.Retry.Config
import LoadHarness.Pacing.Rate
import LoadHarness.Latency.Report

/-!
# Settings of a run

Everything a run can be told, grouped by what it concerns, with a value for each setting that
nobody mentions. `Settings.validate` finds what would otherwise fail after the workers start.
-/

namespace LoadHarness

/-- Workers, and the rate they share. -/
structure DriverSettings where
  threads : UInt64
  rates : RateConfig

/-- Percentages and tags of the operations; both empty when the service is to use its own. -/
structure WorkloadSettings where
  mix : List Int64
  tags : List String

namespace WorkloadSettings

def isSet (w : WorkloadSettings) : Bool := !w.mix.isEmpty || !w.tags.isEmpty

/-- The configured mix, or the given one when none is configured. -/
def mixOr (w : WorkloadSettings) (weights : List Int64) (tags : List String) :
    Except MixError Mix :=
  if w.isSet then Mix.ofWeights w.mix w.tags else Mix.ofWeights weights tags

end WorkloadSettings

/-- Where the database is and how it is used. -/
structure DatabaseSettings where
  url : Option String
  /-- Leave out the check when the service is created. -/
  skipInit : Bool
  /-- Size of the connection pool; the number of workers when it is not set. -/
  maxConnections : Option UInt32

/-- What the simulated operations do. -/
structure SyntheticSettings where
  latency : Duration
  /-- Share of the attempts that fail, from 0 to 1. -/
  failureRatio : Float

structure Settings where
  service : String
  driver : DriverSettings
  workload : WorkloadSettings
  retry : RetryConfig
  metrics : ReportSettings
  database : DatabaseSettings
  synthetic : SyntheticSettings

/-- The kinds of values a setting can have. -/
inductive ValueKind where
  | count
  | word64
  | word32
  | signed
  | truth
  | fraction
deriving DecidableEq, Repr

/-- What error messages call the kind. -/
def ValueKind.name : ValueKind → String
  | count => "usize"
  | word64 => "u64"
  | word32 => "u32"
  | signed => "i64"
  | truth => "bool"
  | fraction => "f64"

/-- Why settings cannot be loaded or used. -/
inductive ConfigError where
  /-- The conf file cannot be read; the text is the system's. -/
  | io (path text : String)
  /-- The conf file is not well formed; the text says where. -/
  | malformed (text : String)
  | unknownTest (name : String)
  | invalidValue (key value : String) (expected : ValueKind)
  | mix (e : MixError)
  | limiter (e : LimiterError)
  | invalid (text : String)
deriving DecidableEq, Repr

instance : Explained ConfigError where
  message
    | .io path _ => "failed to read " ++ path
    | .malformed _ => "invalid conf file"
    | .unknownTest name => "test spec (" ++ name ++ ") does not exist in the conf file"
    | .invalidValue key value expected =>
      "the " ++ key ++ " property (" ++ value ++ ") is not " ++ expected.name
    | .mix _ => "invalid workload mix"
    | .limiter _ => "invalid rate limits"
    | .invalid text => text
  sources
    | .io _ text => [text]
    | .malformed text => [text]
    | .mix e => chain e
    | .limiter e => chain e
    | _ => []

namespace Settings

/-- Workers when nothing else is said: four for each processor, of which one is counted on where
the system does not tell. -/
def standardThreads (processors : Nat := 1) : UInt64 := .ofNat (processors * 4)

/-- The settings when nothing is said. -/
def standard (processors : Nat := 1) : Settings where
  service := "synthetic"
  driver := ⟨standardThreads processors, .standard⟩
  workload := ⟨[], []⟩
  retry := .exponential
  metrics := ⟨true, .ofSeconds 5⟩
  database := ⟨none, false, none⟩
  synthetic := ⟨.ofMillis 1, 0.0⟩

instance : Inhabited Settings := ⟨standard⟩

/-- Size of the connection pool. -/
def maxConnections (s : Settings) : UInt32 :=
  s.database.maxConnections.getD (UInt32.ofNat (min s.driver.threads.toNat (UInt32.size - 1)))

/-- The ratio lies between nothing and everything. -/
def ratioInRange (x : Float) : Bool := 0.0 ≤ x && x ≤ 1.0

/-- The first fault of the settings, service and workers first. -/
def validate (s : Settings) : Except ConfigError Unit := do
  if s.service.isEmpty then throw (.invalid "no service named")
  if s.driver.threads = 0 then
    throw (.invalid "dash.driver.threads must be greater than zero")
  s.driver.rates.validate.mapError .limiter
  if s.workload.isSet then
    discard ((Mix.ofWeights s.workload.mix s.workload.tags).mapError .mix)
  if s.retry.maxAttempts = 0 then
    throw (.invalid "dash.retry.max.attempts must be at least 1")
  if s.retry.maxBackoff.nanos < s.retry.minBackoff.nanos then
    throw (.invalid "dash.retry.min.backoff exceeds dash.retry.max.backoff")
  if !ratioInRange s.synthetic.failureRatio then
    throw (.invalid "dash.synthetic.failure.ratio must be between 0 and 1")

end Settings

end LoadHarness
