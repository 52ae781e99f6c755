import LoadHarness.Settings.Basic
import LoadHarness.Json.Record
import LoadHarness.Json.Reader

/-!
# Settings as data

Each group of settings is a record, written alike in every format and read back from JSON.
Durations are whole milliseconds, the report interval is whole seconds. What may be left out takes
its standard value; retry and report settings are given in full or not at all.
-/

namespace LoadHarness

open JsonValue (needed orElse nullable fields?)
open Encoding (record text truth whole real list optional)

variable {α : Type} [Encoding α]

namespace RateConfig

def encode (c : RateConfig) : α :=
  record [("limit", whole c.limit.toNat), ("burst", optional (fun n => whole n.toNat) c.burst)]

def ofJson? (v : JsonValue) : Option RateConfig := do
  match ← fields? ["limit", "burst"] v with
  | [limit, burst] =>
    return ⟨← needed JsonValue.toUInt64? limit,
      ← orElse none (nullable JsonValue.toUInt64?) burst⟩
  | _ => none

end RateConfig

namespace RetryConfig

def encode (c : RetryConfig) : α :=
  record [("max_attempts", whole c.maxAttempts.toNat),
    ("min_backoff", whole c.minBackoff.millis.toNat),
    ("max_backoff", whole c.maxBackoff.millis.toNat),
    ("slot_time", whole c.slotTime.millis.toNat),
    ("backoff_ceiling", whole c.backoffCeiling.toNat)]

/-- A duration from a field with milliseconds. -/
def millisField (f : Option JsonValue) : Option Duration :=
  (needed JsonValue.toUInt64? f).map .ofMillis

def ofJson? (v : JsonValue) : Option RetryConfig := do
  let names := ["max_attempts", "min_backoff", "max_backoff", "slot_time", "backoff_ceiling"]
  match ← fields? names v with
  | [attempts, low, high, slot, ceiling] =>
    return ⟨← needed JsonValue.toUInt32? attempts, ← millisField low, ← millisField high,
      ← millisField slot, ← needed JsonValue.toUInt32? ceiling⟩
  | _ => none

end RetryConfig

namespace ReportSettings

def encode (r : ReportSettings) : α :=
  record [("enabled", truth r.enabled), ("interval", whole r.interval.seconds.toNat)]

def ofJson? (v : JsonValue) : Option ReportSettings := do
  match ← fields? ["enabled", "interval"] v with
  | [enabled, interval] =>
    return ⟨← needed JsonValue.toBool? enabled,
      .ofSeconds (← needed JsonValue.toUInt64? interval)⟩
  | _ => none

end ReportSettings

namespace SyntheticSettings

def standard : SyntheticSettings := Settings.standard.synthetic

def encode (s : SyntheticSettings) : α :=
  record [("latency", whole s.latency.millis.toNat), ("failure_ratio", real s.failureRatio)]

def ofJson? (v : JsonValue) : Option SyntheticSettings := do
  match ← fields? ["latency", "failure_ratio"] v with
  | [latency, ratio] =>
    return ⟨← orElse standard.latency (fun v => (JsonValue.toUInt64? v).map .ofMillis) latency,
      ← orElse standard.failureRatio JsonValue.toFloat? ratio⟩
  | _ => none

end SyntheticSettings

namespace DriverSettings

def encode (d : DriverSettings) : α :=
  record [("threads", whole d.threads.toNat), ("rates", d.rates.encode)]

def ofJson? (v : JsonValue) (processors : Nat := 1) : Option DriverSettings := do
  match ← fields? ["threads", "rates"] v with
  | [threads, rates] =>
    return ⟨← orElse (Settings.standardThreads processors) JsonValue.toUInt64? threads,
      ← orElse .standard RateConfig.ofJson? rates⟩
  | _ => none

end DriverSettings

namespace WorkloadSettings

def encode (w : WorkloadSettings) : α :=
  record [("mix", list (w.mix.map fun n => whole n.toInt)), ("tags", list (w.tags.map text))]

def ofJson? (v : JsonValue) : Option WorkloadSettings := do
  match ← fields? ["mix", "tags"] v with
  | [mix, tags] =>
    return ⟨← orElse [] (JsonValue.toList? JsonValue.toInt64?) mix,
      ← orElse [] (JsonValue.toList? JsonValue.toText?) tags⟩
  | _ => none

end WorkloadSettings

namespace DatabaseSettings

def encode (d : DatabaseSettings) : α :=
  record [("url", optional text d.url), ("skip_init", truth d.skipInit),
    ("max_connections", optional (fun n => whole n.toNat) d.maxConnections)]

def ofJson? (v : JsonValue) : Option DatabaseSettings := do
  match ← fields? ["url", "skip_init", "max_connections"] v with
  | [url, skipInit, connections] =>
    return ⟨← orElse none (nullable JsonValue.toText?) url,
      ← orElse false JsonValue.toBool? skipInit,
      ← orElse none (nullable JsonValue.toUInt32?) connections⟩
  | _ => none

end DatabaseSettings

namespace Settings

def encode (s : Settings) : α :=
  record [("service", text s.service), ("driver", s.driver.encode),
    ("workload", s.workload.encode), ("retry", s.retry.encode), ("metrics", s.metrics.encode),
    ("database", s.database.encode), ("synthetic", s.synthetic.encode)]

def ofJson? (v : JsonValue) (processors : Nat := 1) : Option Settings := do
  let standard := standard processors
  match ← fields? ["service", "driver", "workload", "retry", "metrics", "database",
    "synthetic"] v with
  | [service, driver, workload, retry, metrics, database, synthetic] =>
    return ⟨← orElse standard.service JsonValue.toText? service,
      ← orElse standard.driver (DriverSettings.ofJson? · processors) driver,
      ← orElse standard.workload WorkloadSettings.ofJson? workload,
      ← orElse standard.retry RetryConfig.ofJson? retry,
      ← orElse standard.metrics ReportSettings.ofJson? metrics,
      ← orElse standard.database DatabaseSettings.ofJson? database,
      ← orElse standard.synthetic SyntheticSettings.ofJson? synthetic⟩
  | _ => none

/-- The settings in a JSON text. -/
def ofJsonText? (s : String) (processors : Nat := 1) : Option Settings :=
  (JsonValue.parse? s).bind (ofJson? · processors)

end Settings

end LoadHarness
