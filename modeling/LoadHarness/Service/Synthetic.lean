import LoadHarness.Settings.Basic
import LoadHarness.Traffic.Context
import LoadHarness.Failure.Operation

/-!
# Simulated operations

The synthetic workload reads, writes and scans a store that is not there: an operation keeps the
worker's names up to date, takes a while, and fails as often as it is told to.
-/

namespace LoadHarness.Synthetic

def readTag : String := "READ"

def writeTag : String := "WRITE"

def scanTag : String := "SCAN"

/-- Shares of the operations when none are configured. -/
def weights : List Int64 := [60, 30, 10]

def tags : List String := [readTag, writeTag, scanTag]

/-- Names are given out by writes, and by a read that has nothing to read yet. -/
def touch (tag : String) (c : WorkerContext) : WorkerContext :=
  if tag = writeTag || (tag = readTag && c.counter = 0) then c.nextUrn.2 else c

/-- Scans take four times as long as anything else. -/
def stretch (tag : String) : Nat := if tag = scanTag then 4 else 1

/-- How long an operation takes, for a jitter from 0.5 to 1.5. -/
def delay (s : SyntheticSettings) (tag : String) (jitter : Float) : Duration :=
  (Quantity.toDuration (jitter * s.latency.toSeconds)).scale (stretch tag)

/-- Whether an operation fails, for a draw from 0 to below 1. -/
def fails (s : SyntheticSettings) (draw : Float) : Bool :=
  0.0 < s.failureRatio && draw < s.failureRatio

/-- How a simulated operation fails. -/
def failure : OperationError :=
  .backend "40001" "could not serialize access due to concurrent update"

/-- One operation: its outcome, the time it takes, and the worker's context after it. -/
def execute (s : SyntheticSettings) (tag : String) (jitter draw : Float) (c : WorkerContext) :
    Except OperationError Unit × Duration × WorkerContext :=
  (if fails s draw then .error failure else .ok (), delay s tag jitter, touch tag c)

end LoadHarness.Synthetic
