import LoadHarness.Latency.Timers
import LoadHarness.Decimal.Layout

/-!
# Reports of the timers

A reporter writes a line per timer at fixed intervals and once more when it is stopped. Every start
begins a loop of its own; stopping tells that loop to end, waits until it has, and then writes the
last report. A reporter that is switched off, or has no interval, never begins a loop.
-/

namespace LoadHarness

/-- Whether and how often timers are reported. -/
structure ReportSettings where
  enabled : Bool
  interval : Duration
deriving DecidableEq

def ReportSettings.off : ReportSettings := ⟨false, .zero⟩

/-- What a report says about one timer. -/
structure ReportLine where
  tag : String
  /-- Operations that ended well. -/
  count : String
  failures : String
  /-- Mean, least, greatest, and the 50th, 95th and 99th percentile, in milliseconds. -/
  latencies : List String
deriving DecidableEq

namespace ReportLine

/-- What the lines of a report are called in the log. -/
def title : String := "Operation timer"

/-- Milliseconds with two places. -/
def millis (d : Duration) : String := Decimal.fixed 2 (d.toSeconds * 1000.0)

def ofTimer (tag : String) (t : Timer) : ReportLine :=
  let s := t.latency.summary
  { tag := tag
    count := toString s.count.toNat
    failures := toString t.failures.toNat
    latencies := [s.mean, s.min, s.max, s.p50, s.p95, s.p99].map millis }

end ReportLine

/-- One line per timer, in the order of the tags. -/
def Timers.report (ts : Timers) : List ReportLine :=
  ts.entries.map fun (tag, t) => .ofTimer tag t

/-- The reporting that goes on from a start to the stop that ends it. -/
structure ReportLoop where
  /-- The instant of the next report. -/
  due : Nat
  /-- It has been told to end. -/
  told : Bool
  ended : Bool
deriving DecidableEq, Repr, Inhabited

/-- A reporter with all the loops it has begun. -/
structure Reporter where
  settings : ReportSettings
  loops : List ReportLoop
  /-- The loop that the next stop is going to end. -/
  running : Option Nat
deriving DecidableEq

namespace Reporter

def ofSettings (s : ReportSettings) : Reporter := ⟨s, [], none⟩

/-- It reports at all. -/
def isOn (r : Reporter) : Bool := r.settings.enabled && !r.settings.interval.isZero

/-- Begins a loop, unless one is running or the reporter is off. -/
def start (r : Reporter) (now : Nat) : Reporter :=
  if r.isOn && r.running.isNone then
    { r with
      loops := r.loops ++ [⟨now + r.settings.interval.nanos, false, false⟩]
      running := some r.loops.length }
  else r

/-- Tells the running loop to end, if there is one. -/
def tell (r : Reporter) : Option Nat × Reporter :=
  match r.running with
  | none => (none, r)
  | some i =>
    (some i, { r with
      loops := r.loops.modify i fun l => { l with told := true }
      running := none })

/-- Loop `i` finds a report due and writes it; loops that missed some write them all. -/
def tick (r : Reporter) (i now : Nat) : Option Reporter :=
  match r.loops[i]? with
  | some l =>
    if l.ended || now < l.due then none
    else some { r with
      loops := r.loops.modify i fun l => { l with due := l.due + r.settings.interval.nanos } }
  | none => none

/-- Loop `i`, which has been told, ends. -/
def finish (r : Reporter) (i : Nat) : Option Reporter :=
  match r.loops[i]? with
  | some l =>
    if l.told && !l.ended then
      some { r with loops := r.loops.modify i fun l => { l with ended := true } }
    else none
  | none => none

def hasEnded (r : Reporter) (i : Nat) : Bool := (r.loops[i]?.map (·.ended)).getD true

def isRunning (r : Reporter) : Bool :=
  match r.running with
  | some i => !r.hasEnded i
  | none => false

end Reporter

end LoadHarness
