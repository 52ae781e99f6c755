import LoadHarness.Lifecycle.Pool
import LoadHarness.Telemetry.Filter

/-!
# The log

What pools have to say becomes lines of the log. A line is written when the first directive of the
filter that speaks of its target lets its level through.
-/

namespace LoadHarness.Telemetry

structure LogLine where
  level : Level
  target : String
  message : String
  fields : List (String × String)

/-- What the pools log as. -/
def poolTarget : String := "dash_engine"

namespace Level

/-- The levels by what they let through. -/
def rank : Level → Nat
  | off => 0
  | error => 1
  | warn => 2
  | info => 3
  | debug => 4
  | trace => 5

end Level

/-- The directive speaks of a target. -/
def Directive.concerns (d : Directive) (target : String) : Bool :=
  (d.target.map fun t => t.toList.isPrefixOf target.toList).getD true

/-- The filter lets a line through. -/
def Filter.passes (f : Filter) (l : LogLine) : Bool :=
  match f.directives.find? (·.concerns l.target) with
  | some d => l.level.rank ≤ d.level.rank
  | none => false

def LogLine.shown (l : LogLine) (withTarget : Bool) : String :=
  let level := l.level.name.toUpper
  let margin := "".pushn ' ' (5 - level.length)
  let target := if withTarget then l.target ++ ": " else ""
  let fields := String.join (l.fields.map fun (k, v) => " " ++ k ++ "=" ++ v)
  margin ++ level ++ " " ++ target ++ l.message ++ fields

/-- The lines for a report of one timer. -/
def LogLine.ofReport (r : ReportLine) : LogLine :=
  let names := ["mean_ms", "min_ms", "max_ms", "p50_ms", "p95_ms", "p99_ms"]
  let counts := [("tag", r.tag), ("count", r.count), ("failures", r.failures)]
  ⟨.info, poolTarget, ReportLine.title, counts ++ names.zip r.latencies⟩

/-- The lines for something a pool says. -/
def LogLine.ofNotice : Notice → List LogLine
  | .gaveUp worker tag e =>
    [⟨.warn, poolTarget, causes e, [("worker", toString worker), ("tag", tag)]⟩]
  | .failed worker e =>
    [⟨.error, poolTarget, Notice.faultTitle, [("worker", toString worker), ("error", causes e)]⟩]
  | .report timers => timers.report.map ofReport

end LoadHarness.Telemetry
