import LoadHarness.Rehearsal.Clock
import LoadHarness.Latency.Report

/-!
# Reports in rehearsal

A reporter in virtual time. A loop that is told to end does so at once, before a report that is due
at the same instant.
-/

namespace LoadHarness.Rehearsal

/-- A reporter, the timers it reports, and the lines written so far, the latest first. -/
structure ReportScene where
  now : Nat
  reporter : Reporter
  timers : Timers
  lines : List (Nat × ReportLine)

namespace ReportScene

def fresh (settings : ReportSettings) (tags : List String) : ReportScene :=
  ⟨0, .ofSettings settings, .ofTags tags, []⟩

def write (s : ReportScene) : ReportScene :=
  { s with lines := (s.timers.report.map (s.now, ·)).reverse ++ s.lines }

def start (s : ReportScene) : ReportScene := { s with reporter := s.reporter.start s.now }

/-- A stop ends the running loop, if there is one, and writes the last report. -/
def stop (s : ReportScene) : ReportScene :=
  match s.reporter.tell with
  | (some i, r) => { s with reporter := (r.finish i).getD r }.write
  | (none, r) => { s with reporter := r }

/-- The loops that write a report when they wake. -/
def awake (s : ReportScene) : Option Nat :=
  (List.range s.reporter.loops.length).find? fun i => (s.reporter.tick i s.now).isSome

/-- The earliest instant at which a loop wakes. -/
def nextWake (s : ReportScene) : Option Nat :=
  (s.reporter.loops.map fun l => if l.ended then none else some (wake l.due)).foldl earlier none

/-- Lets time pass up to an instant and writes every report that becomes due. -/
def sleepUntil (deadline : Nat) : Nat → ReportScene → ReportScene
  | 0, s => s
  | fuel + 1, s =>
    match s.awake with
    | some i =>
      let reporter := (s.reporter.tick i s.now).getD s.reporter
      sleepUntil deadline fuel { s with reporter := reporter }.write
    | none => match s.nextWake with
      | some t =>
        if t ≤ deadline then sleepUntil deadline fuel { s with now := t }
        else { s with now := deadline }
      | none => { s with now := deadline }

def sleep (s : ReportScene) (ms : Nat) : ReportScene := sleepUntil (s.now + ms * tick) patience s

end ReportScene

end LoadHarness.Rehearsal
