import LoadHarness.Latency.Histogram

/-!
# Timers by tag

Every tag has a timer: the latencies of the operations that ended well and a count of those given
up. Timers stand in the order of their tags, and a tag nobody announced gets one on first use.
-/

namespace LoadHarness

/-- Latencies and failures of one operation type. -/
structure Timer where
  latency : Histogram
  failures : UInt64

namespace Timer

def empty : Timer := ⟨.empty, 0⟩

instance : Inhabited Timer := ⟨empty⟩

def record (t : Timer) (d : Duration) : Timer := { t with latency := t.latency.record d }

def recordFailure (t : Timer) : Timer := { t with failures := t.failures + 1 }

/-- Operations per second over the time since the timer began. -/
def throughput (t : Timer) (elapsed : Duration) : Float :=
  let s := elapsed.toSeconds
  if s == 0.0 then 0.0 else t.latency.count.toFloat / s

end Timer

/-- Timers in the order of their tags. -/
structure Timers where
  entries : List (String × Timer)

namespace Timers

def empty : Timers := ⟨[]⟩

instance : Inhabited Timers := ⟨empty⟩

/-- Changes the timer of a tag, a new one if it has none. -/
def updateEntries (tag : String) (f : Timer → Timer) : List (String × Timer) → List (String × Timer)
  | [] => [(tag, f .empty)]
  | (k, t) :: rest =>
    if k = tag then (k, f t) :: rest
    else if tag < k then (tag, f .empty) :: (k, t) :: rest
    else (k, t) :: updateEntries tag f rest

def update (ts : Timers) (tag : String) (f : Timer → Timer) : Timers :=
  ⟨updateEntries tag f ts.entries⟩

def ofTags (tags : List String) : Timers :=
  tags.foldl (fun ts tag => ts.update tag id) empty

/-- The timer of a tag, an empty one if it has none. -/
def timer (ts : Timers) (tag : String) : Timer :=
  ((ts.entries.find? (·.1 == tag)).map (·.2)).getD .empty

def record (ts : Timers) (tag : String) (d : Duration) : Timers := ts.update tag (·.record d)

/-- An operation was given up. -/
def recordFailure (ts : Timers) (tag : String) : Timers := ts.update tag (·.recordFailure)

/-- Operations of all tags that ended well. -/
def total (ts : Timers) : UInt64 := ts.entries.foldl (fun n e => n + e.2.latency.count) 0

end Timers

end LoadHarness
