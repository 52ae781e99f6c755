import LoadHarness.Pacing.Quantity

/-!
# Latencies

Count, mean, least and greatest latency cover every sample ever recorded, in whole microseconds.
Percentiles cover the most recent samples, kept in full in a ring.
-/

namespace LoadHarness

/-- The most recent samples. Once the ring is full, `next` is the place of the oldest one. -/
structure Reservoir where
  samples : Array Duration
  next : Nat

namespace Reservoir

/-- How many samples are kept. -/
def size : Nat := 100000

def empty : Reservoir := ⟨#[], 0⟩

/-- Adds a sample, in place of the oldest when the ring is full. -/
def push (r : Reservoir) (d : Duration) : Reservoir :=
  if r.samples.size < size then { r with samples := r.samples.push d }
  else ⟨r.samples.setIfInBounds r.next d, (r.next + 1) % size⟩

/-- The samples from the shortest to the longest. -/
def sorted (r : Reservoir) : List Duration :=
  r.samples.toList.mergeSort fun a b => a.nanos ≤ b.nanos

end Reservoir

/-- The sample with the share `p` of the samples before it, zero when there are none. -/
def percentileOf {α : Type} [Quantity α] (sorted : List Duration) (p : α) : Duration :=
  let n := sorted.length
  let i := Quantity.whole (Quantity.mul (Quantity.ofNat n) p)
  sorted.getD (min i.toNat (n - 1)) .zero

/-- What is kept of the latencies of one operation type. -/
structure Histogram where
  recent : Reservoir
  /-- Total of the microseconds, modulo 2⁶⁴. -/
  sum : UInt64
  count : UInt64
  /-- Least microseconds; the largest word before the first sample. -/
  least : UInt64
  greatest : UInt64

structure Summary where
  count : UInt64
  mean : Duration
  min : Duration
  max : Duration
  p50 : Duration
  p95 : Duration
  p99 : Duration

namespace Histogram

def empty : Histogram := ⟨.empty, 0, 0, 18446744073709551615, 0⟩

instance : Inhabited Histogram := ⟨empty⟩

def record (h : Histogram) (d : Duration) : Histogram :=
  let us := d.micros
  { recent := h.recent.push d
    sum := h.sum + us
    count := h.count + 1
    least := if us ≤ h.least then us else h.least
    greatest := if h.greatest ≤ us then us else h.greatest }

def mean (h : Histogram) : Duration :=
  if h.count = 0 then .zero else .ofMicros (h.sum / h.count)

def min (h : Histogram) : Duration :=
  if h.least = 18446744073709551615 then .zero else .ofMicros h.least

def max (h : Histogram) : Duration := .ofMicros h.greatest

/-- The latency with the share `p` of the recent ones below it. -/
def percentile {α : Type} [Quantity α] (h : Histogram) (p : α) : Duration :=
  percentileOf h.recent.sorted p

def summary (h : Histogram) : Summary :=
  let sorted := h.recent.sorted
  { count := h.count
    mean := h.mean
    min := h.min
    max := h.max
    p50 := percentileOf sorted (0.50 : Float)
    p95 := percentileOf sorted (0.95 : Float)
    p99 := percentileOf sorted (0.99 : Float) }

end Histogram

end LoadHarness
