import LoadHarness.Proofs.Latency.Window
import Mathlib.Algebra.Order.BigOperators.Group.List
import Mathlib.Algebra.GroupWithZero.Nat

/-!
# Figures of the whole history

Count, mean, least and greatest latency cover every sample, also those that the ring has lost. To
record a sample is five updates, each of one part of the histogram, and workers that record at the
same time mix theirs. What four of the parts show depends only on which updates have been made and
not on their order, so the figures are those of the samples, whoever recorded them and when.
-/

namespace LoadHarness

namespace Histogram

/-! ## Single updates -/

/-- One of the updates that recording a sample consists of. -/
inductive Update where
  | keep (d : Duration)
  | add (us : UInt64)
  | count
  | lower (us : UInt64)
  | raise (us : UInt64)
deriving DecidableEq

/-- A histogram after an update. -/
def apply (h : Histogram) : Update → Histogram
  | .keep d => { h with recent := h.recent.push d }
  | .add us => { h with sum := h.sum + us }
  | .count => { h with count := h.count + 1 }
  | .lower us => { h with least := if us ≤ h.least then us else h.least }
  | .raise us => { h with greatest := if h.greatest ≤ us then us else h.greatest }

/-- The updates of a recording, in their order. -/
def updatesOf (d : Duration) : List Update :=
  [.keep d, .add d.micros, .count, .lower d.micros, .raise d.micros]

/-- What an update adds to the sum. -/
def Update.added : Update → Nat
  | .add us => us.toNat
  | _ => 0

/-- A sample is recorded by atomic updates, one after the other. -/
theorem record_eq (h : Histogram) (d : Duration) : h.record d = (updatesOf d).foldl apply h := rfl

/-- So is a list of samples. -/
theorem ofSamples_eq (ds : List Duration) :
    ofSamples ds = (ds.flatMap updatesOf).foldl apply empty := by
  rw [List.foldl_flatMap]
  rfl

/-- Of a word to start with and the words seen, the one that comes first. -/
structure First (before : UInt64 → UInt64 → Prop) (start : UInt64) (seen : UInt64 → Prop)
    (w : UInt64) : Prop where
  ahead : ∀ v, seen v → before w v
  own : w = start ∨ seen w

section First

variable {before : UInt64 → UInt64 → Prop} {start v w : UInt64} {seen : UInt64 → Prop}

/-- One more word is seen. -/
theorem First.see [DecidableRel before] (first : First before start seen w)
    (trans : ∀ {a b c}, before a b → before b c → before a c)
    (total : ∀ a b, before a b ∨ before b a) (v : UInt64) :
    First before start (fun x => seen x ∨ x = v) (if before v w then v else w) := by
  have self (x : UInt64) : before x x := (total x x).elim id id
  split
  · next sooner =>
    constructor
    · rintro x (old | rfl)
      · exact trans sooner (first.ahead x old)
      · exact self x
    · exact .inr (.inr rfl)
  · next later =>
    constructor
    · rintro x (old | rfl)
      · exact first.ahead x old
      · exact (total w x).resolve_right later
    · exact first.own.imp id .inl

/-- There is one first word, as long as none comes after the one to start with. -/
theorem First.unique (one : First before start seen v) (other : First before start seen w)
    (antisymm : ∀ {a b}, before a b → before b a → a = b) (last : ∀ x, before x start) : v = w := by
  have sooner {a b : UInt64} (first : First before start seen a) (own : b = start ∨ seen b) :
      before a b := by
    rcases own with rfl | old
    · exact last a
    · exact first.ahead b old
  exact antisymm (sooner one other.own) (sooner other one.own)

end First

/-- A histogram that shows these updates, whatever their order has been. -/
structure Shows (us : List Update) (h : Histogram) : Prop where
  sum : h.sum = .ofNat (us.map Update.added).sum
  count : h.count = .ofNat (us.count .count)
  least : First (· ≤ ·) empty.least (fun w => .lower w ∈ us) h.least
  greatest : First (fun v w => w ≤ v) empty.greatest (fun w => .raise w ∈ us) h.greatest

variable {us vs : List Update} {u : Update} {h k : Histogram} {ds : List Duration}

theorem shows_empty : Shows [] empty := by
  constructor
  · rfl
  · rfl
  · exact ⟨fun w member => absurd member List.not_mem_nil, .inl rfl⟩
  · exact ⟨fun w member => absurd member List.not_mem_nil, .inl rfl⟩

/-- The step: one more update. -/
theorem Shows.apply (shows : Shows us h) (u : Update) : Shows (us ++ [u]) (h.apply u) := by
  have added : ((us ++ [u]).map Update.added).sum = (us.map Update.added).sum + u.added := by simp
  constructor
  · rw [added, UInt64.ofNat_add, ← shows.sum]
    cases u with
    | add w => rw [Update.added, UInt64.ofNat_toNat]; rfl
    | _ => exact (UInt64.add_zero _).symm
  · rw [List.count_append, UInt64.ofNat_add, ← shows.count]
    cases u with
    | count => rfl
    | _ => exact (UInt64.add_zero _).symm
  · cases u with
    | lower w =>
      have step := shows.least.see UInt64.le_trans UInt64.le_total w
      simpa [Histogram.apply] using step
    | _ => simpa [Histogram.apply] using shows.least
  · cases u with
    | raise w =>
      have step := shows.greatest.see (fun ab bc => UInt64.le_trans bc ab)
        (fun a b => UInt64.le_total b a) w
      simpa [Histogram.apply] using step
    | _ => simpa [Histogram.apply] using shows.greatest

/-- The run: all updates. -/
theorem shows_foldl (us : List Update) : Shows us (us.foldl Histogram.apply empty) := by
  induction us using List.reverseRecOn with
  | nil => exact shows_empty
  | append_singleton us u ih =>
    rw [List.foldl_append]
    exact ih.apply u

/-- What a histogram shows does not depend on the order of the updates. -/
theorem Shows.of_perm (shows : Shows us h) (perm : us.Perm vs) : Shows vs h := by
  have lowered (w : UInt64) : .lower w ∈ us ↔ .lower w ∈ vs := perm.mem_iff
  have raised (w : UInt64) : .raise w ∈ us ↔ .raise w ∈ vs := perm.mem_iff
  constructor
  · rw [shows.sum, (perm.map Update.added).sum_eq]
  · rw [shows.count, perm.count_eq]
  · simpa only [lowered] using shows.least
  · simpa only [raised] using shows.greatest

theorem le_empty_least (w : UInt64) : w ≤ empty.least :=
  UInt64.le_iff_toNat_le.2 (Nat.le_of_lt_succ w.toNat_lt)

/-- Two histograms that show the same updates have the same figures. -/
theorem Shows.figures_eq (shows : Shows us h) (same : Shows us k) :
    h.count = k.count ∧ h.mean = k.mean ∧ h.min = k.min ∧ h.max = k.max := by
  have sum : h.sum = k.sum := shows.sum.trans same.sum.symm
  have count : h.count = k.count := shows.count.trans same.count.symm
  have least : h.least = k.least :=
    shows.least.unique same.least UInt64.le_antisymm le_empty_least
  have greatest : h.greatest = k.greatest :=
    shows.greatest.unique same.greatest (fun ab ba => UInt64.le_antisymm ba ab) fun x => UInt64.zero_le
  unfold mean min max
  rw [sum, count, least, greatest]
  exact ⟨rfl, rfl, rfl, rfl⟩

/-! ## All samples -/

/-- All samples together, each in whole microseconds. -/
def total (ds : List Duration) : Nat := (ds.map fun d => d.nanos / 1000).sum

/-- The histogram has counted these samples. -/
structure Totals (ds : List Duration) (h : Histogram) : Prop where
  sum : h.sum.toNat = total ds
  count : h.count = .ofNat ds.length
  least : First (· ≤ ·) empty.least (fun w => ∃ d ∈ ds, w.toNat = d.nanos / 1000) h.least
  greatest : First (fun v w => w ≤ v) empty.greatest (fun w => ∃ d ∈ ds, w.toNat = d.nanos / 1000)
    h.greatest

theorem micros_le_total {d : Duration} (member : d ∈ ds) : d.nanos / 1000 ≤ total ds :=
  List.le_sum_of_mem (List.mem_map_of_mem member)

/-- A sample that fits is counted in whole microseconds. -/
theorem toNat_micros (fit : total ds < UInt64.size) {d : Duration} (member : d ∈ ds) :
    d.micros.toNat = d.nanos / 1000 :=
  UInt64.toNat_ofNat_of_lt' ((micros_le_total member).trans_lt fit)

/-- The updates of a list of samples add up to its total. -/
theorem sum_added (fit : total ds < UInt64.size) :
    ((ds.flatMap updatesOf).map Update.added).sum = total ds := by
  have each : ds.map (fun d => d.micros.toNat) = ds.map fun d => d.nanos / 1000 :=
    List.map_congr_left fun d member => toNat_micros fit member
  rw [total, ← each]
  clear each fit
  induction ds with
  | nil => rfl
  | cons d ds ih =>
    rw [List.flatMap_cons, List.map_append, List.sum_append, ih, List.map_cons, List.sum_cons]
    simp [updatesOf, Update.added]

theorem count_updates (ds : List Duration) : (ds.flatMap updatesOf).count .count = ds.length := by
  induction ds with
  | nil => rfl
  | cons d ds ih =>
    rw [List.flatMap_cons, List.count_append, ih, List.length_cons, Nat.add_comm]
    rfl

/-- What is shown of the updates of recordings is shown of their samples. -/
theorem Shows.totals (shows : Shows (ds.flatMap updatesOf) h) (fit : total ds < UInt64.size) :
    Totals ds h := by
  have seen (f : UInt64 → Update) (one : ∀ d w, f w ∈ updatesOf d ↔ w = d.micros) (w : UInt64) :
      f w ∈ ds.flatMap updatesOf ↔ ∃ d ∈ ds, w.toNat = d.nanos / 1000 := by
    rw [List.mem_flatMap]
    refine exists_congr fun d => and_congr_right fun member => ?_
    rw [one, ← toNat_micros fit member, UInt64.toNat_inj]
  have lowered := seen .lower (by simp [updatesOf])
  have raised := seen .raise (by simp [updatesOf])
  constructor
  · rw [shows.sum, sum_added fit]
    exact UInt64.toNat_ofNat_of_lt' fit
  · rw [shows.count, count_updates]
  · simpa only [lowered] using shows.least
  · simpa only [raised] using shows.greatest

/-- A histogram shows the updates of the samples recorded in it. -/
theorem shows_ofSamples (ds : List Duration) : Shows (ds.flatMap updatesOf) (ofSamples ds) :=
  ofSamples_eq ds ▸ shows_foldl _

/-- Its figures are those of the samples. -/
theorem totals_ofSamples (fit : total ds < UInt64.size) : Totals ds (ofSamples ds) :=
  (shows_ofSamples ds).totals fit

/-- The mean is the total by the count, in whole microseconds. -/
theorem Totals.mean_nanos (totals : Totals ds h) :
    h.mean.nanos = total ds / h.count.toNat * 1000 := by
  unfold mean
  split
  · next none => rw [none, UInt64.toNat_zero, Nat.div_zero, Nat.zero_mul, Duration.nanos_zero]
  · rw [Duration.nanos_ofMicros, UInt64.toNat_div, totals.sum]

theorem max_nanos (h : Histogram) : h.max.nanos = h.greatest.toNat * 1000 :=
  Duration.nanos_ofMicros _

theorem min_eq (h : Histogram) :
    h.min = if h.least = empty.least then .zero else .ofMicros h.least := rfl

section Extremes

variable (totals : Totals ds h) (fit : total ds < UInt64.size)

include totals fit

/-- No sample is below the least. -/
theorem Totals.least_le {d : Duration} (member : d ∈ ds) : h.least.toNat ≤ d.nanos / 1000 := by
  rw [← toNat_micros fit member]
  exact UInt64.le_iff_toNat_le.1 (totals.least.ahead _ ⟨d, member, toNat_micros fit member⟩)

/-- None is above the greatest. -/
theorem Totals.le_greatest {d : Duration} (member : d ∈ ds) :
    d.nanos / 1000 ≤ h.greatest.toNat := by
  rw [← toNat_micros fit member]
  exact UInt64.le_iff_toNat_le.1 (totals.greatest.ahead _ ⟨d, member, toNat_micros fit member⟩)

/-- The greatest latency is that of the samples, in whole microseconds. -/
theorem Totals.max_nanos : h.max.nanos = (ds.map fun d => d.nanos / 1000).max?.getD 0 * 1000 := by
  rw [Histogram.max_nanos]
  congr 1
  cases ds with
  | nil =>
    have zero : h.greatest = empty.greatest := totals.greatest.own.resolve_right (by simp)
    rw [zero]
    rfl
  | cons first rest =>
    have greatest : ((first :: rest).map fun d => d.nanos / 1000).max? = some h.greatest.toNat := by
      apply List.max?_eq_some_iff.2
      constructor
      · -- the word to start with is only left when all samples are that short
        rcases totals.greatest.own with zero | ⟨d, member, same⟩
        · have short := totals.le_greatest fit (List.mem_cons_self : first ∈ first :: rest)
          rw [zero] at short ⊢
          exact List.mem_map.2 ⟨first, List.mem_cons_self, Nat.le_zero.1 short⟩
        · exact List.mem_map.2 ⟨d, member, same.symm⟩
      · intro n among
        obtain ⟨d, member, rfl⟩ := List.mem_map.1 among
        exact totals.le_greatest fit member
    rw [greatest, Option.getD_some]

omit fit in
/-- The word that stands for no sample is out of reach of a total below it. -/
theorem Totals.min_nanos (below : total ds < UInt64.size - 1) :
    h.min.nanos = (ds.map fun d => d.nanos / 1000).min?.getD 0 * 1000 := by
  have fit : total ds < UInt64.size := by omega
  have size : empty.least.toNat = UInt64.size - 1 := rfl
  cases ds with
  | nil =>
    have untaken : h.least = empty.least := totals.least.own.resolve_right (by simp)
    rw [min_eq, if_pos untaken, Duration.nanos_zero]
    rfl
  | cons first rest =>
    have among := totals.least_le fit (List.mem_cons_self : first ∈ first :: rest)
    have reached := micros_le_total (List.mem_cons_self : first ∈ first :: rest)
    have taken : h.least ≠ empty.least := by
      intro none
      rw [none, size] at among
      omega
    obtain ⟨d, member, same⟩ := totals.least.own.resolve_left taken
    have least : ((first :: rest).map fun d => d.nanos / 1000).min? = some h.least.toNat := by
      apply List.min?_eq_some_iff.2
      constructor
      · exact List.mem_map.2 ⟨d, member, same.symm⟩
      · intro n among
        obtain ⟨d, member, rfl⟩ := List.mem_map.1 among
        exact totals.least_le fit member
    rw [min_eq, if_neg taken, Duration.nanos_ofMicros, least, Option.getD_some]

end Extremes

/-- **The figures are those of the whole history.** Of samples whose microseconds together are below
the largest word, however many they are: the count is their number, as a word; the mean is their
total divided by the count; the least and the greatest figure are those of the shortest and of the
longest sample, all in whole microseconds, and zero when there are none. The four figures are the same
in whatever order the single updates of the recordings come, be they one worker's or several. -/
theorem figures_of_history (ds : List Duration) (below : total ds < UInt64.size - 1) :
    let h := ofSamples ds
    let micros := ds.map fun d => d.nanos / 1000
    (h.count = .ofNat ds.length ∧ (ds.length < UInt64.size → h.count.toNat = ds.length)) ∧
    h.mean.nanos = total ds / h.count.toNat * 1000 ∧
    h.min.nanos = micros.min?.getD 0 * 1000 ∧
    h.max.nanos = micros.max?.getD 0 * 1000 ∧
    ∀ us : List Update, us.Perm (ds.flatMap updatesOf) →
      let k := us.foldl Histogram.apply empty
      k.count = h.count ∧ k.mean = h.mean ∧ k.min = h.min ∧ k.max = h.max := by
  intro h micros
  have fit : total ds < UInt64.size := by omega
  have totals : Totals ds h := totals_ofSamples fit
  refine ⟨⟨totals.count, fun few => ?_⟩, totals.mean_nanos, totals.min_nanos below,
    totals.max_nanos fit, fun us perm => ?_⟩
  · rw [totals.count, UInt64.toNat_ofNat_of_lt' few]
  · have shows : Shows (ds.flatMap updatesOf) (us.foldl Histogram.apply empty) :=
      (shows_foldl us).of_perm perm
    exact shows.figures_eq (shows_ofSamples ds)

/-- Two workers record three samples between them, and each update of the one comes before that of
the other. -/
theorem figures_of_history_entangled :
    let ds := [Duration.ofNanos 1500, Duration.ofNanos 999, Duration.ofNanos 4000]
    let us : List Update :=
      [.keep (.ofNanos 999), .keep (.ofNanos 1500), .add 0, .add 1, .count, .count, .lower 0,
        .lower 1, .raise 0, .raise 1] ++ updatesOf (.ofNanos 4000)
    total ds < UInt64.size - 1 ∧ us.Perm (ds.flatMap updatesOf) ∧
      (ofSamples ds).count = 3 ∧ (ofSamples ds).mean.nanos = 1000 ∧
      (ofSamples ds).min.nanos = 0 ∧ (ofSamples ds).max.nanos = 4000 ∧
      (us.foldl Histogram.apply empty).mean = (ofSamples ds).mean := by
  intro ds us
  have below : total ds < UInt64.size - 1 := by decide
  have perm : us.Perm (ds.flatMap updatesOf) := by decide
  obtain ⟨⟨count, -⟩, mean, least, greatest, alike⟩ := figures_of_history ds below
  rw [count] at mean
  exact ⟨below, perm, count, mean.trans (by decide), least.trans (by decide),
    greatest.trans (by decide), (alike us perm).2.1⟩

end Histogram

end LoadHarness
