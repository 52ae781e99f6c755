import LoadHarness.Proofs.Latency.Totals
import LoadHarness.Proofs.Decimal.Products

/-!
# The order of latencies

Least, greatest and mean latency are kept in whole microseconds, the percentiles are samples as they
were measured. So the figures stand in order but for one link: the greatest latency lacks what the
longest sample has beyond its last whole microsecond, and a percentile has it.
-/

namespace LoadHarness

open Binary64

theorem isNormal_half : IsNormal 0.50 4503599627370496 (-53) :=
  ⟨by decide, by decide, by decide, rfl⟩

theorem isNormal_ninety_five : IsNormal 0.95 8556839292003942 (-53) :=
  ⟨by decide, by decide, by decide, rfl⟩

theorem isNormal_ninety_nine : IsNormal 0.99 8917127262193582 (-53) :=
  ⟨by decide, by decide, by decide, rfl⟩

/-- Shares that are a little apart give places in the same order. -/
theorem rank_le_rank {p q : Float} {a b n : Nat} (hp : IsNormal p a (-53)) (hq : IsNormal q b (-53))
    (apart : a + 2 ^ 17 ≤ b) (positive : n ≠ 0) (small : n < 2 ^ 17) : rank p n ≤ rank q n := by
  obtain ⟨-, above⟩ := whole_share positive small hp
  obtain ⟨below, -⟩ := whole_share positive small hq
  have shares : n * a + 2 ^ 17 ≤ n * b :=
    calc n * a + 2 ^ 17 ≤ n * a + n * 2 ^ 17 :=
          Nat.add_le_add_left (Nat.le_mul_of_pos_left _ (Nat.pos_of_ne_zero positive)) _
      _ = n * (a + 2 ^ 17) := (Nat.mul_add _ _ _).symm
      _ ≤ n * b := Nat.mul_le_mul_left n apart
  exact min_le_min_right _ ((above.trans (Nat.div_le_div_right shares)).trans below)

/-- The figures stand in order: the percentiles between the least and the greatest latency, and the
mean as well. -/
structure Summary.Ordered (s : Summary) : Prop where
  min_le_p50 : s.min.nanos ≤ s.p50.nanos
  p50_le_p95 : s.p50.nanos ≤ s.p95.nanos
  p95_le_p99 : s.p95.nanos ≤ s.p99.nanos
  p99_le_max : s.p99.nanos ≤ s.max.nanos
  min_le_mean : s.min.nanos ≤ s.mean.nanos
  mean_le_max : s.mean.nanos ≤ s.max.nanos

/-! ## What a histogram has counted -/

namespace Histogram

/-- The histogram has counted these samples. -/
structure Counts (ds : List Duration) (h : Histogram) : Prop where
  recent : h.recent.samples.toList = ds
  sum : h.sum.toNat = total ds
  count : h.count.toNat = ds.length
  least_le : ∀ d ∈ ds, h.least.toNat ≤ d.nanos / 1000
  le_greatest : ∀ d ∈ ds, d.nanos / 1000 ≤ h.greatest.toNat
  greatest : h.greatest.toNat = 0 ∨ ∃ d ∈ ds, h.greatest.toNat = d.nanos / 1000

variable {ds : List Duration} {d : Duration} {h : Histogram}

/-- A ring that has not overflowed holds all samples in their order. -/
theorem counts_ofSamples (kept : ds.length ≤ Reservoir.size) (fit : total ds < UInt64.size) :
    Counts ds (ofSamples ds) := by
  have totals := totals_ofSamples fit
  have keeps := keeps_ofSamples ds
  have shows := keeps.shows
  rw [keeps.filling kept, List.rotate_zero, window_of_le kept] at shows
  have few : ds.length < UInt64.size := kept.trans_lt (by decide)
  constructor
  · exact shows
  · exact totals.sum
  · rw [totals.count, UInt64.toNat_ofNat_of_lt' few]
  · intro d member
    exact totals.least_le fit member
  · intro d member
    exact totals.le_greatest fit member
  · exact totals.greatest.own.imp (congrArg UInt64.toNat) id

/-! ## The figures -/

/-- The least latency that is shown is not above the least that was counted. -/
theorem min_nanos_le (h : Histogram) : h.min.nanos ≤ h.least.toNat * 1000 := by
  unfold min
  split
  · exact Nat.zero_le _
  · exact Nat.le_of_eq (Duration.nanos_ofMicros _)

/-- The mean in whole microseconds. -/
theorem Counts.mean_nanos (counts : Counts ds h) (nonempty : ds ≠ []) :
    h.mean.nanos = total ds / ds.length * 1000 := by
  have some : h.count ≠ 0 := by
    intro zero
    have none : ds.length = 0 := counts.count.symm.trans (congrArg UInt64.toNat zero)
    exact nonempty (List.length_eq_zero_iff.1 none)
  rw [mean, if_neg some, Duration.nanos_ofMicros, UInt64.toNat_div, counts.sum, counts.count]

/-- The least latency is not above the mean. -/
theorem Counts.min_le_mean (counts : Counts ds h) (nonempty : ds ≠ []) :
    h.min.nanos ≤ h.mean.nanos := by
  have each : ds.length * h.least.toNat ≤ total ds := by
    have all := List.card_nsmul_le_sum (ds.map fun d => d.nanos / 1000) h.least.toNat
      (List.forall_mem_map.2 counts.least_le)
    rwa [List.length_map, Nat.nsmul_eq_mul] at all
  rw [counts.mean_nanos nonempty]
  refine (min_nanos_le h).trans (Nat.mul_le_mul_right 1000 ?_)
  rw [Nat.le_div_iff_mul_le (List.length_pos_iff.2 nonempty), Nat.mul_comm]
  exact each

/-- The mean is not above the greatest. -/
theorem Counts.mean_le_max (counts : Counts ds h) (nonempty : ds ≠ []) :
    h.mean.nanos ≤ h.max.nanos := by
  have each : total ds ≤ ds.length * h.greatest.toNat := by
    have all := List.sum_le_card_nsmul (ds.map fun d => d.nanos / 1000) h.greatest.toNat
      (List.forall_mem_map.2 counts.le_greatest)
    rwa [List.length_map, Nat.nsmul_eq_mul] at all
  rw [counts.mean_nanos nonempty, max_nanos]
  exact Nat.mul_le_mul_right 1000 (Nat.div_le_of_le_mul each)

/-- The least figure is no longer than any sample. -/
theorem Counts.min_le (counts : Counts ds h) (member : d ∈ ds) : h.min.nanos ≤ d.nanos :=
  calc h.min.nanos ≤ h.least.toNat * 1000 := min_nanos_le h
    _ ≤ d.nanos / 1000 * 1000 := Nat.mul_le_mul_right 1000 (counts.least_le d member)
    _ ≤ d.nanos := Nat.div_mul_le_self _ _

/-- The greatest figure is the longest sample in whole microseconds. -/
theorem Counts.max_eq (counts : Counts ds h) (member : d ∈ ds)
    (longest : ∀ x ∈ ds, x.nanos ≤ d.nanos) : h.max.nanos = d.nanos / 1000 * 1000 := by
  have least := counts.le_greatest d member
  rw [max_nanos]
  rcases counts.greatest with zero | ⟨x, among, same⟩
  · omega
  · have most := Nat.div_le_div_right (c := 1000) (longest x among)
    omega

/-- As long as there is room the reservoir holds all samples. -/
theorem Counts.perm (counts : Counts ds h) : h.recent.sorted.Perm ds :=
  counts.recent ▸ h.recent.sorted_perm

theorem Counts.sorted_ne_nil (counts : Counts ds h) (nonempty : ds ≠ []) :
    h.recent.sorted ≠ [] := by
  intro none
  have perm := counts.perm
  rw [none] at perm
  exact nonempty perm.nil_eq.symm

/-- A percentile is a sample. -/
theorem Counts.percentile_mem (counts : Counts ds h) (nonempty : ds ≠ []) (p : Float) :
    h.percentile p ∈ ds :=
  counts.perm.mem_iff.1 (percentileOf_mem (counts.sorted_ne_nil nonempty) p)

/-- Percentiles for ranks that are apart are in order. -/
theorem Counts.percentile_mono (counts : Counts ds h) (nonempty : ds ≠ [])
    (kept : ds.length ≤ Reservoir.size) {p q : Float} {a b : Nat} (hp : IsNormal p a (-53))
    (hq : IsNormal q b (-53)) (apart : a + 2 ^ 17 ≤ b) :
    (h.percentile p).nanos ≤ (h.percentile q).nanos := by
  refine percentileOf_mono (counts.sorted_ne_nil nonempty) h.recent.pairwise_sorted ?_
  have size : Reservoir.size < 2 ^ 17 := by decide
  rw [counts.perm.length_eq]
  exact rank_le_rank hp hq apart (fun none => nonempty (List.length_eq_zero_iff.1 none))
    (kept.trans_lt size)

theorem exists_longest (nonempty : ds ≠ []) :
    ∃ longest ∈ ds, ∀ d ∈ ds, d.nanos ≤ longest.nanos := by
  have spans : ds.map (·.nanos) ≠ [] := fun none => nonempty (List.map_eq_nil_iff.1 none)
  obtain ⟨n, most⟩ := Option.isSome_iff_exists.1 (List.isSome_max?_of_ne_nil spans)
  obtain ⟨among, all⟩ := List.max?_eq_some_iff.1 most
  obtain ⟨longest, member, rfl⟩ := List.mem_map.1 among
  exact ⟨longest, member, fun d h => all _ (List.mem_map_of_mem h)⟩

/-- **The figures stand in order, but for the last microsecond.** Of samples that the ring keeps and
whose microseconds the counters hold, the percentiles are samples in order, none below the least
figure, and the mean lies between the least and the greatest. The greatest figure is the longest
sample cut to whole microseconds: the order breaks exactly where the highest percentile lies in the
same microsecond and is not cut. -/
theorem ordered_but_last_microsecond (nonempty : ds ≠ []) (kept : ds.length ≤ Reservoir.size)
    (fit : total ds < UInt64.size) :
    ∃ longest ∈ ds, (∀ d ∈ ds, d.nanos ≤ longest.nanos) ∧
      let s := (ofSamples ds).summary
      (s.p50 ∈ ds ∧ s.p95 ∈ ds ∧ s.p99 ∈ ds) ∧
      (s.min.nanos ≤ s.p50.nanos ∧ s.p50.nanos ≤ s.p95.nanos ∧ s.p95.nanos ≤ s.p99.nanos) ∧
      (s.min.nanos ≤ s.mean.nanos ∧ s.mean.nanos ≤ s.max.nanos) ∧
      s.max.nanos = longest.nanos / 1000 * 1000 ∧
      (s.Ordered ↔
        s.p99.nanos % 1000 = 0 ∨ s.p99.nanos / 1000 < longest.nanos / 1000) := by
  have counts := counts_ofSamples kept fit
  obtain ⟨longest, member, all⟩ := exists_longest nonempty
  refine ⟨longest, member, all, ?_⟩
  intro s
  have samples : s.p50 ∈ ds ∧ s.p95 ∈ ds ∧ s.p99 ∈ ds :=
    ⟨counts.percentile_mem nonempty _, counts.percentile_mem nonempty _,
      counts.percentile_mem nonempty _⟩
  have low : s.min.nanos ≤ s.p50.nanos := counts.min_le samples.1
  have middle : s.p50.nanos ≤ s.p95.nanos :=
    counts.percentile_mono nonempty kept isNormal_half isNormal_ninety_five (by decide)
  have high : s.p95.nanos ≤ s.p99.nanos :=
    counts.percentile_mono nonempty kept isNormal_ninety_five isNormal_ninety_nine (by decide)
  have least : s.min.nanos ≤ s.mean.nanos := counts.min_le_mean nonempty
  have most : s.mean.nanos ≤ s.max.nanos := counts.mean_le_max nonempty
  have cut : s.max.nanos = longest.nanos / 1000 * 1000 := counts.max_eq member all
  have below := all s.p99 samples.2.2
  refine ⟨samples, ⟨low, middle, high⟩, ⟨least, most⟩, cut, fun ordered => ?_, fun whole => ?_⟩
  · have last := ordered.p99_le_max
    omega
  · have last : s.p99.nanos ≤ s.max.nanos := by omega
    exact ⟨low, middle, high, last, least, most⟩

/-- Of two samples the longer one is a whole number of microseconds. -/
theorem ordered_but_last_microsecond_whole :
    let ds := [Duration.ofNanos 1500, Duration.ofNanos 2000]
    total ds < UInt64.size ∧ (ofSamples ds).summary.Ordered := by
  intro ds
  have fit : total ds < UInt64.size := by decide
  obtain ⟨longest, -, all, ⟨-, -, among⟩, -, -, -, ordered⟩ :=
    ordered_but_last_microsecond (List.cons_ne_nil _ _) (show ds.length ≤ Reservoir.size by decide)
      fit
  refine ⟨fit, ordered.2 ?_⟩
  have long : 2000 ≤ longest.nanos := all (Duration.ofNanos 2000) (by simp)
  rcases List.mem_pair.1 among with short | whole
  · rw [short]
    exact .inr (Nat.lt_of_lt_of_le (show 1500 / 1000 < 2 by decide)
      ((Nat.le_div_iff_mul_le (by decide)).2 long))
  · rw [whole]
    exact .inl rfl

/-- One sample is every percentile, and longer than the greatest latency. -/
theorem lone_sample_exceeds_greatest :
    let ds := [Duration.ofNanos 1500]
    ds ≠ [] ∧ ds.length ≤ Reservoir.size ∧ total ds < UInt64.size ∧
      (ofSamples ds).summary.p99.nanos = 1500 ∧ (ofSamples ds).summary.max.nanos = 1000 ∧
      ¬(ofSamples ds).summary.Ordered := by
  intro ds
  have nonempty : ds ≠ [] := List.cons_ne_nil _ _
  have kept : ds.length ≤ Reservoir.size := by decide
  have fit : total ds < UInt64.size := by decide
  have counts := counts_ofSamples kept fit
  have among : (ofSamples ds).summary.p99 ∈ ds := counts.percentile_mem nonempty _
  have high : (ofSamples ds).summary.p99.nanos = 1500 := by
    rw [List.mem_singleton.1 among]
    rfl
  have cut : (ofSamples ds).summary.max.nanos = 1000 :=
    counts.max_eq (List.mem_singleton_self _) fun x member => by rw [List.mem_singleton.1 member]
  refine ⟨nonempty, kept, fit, high, cut, fun ordered => ?_⟩
  have last := ordered.p99_le_max
  omega

end Histogram

end LoadHarness
