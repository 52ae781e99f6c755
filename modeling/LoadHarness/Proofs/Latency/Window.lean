import LoadHarness.Latency.Histogram
import Mathlib.Data.List.Rotate
import Mathlib.Data.Rat.Floor

/-!
# The window of recent samples

Percentiles are read from a ring. While it fills, samples are appended and its place stays at the
start; once it is full, each sample takes the place of the oldest one and the place moves on. Both
are one thing when the ring is read from its place on: it always shows the window, which is the last
samples in the order in which they came. All that a percentile says follows from the window alone.
-/

namespace LoadHarness

/-! ## Percentiles -/

section Percentiles

variable {α : Type} [Quantity α] {p q : α} {sorted : List Duration}

/-- The place of the sample with the share `p` of `n` samples before it. -/
def rank (p : α) (n : Nat) : Nat :=
  min (Quantity.whole (Quantity.mul (Quantity.ofNat n) p)).toNat (n - 1)

/-- A rank is a position in the list. -/
theorem rank_lt (nonempty : sorted ≠ []) (p : α) : rank p sorted.length < sorted.length := by
  have := List.length_pos_iff.2 nonempty
  unfold rank
  omega

theorem percentileOf_eq (nonempty : sorted ≠ []) (p : α) :
    percentileOf sorted p = sorted.get ⟨rank p sorted.length, rank_lt nonempty p⟩ := by
  rw [percentileOf, List.getD_eq_getElem?_getD]
  exact congrArg (Option.getD · _) (List.getElem?_eq_getElem (rank_lt nonempty p))

/-- A percentile is one of the samples. -/
theorem percentileOf_mem (nonempty : sorted ≠ []) (p : α) : percentileOf sorted p ∈ sorted := by
  rw [percentileOf_eq nonempty]
  exact List.getElem_mem _

/-- Of two percentiles the one with the higher place is the longer. -/
theorem percentileOf_mono (nonempty : sorted ≠ [])
    (pairwise : sorted.Pairwise fun a b => a.nanos ≤ b.nanos)
    (places : rank p sorted.length ≤ rank q sorted.length) :
    (percentileOf sorted p).nanos ≤ (percentileOf sorted q).nanos := by
  rw [percentileOf_eq nonempty, percentileOf_eq nonempty]
  rcases Nat.lt_or_eq_of_le places with earlier | same
  · exact List.pairwise_iff_getElem.1 pairwise _ _ _ _ earlier
  · simp only [same, Nat.le_refl]

end Percentiles

/-- Exact shares give places in the same order. -/
theorem rank_le_rank_of_le {p q : Rat} (le : p ≤ q) (n : Nat) : rank p n ≤ rank q n := by
  have share : (n : Rat) * p ≤ (n : Rat) * q := mul_le_mul_of_nonneg_left le (Nat.cast_nonneg n)
  have whole : ((n : Rat) * p).floor.toNat ≤ ((n : Rat) * q).floor.toNat :=
    Int.toNat_le_toNat (Rat.floor_monotone share)
  have word (x : Rat) : (Quantity.whole x).toNat = min x.floor.toNat (UInt64.size - 1) := by
    apply UInt64.toNat_ofNat_of_lt'
    have : min x.floor.toNat (UInt64.size - 1) ≤ UInt64.size - 1 := Nat.min_le_right _ _
    have : 0 < UInt64.size := by decide
    omega
  unfold rank
  rw [word, word]
  simp only [Quantity.mul, Quantity.ofNat]
  omega

/-! ## The ring -/

/-- The last samples, as many as the ring has room for. -/
def window (ds : List Duration) : List Duration := ds.drop (ds.length - Reservoir.size)

/-- A window holds as many samples as there are, up to its size. -/
theorem length_window (ds : List Duration) :
    (window ds).length = min ds.length Reservoir.size := by
  rw [window, List.length_drop]
  omega

/-- As long as they fit it holds all of them. -/
theorem window_of_le {ds : List Duration} (room : ds.length ≤ Reservoir.size) : window ds = ds := by
  rw [window, Nat.sub_eq_zero_of_le room, List.drop_zero]

/-- A window that is full loses its oldest sample to a new one. -/
theorem window_concat {ds : List Duration} (full : Reservoir.size ≤ ds.length) (d : Duration) :
    window (ds ++ [d]) = (window ds).tail ++ [d] := by
  have later : (ds ++ [d]).length - Reservoir.size = ds.length - Reservoir.size + 1 := by
    rw [List.length_append, List.length_singleton]
    omega
  have inside : ds.length - Reservoir.size + 1 ≤ ds.length := by
    have : 0 < Reservoir.size := by decide
    omega
  rw [window, later, List.drop_append_of_le_length inside, window, List.tail_drop]

/-- Replacing the element at a place and moving the place on: what was read first is gone, and the
new element is read last. -/
theorem rotate_set {α : Type} {xs : List α} {k : Nat} (inside : k < xs.length) (x : α) :
    (xs.set k x).rotate (k + 1) = (xs.rotate k).tail ++ [x] := by
  have upto : (xs.set k x).take (k + 1) = xs.take k ++ [x] := by
    rw [List.take_add_one, List.take_set_of_le (Nat.le_refl k), List.getElem?_set_self inside]
    rfl
  have beyond : (xs.set k x).drop (k + 1) = xs.drop (k + 1) :=
    List.drop_set_of_lt (Nat.lt_succ_self k)
  rw [List.rotate_eq_drop_append_take (by rwa [List.length_set]), upto, beyond,
    List.rotate_eq_drop_append_take (Nat.le_of_lt inside), List.drop_eq_getElem_cons inside,
    List.cons_append, List.tail_cons, List.append_assoc]

namespace Reservoir

/-- A ring that has taken these samples: read from its place on, it shows their window. -/
structure Keeps (ds : List Duration) (r : Reservoir) : Prop where
  shows : r.samples.toList.rotate r.next = window ds
  next_lt : r.next < size
  /-- The place does not move before the ring overflows. -/
  filling : ds.length ≤ size → r.next = 0

variable {ds : List Duration} {d : Duration} {r s : Reservoir}

theorem keeps_empty : Keeps [] empty := by
  constructor
  · rfl
  · decide
  · intro
    rfl

/-- A reservoir has as many samples as the window. -/
theorem Keeps.size_eq (keeps : Keeps ds r) : r.samples.size = min ds.length size := by
  have length := congrArg List.length keeps.shows
  rwa [List.length_rotate, length_window, Array.length_toList] at length

/-- The step: one more sample. -/
theorem Keeps.push (keeps : Keeps ds r) (d : Duration) : Keeps (ds ++ [d]) (r.push d) := by
  have held := keeps.size_eq
  have longer : (ds ++ [d]).length = ds.length + 1 := by simp
  unfold Reservoir.push
  by_cases room : ds.length < size
  · rw [if_pos (by omega)]
    have start := keeps.filling (Nat.le_of_lt room)
    have shows := keeps.shows
    rw [start, List.rotate_zero, window_of_le (Nat.le_of_lt room)] at shows
    constructor
    · simp only [start, List.rotate_zero, Array.toList_push, shows]
      rw [window_of_le (by omega)]
    · exact keeps.next_lt
    · intro
      exact start
  · rw [if_neg (by omega)]
    have full : size ≤ ds.length := Nat.le_of_not_lt room
    have next := keeps.next_lt
    have length : r.samples.toList.length = size := by
      rw [Array.length_toList]
      omega
    constructor
    · -- the place wraps to the start exactly where reading on from it does
      have around : (r.next + 1) % size = (r.next + 1) % (r.samples.toList.set r.next d).length := by
        rw [List.length_set, length]
      dsimp only
      rw [Array.toList_setIfInBounds, around, List.rotate_mod, rotate_set (by omega), keeps.shows,
        window_concat full]
    · exact Nat.mod_lt _ (by decide)
    · intro short
      omega

/-- The run: all samples. -/
theorem keeps_foldl (ds : List Duration) : Keeps ds (ds.foldl Reservoir.push empty) := by
  induction ds using List.reverseRecOn with
  | nil => exact keeps_empty
  | append_singleton ds d ih =>
    rw [List.foldl_append]
    exact ih.push d

/-- The ring holds its window, in some order. -/
theorem Keeps.perm (keeps : Keeps ds r) : r.samples.toList.Perm (window ds) :=
  keeps.shows ▸ (List.rotate_perm r.samples.toList r.next).symm

/-- A full ring has the oldest sample of its window at its place. -/
theorem Keeps.oldest (keeps : Keeps ds r) (full : size ≤ ds.length) :
    r.samples[r.next]? = (window ds).head? := by
  have inside : r.next < r.samples.toList.length := by
    have next := keeps.next_lt
    have held := keeps.size_eq
    rw [Array.length_toList]
    omega
  rw [← keeps.shows, List.head?_rotate inside, Array.getElem?_toList]

theorem sorted_perm (r : Reservoir) : r.sorted.Perm r.samples.toList := List.mergeSort_perm _ _

theorem pairwise_sorted (r : Reservoir) : r.sorted.Pairwise fun a b => a.nanos ≤ b.nanos := by
  have pairwise : r.sorted.Pairwise fun a b => decide (a.nanos ≤ b.nanos) = true :=
    List.pairwise_mergeSort
      (fun a b c ab bc => decide_eq_true ((of_decide_eq_true ab).trans (of_decide_eq_true bc)))
      (fun a b => by simp [Nat.le_total]) _
  exact pairwise.imp of_decide_eq_true

/-- Rings with the same samples in another order are sorted alike. -/
theorem sorted_eq_of_perm (perm : r.samples.toList.Perm s.samples.toList) :
    r.sorted = s.sorted := by
  have both : r.sorted.Perm s.sorted := (r.sorted_perm.trans perm).trans s.sorted_perm.symm
  apply both.eq_of_pairwise _ r.pairwise_sorted s.pairwise_sorted
  intro a b _ _ ab ba
  exact Duration.ext_nanos (Nat.le_antisymm ab ba)

end Reservoir

namespace Histogram

/-- The histogram of some samples. -/
def ofSamples (ds : List Duration) : Histogram := ds.foldl record empty

/-- The ring of a histogram has taken all samples. -/
theorem keeps_ofSamples (ds : List Duration) : Reservoir.Keeps ds (ofSamples ds).recent := by
  have own : (ofSamples ds).recent = ds.foldl Reservoir.push .empty := by
    have each (h : Histogram) (d : Duration) : h.recent.push d = (h.record d).recent := rfl
    exact (List.foldl_hom Histogram.recent each).symm
  rw [own]
  exact Reservoir.keeps_foldl ds

variable {ds : List Duration}

/-- The sorted samples are those of the window. -/
theorem sorted_perm_window (ds : List Duration) : (ofSamples ds).recent.sorted.Perm (window ds) :=
  (Reservoir.sorted_perm _).trans (keeps_ofSamples ds).perm

theorem sorted_ne_nil (nonempty : ds ≠ []) : (ofSamples ds).recent.sorted ≠ [] := by
  intro none
  have length := (sorted_perm_window ds).length_eq
  have some := List.length_pos_iff.2 nonempty
  have room : 0 < Reservoir.size := by decide
  rw [none, length_window, List.length_nil] at length
  omega

/-- A percentile is a sample of the window. -/
theorem percentile_mem {α : Type} [Quantity α] (nonempty : ds ≠ []) (p : α) :
    (ofSamples ds).percentile p ∈ window ds :=
  (sorted_perm_window ds).mem_iff.1 (percentileOf_mem (sorted_ne_nil nonempty) p)

/-- Without samples every percentile is zero. -/
theorem percentile_nil {α : Type} [Quantity α] (p : α) :
    (ofSamples []).percentile p = .zero := by
  have none : (ofSamples []).recent.sorted = [] := (sorted_perm_window []).eq_nil
  rw [percentile, none, percentileOf, List.getD_nil]

/-- Percentiles depend on the window alone, and not on its order. -/
theorem percentile_eq_of_perm {α : Type} [Quantity α] {es : List Duration}
    (perm : (window es).Perm (window ds)) (p : α) :
    (ofSamples es).percentile p = (ofSamples ds).percentile p := by
  have samples := ((keeps_ofSamples es).perm.trans perm).trans (keeps_ofSamples ds).perm.symm
  rw [percentile, percentile, Reservoir.sorted_eq_of_perm samples]

/-- **Percentiles are those of the recent samples.** However many samples have been recorded: the
ring holds the last of them, as many as it has room for and in some order; its place is in range and,
once the ring is full, that of the oldest sample; every percentile is one of these samples, zero if
there are none, and stays what it is when they come in another order or after other samples; and of
two exact shares the larger one has the longer percentile. -/
theorem percentile_of_window (ds : List Duration) :
    let h := ofSamples ds
    (h.recent.samples.toList.Perm (window ds) ∧
      window ds <:+ ds ∧ (window ds).length = Min.min ds.length Reservoir.size) ∧
    (h.recent.next < Reservoir.size ∧
      (Reservoir.size ≤ ds.length →
        ∃ oldest newer, window ds = oldest :: newer ∧
          h.recent.samples[h.recent.next]? = some oldest)) ∧
    (∀ {α : Type} [Quantity α] (p : α),
      (ds = [] → h.percentile p = .zero) ∧ (ds ≠ [] → h.percentile p ∈ window ds) ∧
        ∀ es, (window es).Perm (window ds) → (ofSamples es).percentile p = h.percentile p) ∧
    ∀ p q : Rat, p ≤ q → (h.percentile p).nanos ≤ (h.percentile q).nanos := by
  intro h
  have keeps : Reservoir.Keeps ds h.recent := keeps_ofSamples ds
  refine ⟨⟨keeps.perm, List.drop_suffix _ ds, length_window ds⟩, ⟨keeps.next_lt, ?_⟩, ?_, ?_⟩
  · intro full
    have oldest := keeps.oldest full
    cases front : window ds with
    | nil =>
      have length := length_window ds
      rw [front, List.length_nil, Nat.min_eq_right full] at length
      cases length
    | cons d newer =>
      rw [front, List.head?_cons] at oldest
      exact ⟨d, newer, rfl, oldest⟩
  · intro α _ p
    refine ⟨?_, fun nonempty => percentile_mem nonempty p, fun es perm => ?_⟩
    · rintro rfl
      exact percentile_nil p
    · exact percentile_eq_of_perm perm p
  · intro p q le
    by_cases nonempty : ds = []
    · subst nonempty
      rw [show h.percentile p = .zero from percentile_nil p]
      exact Nat.zero_le _
    · exact percentileOf_mono (sorted_ne_nil nonempty) (Reservoir.pairwise_sorted _)
        (rank_le_rank_of_le le _)

/-- One long sample and as many short ones as the ring has room for: the long one is gone. -/
theorem percentile_of_window_overwritten :
    let short := List.replicate Reservoir.size (Duration.ofNanos 5)
    let ds := Duration.ofNanos 7 :: short
    Reservoir.size ≤ ds.length ∧
      (ofSamples ds).recent.samples[(ofSamples ds).recent.next]? = some (.ofNanos 5) ∧
      (ofSamples ds).percentile (1 : Rat) = .ofNanos 5 ∧
      (ofSamples short).percentile (1 : Rat) = .ofNanos 5 := by
  intro short ds
  have length : short.length = Reservoir.size := List.length_replicate
  have full : Reservoir.size ≤ ds.length := by
    rw [List.length_cons]
    omega
  have alone : window short = short := window_of_le (Nat.le_of_eq length)
  have gone : window ds = short := by
    rw [window, List.length_cons, length, Nat.add_sub_cancel_left]
    rfl
  obtain ⟨-, ⟨-, oldest⟩, each, -⟩ := percentile_of_window ds
  obtain ⟨d, newer, front, here⟩ := oldest full
  obtain ⟨-, among, alike⟩ := each (1 : Rat)
  have longest : (ofSamples ds).percentile (1 : Rat) = .ofNanos 5 :=
    List.eq_of_mem_replicate (gone ▸ among (List.cons_ne_nil _ _))
  have first : d = .ofNanos 5 := by
    apply List.eq_of_mem_replicate (n := Reservoir.size)
    have member : d ∈ window ds := front ▸ List.mem_cons_self
    rwa [gone] at member
  refine ⟨full, first ▸ here, longest, ?_⟩
  rw [alike short (by rw [alone, gone]), longest]

end Histogram

end LoadHarness
