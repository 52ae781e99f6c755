import LoadHarness.Proofs.Retry.Delays
import LoadHarness.Proofs.Traffic.Words
import Mathlib.Data.Set.Insert

/-!
# Which delays can be drawn

Slots are drawn below a power of two. Its exponent is the least of the attempts made, the ceiling
and 31, whatever the ceiling is, so that the power is a 32-bit word and the range never empty, and
it only grows with the attempts. Every number in the range can be drawn, so the delays that can
come out are floor and slots under the cap for each of them, and whatever can come out after some
attempts can come out after more.
-/

namespace LoadHarness

namespace RetryConfig

variable {c : RetryConfig} {made next : UInt32} {d : Duration}

/-- The exponent of the range that slots are drawn from, as a word. -/
def exponent (c : RetryConfig) (made : UInt32) : UInt32 :=
  min (min made c.backoffCeiling) exponentLimit

/-- The slots that words give. -/
def drawSlot (c : RetryConfig) (made : UInt32) (source : WordSource) : Nat :=
  (WordSource.below 32 (c.slots made) (WordSource.shiftedZone 32 (c.slots made)) source).1

/-- The delay after `made` attempts with the slots that words give. -/
def drawDelay? (c : RetryConfig) (made : UInt32) (source : WordSource) : Option Duration :=
  c.delay? made (c.drawSlot made source)

/-- The delays that some words give. -/
def drawable (c : RetryConfig) (made : UInt32) : Set Duration :=
  {d | ∃ source, c.drawDelay? made source = some d}

theorem toNat_exponent (c : RetryConfig) (made : UInt32) :
    (c.exponent made).toNat = min (min made.toNat c.backoffCeiling.toNat) 31 := by
  rw [exponent, UInt32.toNat_min, UInt32.toNat_min]
  rfl

theorem exponent_lt (c : RetryConfig) (made : UInt32) : (c.exponent made).toNat < 32 := by
  rw [toNat_exponent]
  exact Nat.lt_succ_of_le (Nat.min_le_right _ _)

theorem slots_eq (c : RetryConfig) (made : UInt32) :
    c.slots made = 2 ^ min (min made.toNat c.backoffCeiling.toNat) 31 := rfl

theorem slots_pos (c : RetryConfig) (made : UInt32) : 0 < c.slots made := Nat.pow_pos (by decide)

/-- One bit shifted by the exponent stays in the word. -/
theorem toNat_shift (c : RetryConfig) (made : UInt32) :
    ((1 : UInt32) <<< c.exponent made).toNat = c.slots made := by
  have short := c.exponent_lt made
  have word : 2 ^ (c.exponent made).toNat < 2 ^ 32 := Nat.pow_lt_pow_right (by decide) short
  calc ((1 : UInt32) <<< c.exponent made).toNat
      = 1 <<< ((c.exponent made).toNat % 32) % 2 ^ 32 := UInt32.toNat_shiftLeft _ _
    _ = 2 ^ (c.exponent made).toNat := by
      rw [Nat.mod_eq_of_lt short, Nat.shiftLeft_eq, Nat.one_mul, Nat.mod_eq_of_lt word]
    _ = c.slots made := by rw [toNat_exponent, slots_eq]

theorem slots_mono (le : made ≤ next) : c.slots made ≤ c.slots next := by
  have order := UInt32.le_iff_toNat_le.1 le
  rw [slots_eq, slots_eq]
  exact Nat.pow_le_pow_right (by decide) (by omega)

theorem lt_slots_iff {slot : Nat} : slot < c.slots made ↔ ∃ source, c.drawSlot made source = slot :=
  WordSource.lt_iff_drawn (c.slots_pos made)
    ((c.slots_le_limit made).trans (by decide)) (by decide)

theorem drawSlot_lt (c : RetryConfig) (made : UInt32) (source : WordSource) :
    c.drawSlot made source < c.slots made := lt_slots_iff.2 ⟨source, rfl⟩

theorem mem_drawable_iff :
    d ∈ c.drawable made ↔ ∃ slot < c.slots made, c.delay? made slot = some d := by
  constructor
  · rintro ⟨source, drawn⟩
    exact ⟨_, c.drawSlot_lt made source, drawn⟩
  · rintro ⟨slot, lt, given⟩
    obtain ⟨source, rfl⟩ := lt_slots_iff.1 lt
    exact ⟨source, given⟩

theorem delay?_later (made_pos : made ≠ 0) (next_pos : next ≠ 0) (slot : Nat) :
    c.delay? made slot = c.delay? next slot := by
  rw [delay?, delay?, if_neg made_pos, if_neg next_pos]

theorem spread_mono {slot slot' : Nat} (le : slot ≤ slot') : c.spread slot ≤ c.spread slot' :=
  Nat.add_le_add_left (Nat.mul_le_mul_left _ le) _

/-- A sum that fits gives a delay. -/
theorem delay?_eq_some_iff {slot : Nat} (later : made ≠ 0)
    (fits : c.spread slot ≤ Duration.maxNanos) :
    c.delay? made slot = some d ↔ d.nanos = min (c.spread slot) c.maxBackoff.nanos := by
  cases given : c.delay? made slot with
  | none =>
    have long := (delay?_eq_none_iff.1 given).2.2
    omega
  | some e =>
    have sum := nanos_of_delay? later given
    constructor
    · rintro ⟨⟩
      exact sum
    · intro same
      exact congrArg some (Duration.ext_nanos (sum.trans same.symm))

/-- **The delays that can be drawn are floor and slots under the cap**, for every number of slots
below the power of two that attempts and ceiling name, as long as the largest of the sums is no
longer than a duration can be. Neither the shift nor the range fails for any configuration, every
delay lies between the cap and the lower of floor and cap, and later attempts lose none. -/
theorem drawable_eq (c : RetryConfig) :
    (∀ source, c.drawDelay? 0 source = some .zero) ∧
      ∀ made ≠ 0,
        (c.exponent made < 32 ∧ ((1 : UInt32) <<< c.exponent made).toNat = c.slots made ∧
          0 < c.slots made) ∧
        (c.spread (c.slots made - 1) ≤ Duration.maxNanos →
          (∀ source, (c.drawDelay? made source).isSome) ∧
          c.drawable made = {d | ∃ s < 2 ^ min (min made.toNat c.backoffCeiling.toNat) 31,
            d.nanos = min (c.minBackoff.nanos + c.slotTime.nanos * s) c.maxBackoff.nanos}) ∧
        (∀ d ∈ c.drawable made,
          min c.minBackoff.nanos c.maxBackoff.nanos ≤ d.nanos ∧
            d.nanos ≤ c.maxBackoff.nanos) ∧
        ∀ next, made ≤ next → c.drawable made ⊆ c.drawable next := by
  refine ⟨fun source => c.delay?_zero _, fun made later =>
    ⟨⟨UInt32.lt_iff_toNat_lt.2 (c.exponent_lt made), c.toNat_shift made, c.slots_pos made⟩,
      fun fits => ⟨fun source => ?_, ?_⟩, fun d drawn => ?_, fun next le d drawn => ?_⟩⟩
  · have lt := c.drawSlot_lt made source
    refine Option.isSome_iff_ne_none.2 fun missing => ?_
    have long := (delay?_eq_none_iff.1 missing).2.2
    have below : c.spread (c.drawSlot made source) ≤ _ := spread_mono (Nat.le_sub_one_of_lt lt)
    omega
  · ext d
    rw [mem_drawable_iff, ← slots_eq, Set.mem_ofPred_eq]
    refine exists_congr fun s => and_congr_right fun lt => delay?_eq_some_iff later ?_
    exact (spread_mono (Nat.le_sub_one_of_lt lt)).trans fits
  · obtain ⟨slot, -, given⟩ := mem_drawable_iff.1 drawn
    have sum := nanos_of_delay? later given
    unfold spread at sum
    omega
  · obtain ⟨slot, lt, given⟩ := mem_drawable_iff.1 drawn
    have next_pos : next ≠ 0 := by
      rintro rfl
      exact later (UInt32.le_zero_iff.1 le)
    rw [delay?_later later next_pos] at given
    exact mem_drawable_iff.2 ⟨slot, lt.trans_le (slots_mono le), given⟩

/-- A ceiling that no setter gives. -/
def boundless : RetryConfig := ⟨100, .ofMillis 5, .ofMillis 2000, .ofMillis 10, 4294967295⟩

theorem drawable_eq_boundless :
    boundless.spread (boundless.slots 40 - 1) ≤ Duration.maxNanos ∧
      Duration.ofMillis 15 ∈ boundless.drawable 40 ∧
      Duration.ofMillis 2000 ∈ boundless.drawable 40 ∧
      boundless.drawable 40 ⊆ boundless.drawable 4294967295 ∧
      ∀ d ∈ boundless.drawable 40, 5000000 ≤ d.nanos := by
  obtain ⟨-, set, bounds, later⟩ := (drawable_eq boundless).2 40 (by decide)
  have fits : boundless.spread (boundless.slots 40 - 1) ≤ Duration.maxNanos := by decide +kernel
  have floor : min boundless.minBackoff.nanos boundless.maxBackoff.nanos = 5000000 := by
    decide +kernel
  refine ⟨fits, ?_, ?_, later _ (by decide), fun d drawn => floor ▸ (bounds d drawn).1⟩
  · rw [(set fits).2]
    exact ⟨1, by decide, by decide +kernel⟩
  · rw [(set fits).2]
    exact ⟨1000, by decide, by decide +kernel⟩

/-! The range as it is computed, delay after delay until one comes again. -/

/-- Once two delays in a row are the same, all later ones are. -/
theorem delay?_stays {slot later : Nat} {e : Duration} (same : c.delay? made slot = some d)
    (again : c.delay? made (slot + 1) = some d) (le : slot ≤ later)
    (given : c.delay? made later = some e) : e = d := by
  by_cases first : made = 0
  · subst first
    rw [delay?_zero] at same given
    exact Option.some.inj (given.symm.trans same)
  have here := nanos_of_delay? first same
  have next := nanos_of_delay? first again
  have there := nanos_of_delay? first given
  refine Duration.ext_nanos ?_
  have step : c.spread (slot + 1) = c.spread slot + c.slotTime.nanos := by
    simp only [spread, Nat.mul_succ]
    omega
  have above := c.spread_mono le
  by_cases flat : c.slotTime.nanos = 0
  · simp only [spread, flat, Nat.zero_mul] at here there
    omega
  · omega

theorem delay?_mono {slot later : Nat} {e : Duration} (given : c.delay? made slot = some d)
    (le : slot ≤ later) (given' : c.delay? made later = some e) : d.nanos ≤ e.nanos := by
  by_cases first : made = 0
  · subst first
    rw [delay?_zero] at given given'
    rw [Option.some.inj (given.symm.trans given')]
  · rw [nanos_of_delay? first given, nanos_of_delay? first given']
    have above := c.spread_mono le
    omega

/-- The distinct delays from a slot on ascend, all above the one before, and leave out none if the
limit is not reached. -/
theorem distinctDelays_spec (total : ∀ slot < c.slots made, ∃ d, c.delay? made slot = some d)
    (limit n slot : Nat) (last : Option Duration) (whole : slot + n = c.slots made)
    (before : ∀ l, last = some l → ∃ s, slot = s + 1 ∧ c.delay? made s = some l) :
    let ds := c.distinctDelays made n slot last limit
    ds.Pairwise (·.nanos < ·.nanos) ∧
      (∀ d ∈ ds, (∀ l, last = some l → l.nanos < d.nanos) ∧
        ∃ s < c.slots made, c.delay? made s = some d) ∧
      (ds.length < limit → ∀ s d, slot ≤ s → s < c.slots made → c.delay? made s = some d →
        d ∈ ds ∨ last = some d) := by
  induction limit generalizing n slot last with
  | zero => simp [distinctDelays]
  | succ limit ih =>
    intro ds
    cases n with
    | zero =>
      have none : ds = [] := by cases h : c.delay? made slot <;> simp [ds, distinctDelays]
      simp only [none, List.Pairwise.nil, List.not_mem_nil, false_imp_iff, implies_true, true_and]
      intro _ s d le lt
      omega
    | succ n =>
      obtain ⟨d, given⟩ := total slot (by omega)
      by_cases again : last = some d
      · have none : ds = [] := by simp [ds, distinctDelays, given, again]
        simp only [none, List.Pairwise.nil, List.not_mem_nil, false_imp_iff, implies_true, true_and]
        intro _ s e le _ later
        obtain ⟨s', rfl, same⟩ := before d again
        exact .inr (again.trans (congrArg some (delay?_stays same given (by omega) later).symm))
      · have first : ds = d :: c.distinctDelays made n (slot + 1) (some d) limit := by
          simp [ds, distinctDelays, given, again]
        obtain ⟨ascend, drawn, complete⟩ := ih n (slot + 1) (some d) (by omega)
          (fun l same => ⟨slot, rfl, given.trans same⟩)
        have above (l : Duration) (same : last = some l) : l.nanos < d.nanos := by
          obtain ⟨s, rfl, there⟩ := before l same
          refine Nat.lt_of_le_of_ne (delay?_mono there (by omega) given) fun eq => again ?_
          rw [same, Duration.ext_nanos eq]
        rw [first]
        refine ⟨List.pairwise_cons.2 ⟨fun e member => (drawn e member).1 d rfl, ascend⟩, ?_, ?_⟩
        · intro e member
          rcases List.mem_cons.1 member with rfl | later
          · exact ⟨above, slot, by omega, given⟩
          · exact ⟨fun l same => (above l same).trans ((drawn e later).1 d rfl), (drawn e later).2⟩
        · intro short s e le lt there
          rcases Nat.eq_or_lt_of_le le with rfl | later
          · obtain rfl : d = e := Option.some.inj (given.symm.trans there)
            exact .inl (List.mem_cons_self ..)
          · rcases complete (Nat.lt_of_succ_lt_succ short) s e later lt there with member | same
            · exact .inl (List.mem_cons_of_mem _ member)
            · exact .inl (Option.some.inj same ▸ List.mem_cons_self ..)

theorem delay?_isSome_of_le {slot later : Nat} (given : (c.delay? made later).isSome)
    (le : slot ≤ later) : ∃ d, c.delay? made slot = some d := by
  rw [← Option.isSome_iff_exists, Option.isSome_iff_ne_none]
  intro missing
  obtain ⟨second, floor, long⟩ := delay?_eq_none_iff.1 missing
  have longer : Duration.maxNanos < c.spread later := long.trans_le (c.spread_mono le)
  rw [delay?_eq_none_iff.2 ⟨second, floor, longer⟩] at given
  cases given

theorem delays_eq_overflow_iff {limit : Nat} :
    c.delays made limit = .overflow ↔ ∃ source, c.drawDelay? made source = none := by
  have last : c.slots made - 1 < c.slots made := Nat.sub_one_lt_of_lt (c.slots_pos made)
  unfold delays
  split
  · next missing =>
    obtain ⟨source, drawn⟩ := lt_slots_iff.1 last
    refine iff_of_true rfl ⟨source, ?_⟩
    rw [drawDelay?, drawn]
    exact Option.isNone_iff_eq_none.1 missing
  · next given =>
    refine iff_of_false (by dsimp only; split <;> exact nofun) ?_
    rintro ⟨source, missing⟩
    rw [Bool.not_eq_true, Option.isNone_eq_false_iff] at given
    have lt := c.drawSlot_lt made source
    obtain ⟨d, drawn⟩ := delay?_isSome_of_le given (Nat.le_sub_one_of_lt lt)
    rw [drawDelay?, drawn] at missing
    cases missing

/-- What is computed for all draws together is what they can give, in ascending order. -/
theorem mem_delays_iff {limit : Nat} {ds : List Duration}
    (computed : c.delays made limit = .exactly ds) :
    ds.Pairwise (·.nanos < ·.nanos) ∧ ∀ d, d ∈ ds ↔ d ∈ c.drawable made := by
  unfold delays at computed
  split at computed
  · cases computed
  · next given =>
    rw [Bool.not_eq_true, Option.isNone_eq_false_iff] at given
    obtain ⟨ascend, drawn, complete⟩ := distinctDelays_spec
      (fun slot lt => delay?_isSome_of_le given (Nat.le_sub_one_of_lt lt))
      (limit + 1) (c.slots made) 0 none (Nat.zero_add _) nofun
    dsimp only at computed
    split at computed
    · cases computed
    · next few =>
      cases computed
      refine ⟨ascend, fun d => ?_⟩
      rw [mem_drawable_iff]
      constructor
      · exact fun member => (drawn d member).2
      · rintro ⟨slot, lt, there⟩
        exact (complete (by omega) slot d (Nat.zero_le _) lt there).resolve_right nofun

end RetryConfig

end LoadHarness
