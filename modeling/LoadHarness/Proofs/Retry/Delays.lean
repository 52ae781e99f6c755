import LoadHarness.Proofs.Settings.Loading

/-!
# When a delay is too long

The slots drawn stop at the longest duration, but the floor is added after that, so that there is
no delay when floor and slots together are longer than any duration. Every other delay is the exact
sum under the cap. With settings that are loaded it takes a slot of more than a century to miss a
delay: times are whole milliseconds in a 64-bit word, and a thousand of the longest of them are no
longer than the longest duration.
-/

namespace LoadHarness

namespace RetryConfig

variable {c : RetryConfig} {made : UInt32} {slot : Nat} {d : Duration}

/-- Floor and slots together, in nanoseconds. -/
def spread (c : RetryConfig) (slot : Nat) : Nat := c.minBackoff.nanos + c.slotTime.nanos * slot

theorem nanos_scale (d : Duration) (n : Nat) :
    (d.scale n).nanos = min (d.nanos * n) Duration.maxNanos := rfl

theorem delay?_zero (c : RetryConfig) (slot : Nat) : c.delay? 0 slot = some .zero := by
  rw [delay?, if_pos rfl]

theorem delay?_eq_none_iff :
    c.delay? made slot = none ↔
      made ≠ 0 ∧ 0 < c.minBackoff.nanos ∧ Duration.maxNanos < c.spread slot := by
  have floor := c.minBackoff.nanos_le
  unfold delay? spread
  split
  · next first => simp [first]
  · next later =>
    rw [Option.map_eq_none_iff, Duration.add?, Duration.ofNanos?_eq_none_iff, nanos_scale]
    constructor
    · intro long
      exact ⟨later, by omega, by omega⟩
    · rintro ⟨-, above, long⟩
      omega

/-- A delay after some attempts is the sum of floor and slots, or the cap if that is less. -/
theorem nanos_of_delay? (later : made ≠ 0) (h : c.delay? made slot = some d) :
    d.nanos = min (c.spread slot) c.maxBackoff.nanos := by
  have cap := c.maxBackoff.nanos_le
  have fits : ¬(0 < c.minBackoff.nanos ∧ Duration.maxNanos < c.spread slot) := fun long => by
    rw [delay?_eq_none_iff.2 ⟨later, long⟩] at h
    cases h
  unfold delay? at h
  rw [if_neg later] at h
  obtain ⟨sum, added, rfl⟩ := Option.map_eq_some_iff.1 h
  have total : sum.nanos = c.minBackoff.nanos + (c.slotTime.scale slot).nanos := by
    unfold Duration.add? Duration.ofNanos? at added
    split at added
    · cases added
      rfl
    · cases added
  rw [Duration.nanos_shorter, total, nanos_scale]
  unfold spread at fits ⊢
  omega

theorem slots_le (c : RetryConfig) {made : UInt32} {n : Nat}
    (h : made.toNat ≤ n ∨ c.backoffCeiling.toNat ≤ n) : c.slots made ≤ Nat.pow 2 n := by
  unfold slots
  exact Nat.pow_le_pow_right (by decide) (by omega)

theorem slots_le_limit (c : RetryConfig) (made : UInt32) : c.slots made ≤ 2147483648 :=
  Nat.pow_le_pow_right (by decide) (Nat.min_le_right _ _)

end RetryConfig

theorem Duration.IsMillis.nanos_le {d : Duration} (h : d.IsMillis) :
    d.nanos ≤ 18446744073709551615 * 1000000 := by
  obtain ⟨n, rfl⟩ := h
  have word := n.toNat_lt
  exact Nat.le_trans (Nat.min_le_left _ _) (by omega)

namespace Settings

variable {s : Settings} {made : UInt32} {slot : Nat}

/-- Settings whose floor is above their cap are not valid. -/
theorem floor_le_cap (valid : s.validate = .ok ()) :
    s.retry.minBackoff.nanos ≤ s.retry.maxBackoff.nanos := by
  refine Nat.not_lt.1 fun above => ?_
  simp only [validate, above, if_true, throw, throwThe, MonadExceptOf.throw, bind, Except.bind]
    at valid
  repeat' split at valid
  all_goals cases valid

/-- Fewer than a thousand slots are never too long, and neither is any number of slots of at most
2⁴² milliseconds. -/
theorem Loaded.spread_le (loaded : Loaded s) (drawn : slot < s.retry.slots made)
    (few : slot < 1000 ∨ s.retry.slotTime.nanos ≤ 4398046511104 * 1000000) :
    s.retry.spread slot ≤ Duration.maxNanos := by
  have floor : s.retry.minBackoff.nanos ≤ _ := (loaded.whole .minBackoff).nanos_le
  have long : s.retry.slotTime.nanos ≤ _ := (loaded.whole .slotTime).nanos_le
  have limit := s.retry.slots_le_limit made
  have slots : s.retry.slotTime.nanos * slot ≤ 999 * (18446744073709551615 * 1000000) := by
    rcases few with few | short
    · calc s.retry.slotTime.nanos * slot
          ≤ 18446744073709551615 * 1000000 * 999 := Nat.mul_le_mul long (by omega)
        _ ≤ 999 * (18446744073709551615 * 1000000) := by decide
    · calc s.retry.slotTime.nanos * slot
          ≤ 4398046511104 * 1000000 * 2147483648 := Nat.mul_le_mul short (by omega)
        _ ≤ 999 * (18446744073709551615 * 1000000) := by decide
  unfold RetryConfig.spread Duration.maxNanos
  omega

/-- With settings that are loaded and valid a delay is missing exactly where floor and drawn slots
are longer than any duration, which takes a thousand slots of more than 2⁴² milliseconds each:
after ten attempts and with a ceiling of ten at the earliest. Every other delay after the first
attempt is their sum under the cap and not below the floor. -/
theorem Loaded.delay_missing_or_capped (loaded : Loaded s) (valid : s.validate = .ok ())
    (drawn : slot < s.retry.slots made) :
    (s.retry.delay? made slot = none ↔
      made ≠ 0 ∧ 0 < s.retry.minBackoff.nanos ∧ Duration.maxNanos < s.retry.spread slot) ∧
    (s.retry.delay? made slot = none →
      10 ≤ made.toNat ∧ 10 ≤ s.retry.backoffCeiling.toNat ∧ 1000 ≤ slot ∧
        4398046511104 * 1000000 < s.retry.slotTime.nanos) ∧
    ∀ d, s.retry.delay? made slot = some d →
      if made = 0 then d = .zero
      else d.nanos = min (s.retry.spread slot) s.retry.maxBackoff.nanos ∧
        s.retry.minBackoff.nanos ≤ d.nanos := by
  refine ⟨RetryConfig.delay?_eq_none_iff, fun missing => ?_, fun d given => ?_⟩
  · obtain ⟨-, -, long⟩ := RetryConfig.delay?_eq_none_iff.1 missing
    have many : 1000 ≤ slot := Nat.not_lt.1 fun few =>
      absurd (loaded.spread_le drawn (.inl few)) (by omega)
    have wide : 4398046511104 * 1000000 < s.retry.slotTime.nanos := Nat.not_le.1 fun short =>
      absurd (loaded.spread_le drawn (.inr short)) (by omega)
    have late : ¬(made.toNat ≤ 9 ∨ s.retry.backoffCeiling.toNat ≤ 9) := fun early => by
      have range : s.retry.slots made ≤ 512 := s.retry.slots_le early
      omega
    exact ⟨by omega, by omega, many, wide⟩
  · split
    · next first =>
      rw [first, RetryConfig.delay?_zero] at given
      exact (Option.some.inj given).symm
    · next later =>
      have sum := RetryConfig.nanos_of_delay? later given
      have above := floor_le_cap valid
      refine ⟨sum, ?_⟩
      rw [sum]
      exact Nat.le_min.2 ⟨Nat.le_add_right _ _, above⟩

/-- Twelve attempts, the longest slot that can be written, and a cap as low as the floor. -/
def patience : List Property :=
  [("dash.retry.max.attempts", "12"), ("dash.retry.max.backoff", "5"),
    ("dash.retry.slot.time", "18446744073709551615")]

/-- The standard settings with patience. -/
def patient : Settings := (standard.apply patience).1

/-- A delay that is drawn before an attempt that remains, and that does not exist. -/
theorem delay_missing_when_patient :
    ofProperties patience = .ok patient ∧ patient.validate = .ok () ∧
      patient.retry.hasAttemptsRemaining 10 = true ∧ 1001 < patient.retry.slots 10 ∧
      patient.retry.delay? 10 1001 = none :=
  ⟨rfl, rfl, by decide +kernel, by decide +kernel, by decide +kernel⟩

theorem delay_missing_or_capped_patient :
    (∀ d, patient.retry.delay? 9 511 = some d → d.nanos = 5000000) ∧
      patient.retry.delay? 9 511 ≠ none ∧
      (patient.retry.delay? 10 1001 = none ↔
        Duration.maxNanos < patient.retry.spread 1001) := by
  have loaded : Loaded patient := .properties _ (.standard 1)
  obtain ⟨-, late, given⟩ :=
    loaded.delay_missing_or_capped rfl (show 511 < patient.retry.slots 9 by decide +kernel)
  obtain ⟨missing, -, -⟩ :=
    loaded.delay_missing_or_capped rfl (show 1001 < patient.retry.slots 10 by decide +kernel)
  refine ⟨fun d h => ?_, fun h => absurd (late h).1 (by decide), missing.trans ?_⟩
  · have sum := given d h
    rw [if_neg (by decide)] at sum
    rw [sum.1]
    decide +kernel
  · constructor
    · exact fun h => h.2.2
    · exact fun h => ⟨by decide, by decide +kernel, h⟩

end Settings

end LoadHarness
