import LoadHarness.Proofs.Pacing.Filling

/-!
# How long waiting takes

A caller who waits for tokens looks, sleeps for the time in which what is missing flows in, and
looks again. The sleep is rounded to whole nanoseconds, so up to half a nanosecond's inflow may
still be missing when it ends (`level_of_slept`); at high rates that is more than the slack. But
then the shortest sleep, two hundred thousand times as long, makes up for it. So nobody sleeps a
third time unless others take the tokens meanwhile.
-/

namespace LoadHarness

/-! ## The sleep that is asked for -/

/-- Rounding goes no further than half a unit. -/
theorem Binary64.divideToEven_near (a : Nat) {d : Nat} (pos : 0 < d) :
    |(divideToEven a d : Rat) - a / d| ≤ 1 / 2 := by
  have unit : (0 : Rat) < d := Nat.cast_pos.2 pos
  have whole : (a : Rat) / d = (a / d : Nat) + ((a % d : Nat) : Rat) / d := by
    rw [div_eq_iff unit.ne', add_mul, div_mul_cancel₀ _ unit.ne']
    exact_mod_cast (Nat.div_add_mod' a d).symm
  have below : ((a % d : Nat) : Rat) / d < 1 := by
    rw [div_lt_one unit]
    exact_mod_cast Nat.mod_lt a pos
  have nonneg : (0 : Rat) ≤ ((a % d : Nat) : Rat) / d := by positivity
  have half (order : 2 * (a % d) ≤ d) : ((a % d : Nat) : Rat) / d ≤ 1 / 2 := by
    rw [div_le_iff₀ unit]
    have : (2 : Rat) * (a % d : Nat) ≤ d := by exact_mod_cast order
    linarith
  have more (order : d ≤ 2 * (a % d)) : (1 : Rat) / 2 ≤ ((a % d : Nat) : Rat) / d := by
    rw [le_div_iff₀ unit]
    have : (d : Rat) ≤ 2 * (a % d : Nat) := by exact_mod_cast order
    linarith
  rw [whole, divideToEven, abs_le]
  split
  · next less =>
    have := half (Nat.le_of_lt less)
    constructor <;> linarith
  · next least =>
    have := more (Nat.le_of_not_lt least)
    split
    · push_cast
      constructor <;> linarith
    · next most =>
      have := half (Nat.le_of_not_lt most)
      split
      · constructor <;> linarith
      · push_cast
        constructor <;> linarith

/-- A number of seconds that fits comes out as the nearest number of nanoseconds. -/
theorem Quantity.nanos_toDuration {x : Rat} (nonneg : 0 ≤ x) (fits : x ≤ 4294967295) :
    |((Quantity.toDuration x).nanos : Rat) - x * 1000000000| ≤ 1 / 2 := by
  have fraction : ((x.num.toNat * 1000000000 : Nat) : Rat) / x.den = x * 1000000000 := by
    have num : ((x.num.toNat : Nat) : Rat) = x.num := by
      exact_mod_cast Int.toNat_of_nonneg (Rat.num_nonneg.2 nonneg)
    rw [Nat.cast_mul, num, mul_div_right_comm, Rat.num_div_den]
    norm_num
  have near := Binary64.divideToEven_near (x.num.toNat * 1000000000) x.den_pos
  rw [fraction] at near
  have short : Binary64.divideToEven (x.num.toNat * 1000000000) x.den ≤ Duration.maxNanos := by
    have upper : (Binary64.divideToEven (x.num.toNat * 1000000000) x.den : Rat) ≤
        4294967295000000001 := by linarith [(abs_le.1 near).2]
    have : Binary64.divideToEven (x.num.toNat * 1000000000) x.den ≤ 4294967295000000001 := by
      exact_mod_cast upper
    exact this.trans (by decide)
  show |((Duration.ofNanos _).nanos : Rat) - _| ≤ _
  rw [Duration.nanos_ofNanos short]
  exact near

theorem RateConfig.one_le_limit {c : RateConfig} (valid : c.validate = .ok ()) :
    (1 : Rat) ≤ c.limit.toNat := by
  refine one_le_rate fun none => ?_
  rw [validate, if_pos none] at valid
  cases valid

namespace Bucket

variable {c : RateConfig} {b : Bucket Rat} {n : UInt32} {now : Nat}

/-- The sleep that `missing` tokens call for: the time in which they flow in, to the nearest
nanosecond, but no less than the shortest sleep. -/
def SleepFor (c : RateConfig) (missing : Rat) (d : Duration) : Prop :=
  ∃ nanos : Nat, |(nanos : Rat) - missing / c.limit.toNat * 1000000000| ≤ 1 / 2 ∧
    d.nanos = max 100000 nanos

/-- A bucket that is short tells the sleep that covers the deficit. -/
theorem sleepFor_waitFor (valid : c.validate = .ok ()) (h : b.Keeps c)
    (short : b.level < n.toNat) : SleepFor c (n.toNat - b.level) (b.waitFor n) := by
  have rate := c.one_le_limit valid
  have nonneg : (0 : Rat) ≤ (n.toNat - b.level) / c.limit.toNat :=
    div_nonneg (by linarith) (by linarith)
  have fits : ((n.toNat : Rat) - b.level) / c.limit.toNat ≤ 4294967295 := by
    rw [div_le_iff₀ (by linarith)]
    have most : (n.toNat : Rat) ≤ 4294967295 := by
      have := n.toNat_lt
      exact_mod_cast Nat.le_of_lt_succ this
    have := h.sound.nonneg
    linarith
  refine ⟨_, Quantity.nanos_toDuration nonneg fits, ?_⟩
  show (Duration.longer (Quantity.toDuration ((n.toNat - b.level) / b.rate.toNat)) _).nanos = _
  rw [h.rate, Duration.longer]
  have shortest : minWait.nanos = 100000 := Duration.nanos_ofNanos (n := 100000) (by decide)
  split <;> omega

/-- A caller who does not want more than a full bucket is granted its tokens or told to wait. -/
theorem look_cases (h : b.Keeps c) (fits : n.toNat ≤ c.capacity.toNat) (now : Nat) :
    (n.toNat : Rat) - Quantity.slack ≤ b.levelAt now ∧
        b.look n now = (.granted, (b.refill now).take n) ∨
      b.levelAt now < n.toNat - Quantity.slack ∧
        b.look n now = (.wait ((b.refill now).waitFor n), b.refill now) := by
  have small : ¬ b.capacity.toNat < n.toNat := by
    rw [h.capacity]
    omega
  have covers : (b.refill now).covers n = true ↔
      (n.toNat : Rat) ≤ b.levelAt now + Quantity.slack := decide_eq_true_iff
  unfold look
  rw [if_neg small]
  by_cases covered : (b.refill now).covers n = true
  · have enough := covers.1 covered
    exact .inl ⟨by linarith, if_pos covered⟩
  · have short := mt covers.2 covered
    exact .inr ⟨by linarith, if_neg covered⟩

/-! ## The level after a sleep -/

/-- At the end of a sleep no more is missing than flows in within half a nanosecond, and nothing if
it was no more before: the shortest sleep is longer than that. -/
theorem level_of_slept {level : Rat} {d : Duration} {t : Nat} (valid : c.validate = .ok ())
    (fits : n.toNat ≤ c.capacity.toNat) (sleeps : SleepFor c (n.toNat - level) d)
    (slept : now + d.nanos ≤ t) :
    (n.toNat : Rat) - c.limit.toNat / 2000000000 ≤ c.filled level now t ∧
      (n.toNat - level ≤ (c.limit.toNat : Rat) / 2000000000 →
        (n.toNat : Rat) ≤ c.filled level now t) := by
  have rate := c.one_le_limit valid
  obtain ⟨nanos, near, length⟩ := sleeps
  have room : (n.toNat : Rat) ≤ c.capacity.toNat := Nat.cast_le.2 fits
  have span : ((max 100000 nanos : Nat) : Rat) ≤ (t : Rat) - now := by
    rw [le_sub_iff_add_le, ← length]
    exact_mod_cast (Nat.add_comm _ _).trans_le slept
  have inflow (least : Nat) (long : least ≤ max 100000 nanos) :
      (c.limit.toNat : Rat) * (least / 1000000000) ≤
        c.limit.toNat * (((t : Rat) - now) / 1000000000) := by
    have : (least : Rat) ≤ (t : Rat) - now := (Nat.cast_le.2 long).trans span
    gcongr
  have asked := inflow nanos (Nat.le_max_right _ _)
  have least := inflow 100000 (Nat.le_max_left _ _)
  push_cast at least
  have rounded : (n.toNat : Rat) - level - c.limit.toNat / 2000000000 ≤
      c.limit.toNat * (nanos / 1000000000) := by
    have exact_time : c.limit.toNat * ((n.toNat - level) / c.limit.toNat) =
        (n.toNat : Rat) - level := by
      field_simp
    have near := mul_le_mul_of_nonneg_left (abs_le.1 near).1
      (by linarith : (0 : Rat) ≤ c.limit.toNat)
    rw [mul_sub, ← mul_assoc, exact_time] at near
    linarith
  refine ⟨le_min ?_ ?_, fun little => le_min ?_ room⟩ <;> linarith

end Bucket

/-! ## The whole wait -/

/-- What happens while a caller sleeps: when it wakes, and who looks at the bucket meanwhile.
Nobody is granted anything. -/
structure Company where
  wakes : Bucket Rat → Nat → Duration → Nat
  looks : Bucket Rat → Nat → Duration → List Look
  slept (b : Bucket Rat) (now : Nat) (d : Duration) : now + d.nanos ≤ wakes b now d
  timely (b : Bucket Rat) (now : Nat) (d : Duration) :
    Look.Timely now (looks b now d) (wakes b now d)
  ungranted (b : Bucket Rat) (now : Nat) (d : Duration) : b.granted (looks b now d) = []

/-- A sleep, and the level that the caller saw before it. -/
structure Nap where
  level : Rat
  length : Duration

/-- A wait that is over. -/
structure Vigil where
  naps : List Nap
  answer : Except LimiterError Unit
  /-- The level that the caller saw at last. -/
  level : Rat

namespace Bucket

/-- A caller waits for `n` tokens from an instant on; nothing if that takes more sleeps than a
number of them. -/
def await (co : Company) (n : UInt32) : (sleeps now : Nat) → Bucket Rat → Option Vigil
  | sleeps, now, b =>
    match b.look n now, sleeps with
    | (.granted, _), _ => some ⟨[], .ok (), b.levelAt now⟩
    | (.refused e, _), _ => some ⟨[], .error e, b.levelAt now⟩
    | (.wait _, _), 0 => none
    | (.wait d, left), sleeps + 1 =>
      (await co n sleeps (co.wakes left now d) (left.after (co.looks left now d))).map fun v =>
        { v with naps := ⟨left.level, d⟩ :: v.naps }

variable {c : RateConfig} {b left : Bucket Rat} {n : UInt32} {now : Nat} {d : Duration}
  {co : Company}

/-- Whoever is granted its tokens does not sleep. -/
theorem await_of_granted (granted : b.look n now = (.granted, left)) (sleeps : Nat) :
    b.await co n sleeps now = some ⟨[], .ok (), b.levelAt now⟩ := by
  unfold await
  rw [granted]

/-- Whoever is told to wait sleeps and looks again. -/
theorem await_of_wait (told : b.look n now = (.wait d, left)) (sleeps : Nat) :
    b.await co n (sleeps + 1) now =
      ((left.after (co.looks left now d)).await co n sleeps (co.wakes left now d)).map fun v =>
        { v with naps := ⟨left.level, d⟩ :: v.naps } := by
  conv_lhs => unfold await
  rw [told]

/-- The step: whoever looks meanwhile, what a sleeper finds is what has flowed in. -/
theorem level_of_nap (valid : c.validate = .ok ()) (h : b.Keeps c)
    (fits : n.toNat ≤ c.capacity.toNat) (co : Company)
    (sleeps : SleepFor c (n.toNat - b.levelAt now) d) :
    ∃ woken : Bucket Rat, woken = (b.refill now).after (co.looks (b.refill now) now d) ∧
      woken.Keeps c ∧
      (n.toNat : Rat) - c.limit.toNat / 2000000000 ≤
        woken.levelAt (co.wakes (b.refill now) now d) ∧
      (n.toNat - b.levelAt now ≤ (c.limit.toNat : Rat) / 2000000000 →
        (n.toNat : Rat) ≤ woken.levelAt (co.wakes (b.refill now) now d)) := by
  have timely := co.timely (b.refill now) now d
  have kept := refill_keeps h now
  have level := levelAt_after kept timely
  rw [co.ungranted (b.refill now) now d] at level
  refine ⟨_, rfl, (kept.after timely).1, ?_⟩
  rw [level]
  exact level_of_slept valid fits sleeps (co.slept _ _ _)

/-- **Nobody sleeps three times.** Whoever waits for no more than a full bucket while nobody else is
granted anything has the tokens after two sleeps at most, whatever the level and however late it
wakes. Before each sleep something was missing, and the sleep is the time in which that flows in, to
the nearest nanosecond and no less than the shortest sleep; the tokens never come while more than
the slack is missing. -/
theorem granted_after_two_sleeps (c : RateConfig) (valid : c.validate = .ok ()) (b : Bucket Rat)
    (h : b.Keeps c) (n : UInt32) (fits : n.toNat ≤ c.capacity.toNat) (now : Nat) (co : Company) :
    ∃ v : Vigil, b.await co n 2 now = some v ∧ v.naps.length ≤ 2 ∧ v.answer = .ok () ∧
      (n.toNat : Rat) - 1 / 1000000000 ≤ v.level ∧
      ∀ nap ∈ v.naps, 0 < (n.toNat : Rat) - nap.level ∧
        SleepFor c (n.toNat - nap.level) nap.length := by
  have slack : (0 : Rat) < Quantity.slack := by
    rw [Quantity.slack_eq]
    norm_num
  -- the first look
  rcases look_cases h fits now with ⟨enough, granted⟩ | ⟨short₁, told₁⟩
  · exact ⟨_, await_of_granted granted 2, Nat.zero_le _, rfl, enough, nofun⟩
  have missing₁ : (b.refill now).level < n.toNat := by
    show b.levelAt now < _
    linarith
  have sleeps₁ := sleepFor_waitFor valid (refill_keeps h now) missing₁
  obtain ⟨b₂, woken₂, kept₂, near, -⟩ := level_of_nap valid h fits co sleeps₁
  rw [await_of_wait told₁, ← woken₂]
  generalize co.wakes (b.refill now) now _ = t₂ at near
  -- the second look: what is still missing is less than the shortest sleep brings
  rcases look_cases kept₂ fits t₂ with ⟨enough, granted⟩ | ⟨short₂, told₂⟩
  · refine ⟨_, congrArg _ (await_of_granted granted 1), Nat.le_succ 1, rfl, enough, ?_⟩
    intro nap member
    obtain rfl := List.mem_singleton.1 member
    exact ⟨sub_pos.2 missing₁, sleeps₁⟩
  have missing₂ : (b₂.refill t₂).level < n.toNat := by
    show b₂.levelAt t₂ < _
    linarith
  have sleeps₂ := sleepFor_waitFor valid (refill_keeps kept₂ t₂) missing₂
  obtain ⟨b₃, woken₃, kept₃, -, made_up⟩ := level_of_nap valid kept₂ fits co sleeps₂
  have whole := made_up (by linarith)
  rw [await_of_wait told₂, ← woken₃]
  generalize co.wakes (b₂.refill t₂) t₂ _ = t₃ at whole
  -- the third look
  rcases look_cases kept₃ fits t₃ with ⟨enough, granted⟩ | ⟨short₃, -⟩
  · refine ⟨_, congrArg _ (congrArg _ (await_of_granted granted 0)), Nat.le_refl 2, rfl, enough, ?_⟩
    intro nap member
    rcases List.mem_cons.1 member with rfl | second
    · exact ⟨sub_pos.2 missing₁, sleeps₁⟩
    · obtain rfl := List.mem_singleton.1 second
      exact ⟨sub_pos.2 missing₂, sleeps₂⟩
  · linarith

end Bucket

/-- Twelve tokens a second, five at once: the time for one of them is no whole number. -/
def RateConfig.dozen : RateConfig := ⟨12, some 5⟩

/-- Everyone wakes in time, and in the middle of each sleep someone asks how much there is. -/
def Company.punctual : Company where
  wakes _ now d := now + d.nanos
  looks _ now d := [⟨now + d.nanos / 2, .available⟩]
  slept _ _ _ := Nat.le_refl _
  timely _ _ d := by
    simp [Look.Timely, Nat.div_le_self]
  ungranted _ _ _ := rfl

/-- One token of an empty bucket: the second of the two naps is the least one. -/
theorem Bucket.granted_after_two_sleeps_dozen :
    RateConfig.dozen.validate = .ok () ∧ (⟨12, 5, 0, 0⟩ : Bucket Rat).Keeps .dozen ∧
      (1 : UInt32).toNat ≤ RateConfig.dozen.capacity.toNat ∧
      ∃ v : Vigil, (⟨12, 5, 0, 0⟩ : Bucket Rat).await .punctual 1 2 0 = some v ∧
        v.naps.map (·.length.nanos) = [83333333, 100000] ∧ v.answer = .ok () ∧
        (1 : UInt32).toNat - 1 / 1000000000 ≤ v.level := by
  have empty : (⟨12, 5, 0, 0⟩ : Bucket Rat).Keeps .dozen :=
    ⟨rfl, rfl, ⟨le_refl _, Nat.cast_nonneg _⟩⟩
  obtain ⟨v, waited, -, granted, level, -⟩ :=
    granted_after_two_sleeps .dozen rfl _ empty 1 (by decide) 0 .punctual
  have naps : ((⟨12, 5, 0, 0⟩ : Bucket Rat).await .punctual 1 2 0).map
      (·.naps.map (·.length.nanos)) = some [83333333, 100000] := by decide +kernel
  rw [waited] at naps
  exact ⟨rfl, empty, by decide, v, waited, Option.some.inj naps, granted, level⟩

end LoadHarness
