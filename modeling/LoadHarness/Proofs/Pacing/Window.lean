import LoadHarness.Proofs.Pacing.Callers
import Mathlib.Algebra.Order.Field.Rat
import Mathlib.Data.Nat.Cast.Order.Field
import Mathlib.Tactic.Linarith
import Mathlib.Tactic.Positivity
import Mathlib.Tactic.Ring

/-!
# What a bucket lets through

The laws of the bucket on exact fractions. What a look grants comes out of the level, up to the
slack, and the level only grows by what flows in. So whatever callers do in a stretch of time, they
are granted no more than a full bucket and what flows in meanwhile: `granted_within_window`.
-/

namespace LoadHarness

namespace Quantity

theorem lower_eq_min (x y : Rat) : lower x y = min x y := by
  simp only [lower, atMost, decide_eq_true_eq, min_def]

theorem higher_eq_max (x y : Rat) : higher x y = max x y := by
  simp only [higher, atMost, decide_eq_true_eq, max_def]

theorem slack_eq : (slack : Rat) = 1 / 1000000000 := rfl

end Quantity

namespace Grant

/-- All tokens of some grants. -/
def total (gs : List Grant) : Nat := (gs.map (·.tokens.toNat)).sum

/-- The grants of at least one token. -/
def counted (gs : List Grant) : Nat := gs.countP (·.tokens != 0)

/-- The grants from one instant to another. -/
def within (t₁ t₂ : Nat) (gs : List Grant) : List Grant :=
  gs.filter fun g => t₁ ≤ g.instant && g.instant ≤ t₂

@[simp]
theorem within_nil (t₁ t₂ : Nat) : within t₁ t₂ [] = [] := rfl

/-- What some grants take out of a bucket at least: each of them may fall short by the slack. -/
def debt (gs : List Grant) : Rat := total gs - Quantity.slack * counted gs

@[simp]
theorem debt_nil : debt [] = 0 := by simp [debt, total, counted]

theorem debt_append (gs hs : List Grant) : debt (gs ++ hs) = debt gs + debt hs := by
  simp only [debt, total, counted, List.map_append, List.sum_append, List.countP_append,
    Nat.cast_add]
  ring

theorem debt_singleton (now : Nat) (n : UInt32) :
    debt [⟨now, n⟩] = n.toNat - Quantity.slack * (if n ≠ 0 then 1 else 0 : Nat) := by
  simp [debt, total, counted, List.countP_singleton]

/-- A grant takes its tokens out of a bucket, up to the slack. -/
theorem le_debt_singleton (now : Nat) (n : UInt32) :
    (n.toNat : Rat) - Quantity.slack ≤ debt [⟨now, n⟩] := by
  rw [debt_singleton, Quantity.slack_eq]
  split <;> norm_num

/-- Tokens come whole, and the slack is less than one. -/
theorem debt_nonneg (gs : List Grant) : 0 ≤ debt gs := by
  induction gs with
  | nil => exact le_of_eq debt_nil.symm
  | cons g gs ih =>
    obtain ⟨now, n⟩ := g
    have first : 0 ≤ debt [⟨now, n⟩] := by
      rw [debt_singleton, Quantity.slack_eq]
      split
      · next some =>
        have one : (1 : Rat) ≤ n.toNat := by
          refine Nat.one_le_cast.2 (Nat.pos_of_ne_zero fun zero => some ?_)
          exact UInt32.toNat_inj.1 zero
        linarith
      · simp
    have whole : debt (⟨now, n⟩ :: gs) = debt [⟨now, n⟩] + debt gs := debt_append [_] gs
    rw [whole]
    exact add_nonneg first ih

theorem within_append (t₁ t₂ : Nat) (gs hs : List Grant) :
    within t₁ t₂ (gs ++ hs) = within t₁ t₂ gs ++ within t₁ t₂ hs := List.filter_append ..

theorem within_eq_self {t₁ t₂ : Nat} {gs : List Grant}
    (inside : ∀ g ∈ gs, t₁ ≤ g.instant ∧ g.instant ≤ t₂) : within t₁ t₂ gs = gs :=
  List.filter_eq_self.2 fun g member => by simpa using inside g member

theorem within_eq_nil {t₁ t₂ : Nat} {gs : List Grant}
    (outside : ∀ g ∈ gs, g.instant < t₁ ∨ t₂ < g.instant) : within t₁ t₂ gs = [] :=
  List.filter_eq_nil_iff.2 fun g member => by
    have := outside g member
    simp only [Bool.and_eq_true, decide_eq_true_eq]
    omega

end Grant

namespace Bucket

variable {b b' : Bucket Rat} {now : Nat} {gs : List Grant}

/-- What flows into a bucket from one instant to another. -/
def flow (b : Bucket Rat) (t₁ t₂ : Nat) : Rat := b.rate.toNat * (((t₂ : Rat) - t₁) / 1000000000)

theorem flow_nonneg (b : Bucket Rat) {t₁ t₂ : Nat} (later : t₁ ≤ t₂) : 0 ≤ b.flow t₁ t₂ := by
  have span : (0 : Rat) ≤ t₂ - t₁ := sub_nonneg.2 (Nat.cast_le.2 later)
  unfold flow
  positivity

/-- What flows in between two instants adds up. -/
theorem flow_add (b : Bucket Rat) (t₁ t₂ t₃ : Nat) :
    b.flow t₁ t₂ + b.flow t₂ t₃ = b.flow t₁ t₃ := by
  unfold flow
  ring

/-- More flows in over a longer time. -/
theorem flow_mono (b : Bucket Rat) {t₁ t₂ t₃ : Nat} (later : t₁ ≤ t₂) :
    b.flow t₂ t₃ ≤ b.flow t₁ t₃ := by
  have := b.flow_add t₁ t₂ t₃
  have := b.flow_nonneg later
  linarith

/-- The level is one that a bucket can have. -/
structure Sound (b : Bucket Rat) : Prop where
  nonneg : 0 ≤ b.level
  le_capacity : b.level ≤ b.capacity.toNat

theorem levelAt_eq (b : Bucket Rat) (now : Nat) :
    b.levelAt now = min (b.level + (Duration.ofNanos (now - b.filledAt)).nanos / 1000000000 *
      b.rate.toNat) b.capacity.toNat :=
  Quantity.lower_eq_min _ _

theorem levelAt_le_capacity (b : Bucket Rat) (now : Nat) : b.levelAt now ≤ b.capacity.toNat :=
  b.levelAt_eq now ▸ min_le_right _ _

theorem levelAt_nonneg (nonneg : 0 ≤ b.level) (now : Nat) : 0 ≤ b.levelAt now := by
  rw [levelAt_eq]
  exact le_min (by positivity) (Nat.cast_nonneg _)

/-- No more flows in than the clock allows. -/
theorem levelAt_le_flow (b : Bucket Rat) (later : b.filledAt ≤ now) :
    b.levelAt now ≤ b.level + b.flow b.filledAt now := by
  have span : ((Duration.ofNanos (now - b.filledAt)).nanos : Rat) ≤ (now : Rat) - b.filledAt := by
    rw [← Nat.cast_sub later]
    exact Nat.cast_le.2 (Nat.min_le_left _ _)
  have inflow : ((Duration.ofNanos (now - b.filledAt)).nanos : Rat) / 1000000000 * b.rate.toNat ≤
      b.flow b.filledAt now := by
    unfold flow
    rw [mul_comm]
    gcongr
  have := min_le_left (b.level + (Duration.ofNanos (now - b.filledAt)).nanos / 1000000000 *
    b.rate.toNat) (b.capacity.toNat : Rat)
  rw [levelAt_eq]
  linarith

theorem refill_sound (h : b.Sound) (now : Nat) : (b.refill now).Sound :=
  ⟨levelAt_nonneg h.nonneg now, b.levelAt_le_capacity now⟩

theorem take_level (b : Bucket Rat) (n : UInt32) : (b.take n).level = max (b.level - n.toNat) 0 :=
  Quantity.higher_eq_max _ _

/-- Taking tokens keeps the level within its bounds. -/
theorem take_sound (h : b.Sound) (n : UInt32) : (b.take n).Sound := by
  have some : (0 : Rat) ≤ n.toNat := Nat.cast_nonneg _
  refine ⟨?_, ?_⟩ <;> rw [take_level]
  · exact le_max_right _ _
  · have room : b.level ≤ (b.take n).capacity.toNat := h.le_capacity
    exact max_le (by linarith) (Nat.cast_nonneg _)

/-- A grant comes out of the level: this is where the slack goes. -/
theorem debt_of_take (now : Nat) {n : UInt32} (nonneg : 0 ≤ b.level) (covered : b.covers n = true) :
    Grant.debt [⟨now, n⟩] + (b.take n).level ≤ b.level := by
  have short : (n.toNat : Rat) ≤ b.level + Quantity.slack := of_decide_eq_true covered
  simp only [Grant.debt, Grant.total, Grant.counted, List.map_singleton, List.sum_singleton,
    List.countP_singleton]
  rw [take_level]
  by_cases none : n = 0
  · subst none
    simp [nonneg]
  · have one : (if (n != 0) = true then 1 else 0 : Nat) = 1 := if_pos (by simpa using none)
    have slack : (0 : Rat) ≤ Quantity.slack := by
      show (0 : Rat) ≤ 1 / 1000000000
      norm_num
    rw [one, Nat.cast_one, mul_one]
    rcases max_cases (b.level - n.toNat) 0 with ⟨eq, -⟩ | ⟨eq, -⟩ <;> rw [eq] <;> linarith

/-! ## One look -/

namespace Looks

theorem rate_eq (looks : b.Looks now gs b') : b'.rate = b.rate := by cases looks <;> rfl

theorem capacity_eq (looks : b.Looks now gs b') : b'.capacity = b.capacity := by
  cases looks <;> rfl

/-- What a look grants is granted at its instant. -/
theorem instants (looks : b.Looks now gs b') : ∀ g ∈ gs, g.instant = now := by
  cases looks <;> simp

/-- A look keeps the level within its bounds. -/
theorem sound (looks : b.Looks now gs b') (h : b.Sound) : b'.Sound := by
  cases looks with
  | untouched => exact h
  | refilled => exact refill_sound h now
  | took => exact take_sound (refill_sound h now) _

theorem filledAt_le (looks : b.Looks now gs b') (later : b.filledAt ≤ now) :
    b.filledAt ≤ b'.filledAt ∧ b'.filledAt ≤ now := by
  cases looks with
  | untouched => exact ⟨Nat.le_refl _, later⟩
  | refilled => exact ⟨later, Nat.le_refl _⟩
  | took => exact ⟨later, Nat.le_refl _⟩

/-- Whoever is not refused brings the bucket up to date. -/
theorem refused_or_filled (looks : b.Looks now gs b') :
    (gs = [] ∧ b' = b) ∨ b'.filledAt = now := by
  cases looks with
  | untouched => exact .inl ⟨rfl, rfl⟩
  | refilled => exact .inr rfl
  | took => exact .inr rfl

/-- What is granted and what is left come out of what was there and what flowed in. -/
theorem debt_le_flow (looks : b.Looks now gs b') (h : b.Sound) (later : b.filledAt ≤ now) :
    Grant.debt gs + b'.level ≤ b.level + b.flow b.filledAt b'.filledAt := by
  have filled : (b.refill now).level ≤ b.level + b.flow b.filledAt now := b.levelAt_le_flow later
  cases looks with
  | untouched =>
    rw [Grant.debt_nil]
    linarith [b.flow_nonneg (Nat.le_refl b.filledAt)]
  | refilled =>
    rw [Grant.debt_nil, zero_add]
    exact filled
  | took covered =>
    have := debt_of_take now (refill_sound h now).nonneg covered
    exact this.trans filled

/-- What is granted and what is left never come to more than a full bucket. -/
theorem debt_le_capacity (looks : b.Looks now gs b') (h : b.Sound) :
    Grant.debt gs + b'.level ≤ b.capacity.toNat := by
  have filled : (b.refill now).level ≤ b.capacity.toNat := b.levelAt_le_capacity now
  cases looks with
  | untouched => rw [Grant.debt_nil, zero_add]; exact h.le_capacity
  | refilled =>
    rw [Grant.debt_nil, zero_add]
    exact filled
  | took covered =>
    have := debt_of_take now (refill_sound h now).nonneg covered
    exact this.trans filled

end Looks

end Bucket

/-! ## Many looks -/

namespace Crowd

variable {c d : Crowd Rat} {es : List CrowdEvent} {e : CrowdEvent} {gs : List Grant}

/-- The clock never goes back, from the last look on. -/
def Timely (c : Crowd Rat) (es : List CrowdEvent) : Prop :=
  (c.bucket.filledAt :: es.map (·.now)).Pairwise (· ≤ ·)

theorem Timely.head (h : c.Timely (e :: es)) : c.bucket.filledAt ≤ e.now :=
  (List.pairwise_cons.1 h).1 _ List.mem_cons_self

theorem Timely.later (h : c.Timely (e :: es)) : ∀ f ∈ es, e.now ≤ f.now := fun _ member =>
  (List.pairwise_cons.1 (List.pairwise_cons.1 h).2).1 _ (List.mem_map_of_mem member)

theorem Timely.tail (h : c.Timely (e :: es)) (looks : c.bucket.Looks e.now gs d.bucket) :
    d.Timely es := by
  have bound := (looks.filledAt_le h.head).2
  have later := (List.pairwise_cons.1 (List.pairwise_cons.1 h).2).2
  refine List.pairwise_cons.2 ⟨fun t member => ?_, later⟩
  obtain ⟨f, among, rfl⟩ := List.mem_map.1 member
  exact Nat.le_trans bound (h.later f among)

/-- The first step of a run and the rest. -/
theorem run_cons (ran : c.run (e :: es) = some (d, gs)) :
    ∃ (mid : Crowd Rat) (first rest : List Grant), c.bucket.Looks e.now first mid.bucket ∧
      mid.run es = some (d, rest) ∧ gs = first ++ rest := by
  obtain ⟨⟨mid, first⟩, stepped, more⟩ := Option.bind_eq_some_iff.1 ran
  obtain ⟨⟨last, rest⟩, later, made⟩ := Option.map_eq_some_iff.1 more
  cases made
  exact ⟨mid, first, rest, looks_of_step stepped, later, rfl⟩

/-- Tokens are granted at the instants of the steps. -/
theorem instants_of_run (ran : c.run es = some (d, gs)) :
    ∀ g ∈ gs, ∃ e ∈ es, g.instant = e.now := by
  induction es generalizing c gs with
  | nil =>
    cases ran
    nofun
  | cons e es ih =>
    obtain ⟨mid, first, rest, looks, later, rfl⟩ := run_cons ran
    intro g member
    rcases List.mem_append.1 member with now | after
    · exact ⟨e, List.mem_cons_self, looks.instants g now⟩
    · obtain ⟨f, among, same⟩ := ih later g after
      exact ⟨f, List.mem_cons_of_mem _ among, same⟩

/-- The run: callers change neither rate nor capacity. -/
theorem kept_of_run (h : c.bucket.Sound) (ran : c.run es = some (d, gs)) :
    d.bucket.Sound ∧ d.bucket.rate = c.bucket.rate ∧ d.bucket.capacity = c.bucket.capacity := by
  induction es generalizing c gs with
  | nil =>
    cases ran
    exact ⟨h, rfl, rfl⟩
  | cons e es ih =>
    obtain ⟨mid, first, rest, looks, later, -⟩ := run_cons ran
    obtain ⟨sound, rate, capacity⟩ := ih (looks.sound h) later
    exact ⟨sound, rate.trans looks.rate_eq, capacity.trans looks.capacity_eq⟩

/-- Nothing is granted in a stretch of time that ends before the next step. -/
theorem within_of_late (t₁ : Nat) {t₂ : Nat} (timely : c.Timely (e :: es)) (late : t₂ < e.now)
    (ran : c.run (e :: es) = some (d, gs)) : Grant.within t₁ t₂ gs = [] := by
  refine Grant.within_eq_nil fun g member => .inr ?_
  obtain ⟨f, among, same⟩ := instants_of_run ran g member
  rcases List.mem_cons.1 among with rfl | rest
  · omega
  · have := timely.later f rest
    omega

/-- Up to an instant callers are granted what is in the bucket and what flows in until then. -/
theorem debt_until (t₁ : Nat) {t₂ : Nat} (h : c.bucket.Sound) (timely : c.Timely es)
    (since : ∀ e ∈ es, t₁ ≤ e.now) (reached : c.bucket.filledAt ≤ t₂)
    (ran : c.run es = some (d, gs)) :
    Grant.debt (Grant.within t₁ t₂ gs) ≤ c.bucket.level + c.bucket.flow c.bucket.filledAt t₂ := by
  have room : 0 ≤ c.bucket.level + c.bucket.flow c.bucket.filledAt t₂ :=
    add_nonneg h.nonneg (c.bucket.flow_nonneg reached)
  induction es generalizing c gs with
  | nil =>
    cases ran
    rwa [Grant.within_nil, Grant.debt_nil]
  | cons e es ih =>
    rcases Nat.lt_or_ge t₂ e.now with late | inside
    · rw [within_of_late t₁ timely late ran, Grant.debt_nil]
      exact room
    · obtain ⟨mid, first, rest, looks, later, rfl⟩ := run_cons ran
      have sound := looks.sound h
      have reached' : mid.bucket.filledAt ≤ t₂ :=
        Nat.le_trans (looks.filledAt_le timely.head).2 inside
      have own := looks.debt_le_flow h timely.head
      have more := ih sound (timely.tail looks)
        (fun f member => since f (List.mem_cons_of_mem _ member)) reached' later
        (add_nonneg sound.nonneg (mid.bucket.flow_nonneg reached'))
      have all : Grant.within t₁ t₂ first = first := Grant.within_eq_self fun g member => by
        rw [looks.instants g member]
        exact ⟨since e List.mem_cons_self, inside⟩
      have rate : mid.bucket.flow mid.bucket.filledAt t₂ =
          c.bucket.flow mid.bucket.filledAt t₂ := by
        simp only [Bucket.flow, looks.rate_eq]
      have whole := c.bucket.flow_add c.bucket.filledAt mid.bucket.filledAt t₂
      rw [Grant.within_append, Grant.debt_append, all]
      linarith

/-- In a stretch of time callers are granted a full bucket and what flows in meanwhile. The first
look in it that is not refused finds at most a full bucket, and from then on `debt_until` counts. -/
theorem debt_within {t₁ t₂ : Nat} (order : t₁ ≤ t₂) (h : c.bucket.Sound) (timely : c.Timely es)
    (ran : c.run es = some (d, gs)) :
    Grant.debt (Grant.within t₁ t₂ gs) ≤ c.bucket.capacity.toNat + c.bucket.flow t₁ t₂ := by
  have room : (0 : Rat) ≤ c.bucket.capacity.toNat + c.bucket.flow t₁ t₂ :=
    add_nonneg (Nat.cast_nonneg _) (c.bucket.flow_nonneg order)
  induction es generalizing c gs with
  | nil =>
    cases ran
    rwa [Grant.within_nil, Grant.debt_nil]
  | cons e es ih =>
    rcases Nat.lt_or_ge t₂ e.now with late | before
    · rw [within_of_late t₁ timely late ran, Grant.debt_nil]
      exact room
    obtain ⟨mid, first, rest, looks, later, rfl⟩ := run_cons ran
    have sound := looks.sound h
    have flow (t : Nat) : mid.bucket.flow t t₂ = c.bucket.flow t t₂ := by
      simp only [Bucket.flow, looks.rate_eq]
    have tail : Grant.debt (Grant.within t₁ t₂ rest) ≤
        c.bucket.capacity.toNat + c.bucket.flow t₁ t₂ := by
      rw [← looks.capacity_eq, ← flow]
      refine ih sound (timely.tail looks) later ?_
      rw [looks.capacity_eq, flow]
      exact room
    rcases Nat.lt_or_ge e.now t₁ with early | inside
    · have none : Grant.within t₁ t₂ first = [] := Grant.within_eq_nil fun g member =>
        .inl (looks.instants g member ▸ early)
      rwa [Grant.within_append, none, List.nil_append]
    rcases looks.refused_or_filled with ⟨rfl, -⟩ | filled
    · exact tail
    · have own := looks.debt_le_capacity h
      have more := debt_until t₁ sound (timely.tail looks)
        (fun f member => Nat.le_trans inside (timely.later f member)) (filled ▸ before) later
      rw [filled, flow] at more
      have all : Grant.within t₁ t₂ first = first := Grant.within_eq_self fun g member => by
        rw [looks.instants g member]
        exact ⟨inside, before⟩
      have shorter : c.bucket.flow e.now t₂ ≤ c.bucket.flow t₁ t₂ := c.bucket.flow_mono inside
      rw [Grant.within_append, Grant.debt_append, all]
      linarith

end Crowd

/-- Valid rates make a full bucket. -/
theorem Bucket.full_of_valid {c : RateConfig} (valid : c.validate = .ok ()) (now : Nat) :
    Bucket.full c now =
      .ok (⟨c.limit, c.capacity, (c.capacity.toNat : Rat), now⟩ : Bucket Rat) := by
  unfold full
  rw [valid]
  rfl

/-- **A bucket keeps its rate.** Whoever comes to a bucket that was full at the start, in any number
and in any order, as long as the clock never goes back: the level stays between nothing and a full
bucket, every stretch of time grants at most a full bucket and what flows in meanwhile, up to the
slack of each grant, and whoever wants more than a full bucket is refused at once. -/
theorem Crowd.granted_within_window (c : RateConfig) (valid : c.validate = .ok ()) (start : Nat) :
    ∃ b : Bucket Rat, Bucket.full c start = .ok b ∧
      ∀ (es : List CrowdEvent) (crowd : Crowd Rat) (gs : List Grant),
        (start :: es.map (·.now)).Pairwise (· ≤ ·) → run ⟨b, []⟩ es = some (crowd, gs) →
        (0 ≤ crowd.bucket.level ∧ crowd.bucket.level ≤ c.capacity.toNat) ∧
        (∀ t₁ t₂ : Nat, t₁ ≤ t₂ →
          (Grant.total (Grant.within t₁ t₂ gs) : Rat) ≤
            c.capacity.toNat + c.limit.toNat * (((t₂ : Rat) - t₁) / 1000000000) +
              1 / 1000000000 * Grant.counted (Grant.within t₁ t₂ gs)) ∧
        (∀ (now : Nat) (n : UInt32), c.capacity.toNat < n.toNat →
          crowd.step ⟨now, .come (.consume n)⟩ =
            some (⟨crowd.bucket, crowd.callers ++
              [⟨.consume n, .refused (.exceedsCapacity n c.capacity)⟩]⟩, [])) := by
  refine ⟨_, Bucket.full_of_valid valid start, fun es crowd gs timely ran => ?_⟩
  have full : Bucket.Sound ⟨c.limit, c.capacity, (c.capacity.toNat : Rat), start⟩ :=
    ⟨Nat.cast_nonneg _, le_refl _⟩
  obtain ⟨sound, -, capacity⟩ := kept_of_run full ran
  have capacity : crowd.bucket.capacity = c.capacity := capacity
  refine ⟨⟨sound.nonneg, capacity ▸ sound.le_capacity⟩, fun t₁ t₂ order => ?_,
    fun now n large => ?_⟩
  · have bound := debt_within (c := ⟨_, []⟩) order full timely ran
    have slack : (Quantity.slack : Rat) = 1 / 1000000000 := rfl
    simp only [Grant.debt, Bucket.flow, slack] at bound
    linarith
  · rw [refused_of_large crowd now (capacity ▸ large), capacity]

/-- Ten tokens a second, five at once. -/
def RateConfig.trickle : RateConfig := ⟨10, some 5⟩

/-- One caller waits while another takes a token, asks how much there is, and gets its own. -/
def Crowd.rush : List CrowdEvent :=
  [⟨0, .come (.consume 3)⟩, ⟨0, .come (.consume 3)⟩, ⟨50000000, .come (.tryConsume 1)⟩,
    ⟨100000000, .again 1⟩, ⟨150000000, .come .available⟩, ⟨250000000, .again 1⟩]

/-- Four tokens within a fifth of a second, from a bucket that trickles. -/
theorem Crowd.granted_within_window_rush :
    RateConfig.trickle.validate = .ok () ∧
      ∃ (b : Bucket Rat) (crowd : Crowd Rat) (gs : List Grant),
        Bucket.full .trickle 0 = .ok b ∧ run ⟨b, []⟩ rush = some (crowd, gs) ∧
        Grant.total (Grant.within 50000000 250000000 gs) = 4 ∧
        (Grant.total (Grant.within 50000000 250000000 gs) : Rat) ≤
          (5 : UInt64).toNat + (10 : UInt64).toNat *
              ((((250000000 : Nat) : Rat) - (50000000 : Nat)) / 1000000000) +
            1 / 1000000000 * Grant.counted (Grant.within 50000000 250000000 gs) := by
  obtain ⟨b, made, law⟩ := granted_within_window .trickle rfl 0
  have heard : (run ⟨b, []⟩ rush).map (·.2) =
      some [⟨0, 3⟩, ⟨50000000, 1⟩, ⟨250000000, 3⟩] := by
    cases made
    decide +kernel
  obtain ⟨⟨crowd, gs⟩, ran, rfl⟩ := Option.map_eq_some_iff.1 heard
  obtain ⟨-, window, -⟩ := law rush crowd _ (by decide) ran
  exact ⟨rfl, b, crowd, _, made, ran, rfl, window _ _ (by decide)⟩

end LoadHarness
