import LoadHarness.Proofs.Pacing.Window
import Mathlib.Data.Rat.Floor

/-!
# Filling unseen

A bucket is filled up when someone looks at it, and nothing happens to it between two looks. Nobody
can tell: two refills come to the same as the second alone (`refill_refill`), so whoever is granted
nothing leaves a bucket in which everyone later finds what would have been there anyway. The level
is at every instant that of a bucket which fills all the time, and of all that was done to it the
grants alone count.
-/

namespace LoadHarness

/-! ## A bucket that fills all the time -/

/-- A rate that is not zero is one token a second or more. -/
theorem one_le_rate {rate : UInt64} (some : rate ≠ 0) : (1 : Rat) ≤ rate.toNat :=
  Nat.one_le_cast.2 (Nat.pos_of_ne_zero fun zero => some (UInt64.toNat_inj.1 zero))

namespace RateConfig

/-- What a level has grown to at a later instant when nobody takes anything. -/
def filled (c : RateConfig) (level : Rat) (t₁ t₂ : Nat) : Rat :=
  min (level + c.limit.toNat * (((t₂ : Rat) - t₁) / 1000000000)) c.capacity.toNat

/-- The level at an instant of a bucket that fills all the time and has made some grants. -/
def steady (c : RateConfig) (level : Rat) (since : Nat) : List Grant → Nat → Rat
  | [], now => c.filled level since now
  | g :: gs, now =>
    c.steady (max (c.filled level since g.instant - g.tokens.toNat) 0) g.instant gs now

variable {c : RateConfig} {level : Rat} {t₁ t₂ t₃ now : Nat} {gs : List Grant}

/-- Time may be cut anywhere: what flows over at the cut would have flowed over later. -/
theorem filled_filled (later : t₂ ≤ t₃) :
    c.filled (c.filled level t₁ t₂) t₂ t₃ = c.filled level t₁ t₃ := by
  have inflow : (0 : Rat) ≤ c.limit.toNat * (((t₃ : Rat) - t₂) / 1000000000) := by
    have span : (0 : Rat) ≤ t₃ - t₂ := sub_nonneg.2 (Nat.cast_le.2 later)
    positivity
  have whole : level + c.limit.toNat * (((t₂ : Rat) - t₁) / 1000000000) +
      c.limit.toNat * (((t₃ : Rat) - t₂) / 1000000000) =
      level + c.limit.toNat * (((t₃ : Rat) - t₁) / 1000000000) := by ring
  unfold filled
  rw [← min_add_add_right, whole, min_assoc]
  exact congrArg _ (min_eq_right (by linarith))

/-- Filling in two steps is filling in one. -/
theorem steady_filled (later : ∀ g ∈ gs, t₂ ≤ g.instant) (last : t₂ ≤ now) :
    c.steady (c.filled level t₁ t₂) t₂ gs now = c.steady level t₁ gs now := by
  cases gs with
  | nil => exact filled_filled last
  | cons g gs =>
    simp only [steady]
    rw [filled_filled (later g List.mem_cons_self)]

end RateConfig

namespace Bucket

variable {c : RateConfig} {b d : Bucket Rat} {t t₁ t₂ now : Nat}

/-- The bucket has the rate and the size of a configuration, and a level that it can have. -/
structure Keeps (c : RateConfig) (b : Bucket Rat) : Prop where
  rate : b.rate = c.limit
  capacity : b.capacity = c.capacity
  sound : b.Sound

/-- A look keeps the level within its bounds. -/
theorem Looks.keeps {gs : List Grant} (looks : b.Looks now gs d) (h : b.Keeps c) : d.Keeps c :=
  ⟨looks.rate_eq.trans h.rate, looks.capacity_eq.trans h.capacity, looks.sound h.sound⟩

theorem refill_keeps (h : b.Keeps c) (now : Nat) : (b.refill now).Keeps c :=
  Looks.refilled.keeps h

/-- The longest duration is long enough to fill any bucket that fills at all. -/
theorem capacity_le_longest (b : Bucket Rat) (some : b.rate ≠ 0) :
    (b.capacity.toNat : Rat) ≤ (Duration.maxNanos : Rat) / 1000000000 * b.rate.toNat := by
  have fits : b.capacity.toNat * 1000000000 ≤ Duration.maxNanos := by
    have := b.capacity.toNat_lt
    simp only [Duration.maxNanos]
    omega
  calc (b.capacity.toNat : Rat) ≤ (Duration.maxNanos : Rat) / 1000000000 := by
        rw [le_div_iff₀ (by norm_num)]
        exact_mod_cast fits
    _ ≤ (Duration.maxNanos : Rat) / 1000000000 * b.rate.toNat :=
        le_mul_of_one_le_right (by positivity) (one_le_rate some)

/-- A level grows by what flows in, also over a time that no duration covers: by then the bucket is
full. -/
theorem levelAt_eq_filled (h : b.Keeps c) (later : b.filledAt ≤ now) :
    b.levelAt now = c.filled b.level b.filledAt now := by
  rw [levelAt_eq, RateConfig.filled, ← h.rate, ← h.capacity, ← Nat.cast_sub later]
  rcases Nat.lt_or_ge Duration.maxNanos (now - b.filledAt) with long | short
  · have cut : (Duration.ofNanos (now - b.filledAt)).nanos = Duration.maxNanos :=
      Nat.min_eq_right (Nat.le_of_lt long)
    by_cases dry : b.rate = 0
    · simp [dry]
    · have full := b.capacity_le_longest dry
      have more : (Duration.maxNanos : Rat) / 1000000000 * b.rate.toNat ≤
          b.rate.toNat * (((now - b.filledAt : Nat) : Rat) / 1000000000) := by
        rw [mul_comm]
        have := Nat.cast_le (α := Rat).2 (Nat.le_of_lt long)
        gcongr
      have nonneg := h.sound.nonneg
      rw [cut, min_eq_right (by linarith), min_eq_right (by linarith)]
  · rw [Duration.nanos_ofNanos short, mul_comm]

/-- Two refills come to the same as the second alone. -/
theorem refill_refill (h : b.Keeps c) (first : b.filledAt ≤ t₁) (later : t₁ ≤ t₂) :
    (b.refill t₁).refill t₂ = b.refill t₂ := by
  have level : (b.refill t₁).levelAt t₂ = b.levelAt t₂ := by
    rw [levelAt_eq_filled (refill_keeps h t₁) later, levelAt_eq_filled h (first.trans later)]
    show c.filled (b.levelAt t₁) t₁ t₂ = _
    rw [levelAt_eq_filled h first]
    exact RateConfig.filled_filled later
  show (⟨b.rate, b.capacity, (b.refill t₁).levelAt t₂, t₂⟩ : Bucket Rat) = b.refill t₂
  rw [level]
  rfl

/-! ## Buckets that nobody can tell apart -/

/-- From an instant on everyone finds the same in both buckets. -/
def Alike (t : Nat) (b d : Bucket Rat) : Prop := ∀ now, t ≤ now → b.refill now = d.refill now

theorem Alike.refl (t : Nat) (b : Bucket Rat) : Alike t b b := fun _ _ => rfl

theorem Alike.trans {e : Bucket Rat} (first : Alike t b d) (second : Alike t d e) : Alike t b e :=
  fun now later => (first now later).trans (second now later)

/-- Buckets that are alike stay so as time passes. -/
theorem Alike.later (alike : Alike t₁ b d) (order : t₁ ≤ t₂) : Alike t₂ b d :=
  fun now late => alike now (order.trans late)

/-- They show the same level. -/
theorem Alike.levelAt_eq (alike : Alike t b d) (later : t ≤ now) : b.levelAt now = d.levelAt now :=
  congrArg Bucket.level (alike now later)

/-- Whoever looks hears the same of both and leaves them alike. -/
theorem Alike.ask (alike : Alike t b d) (later : t ≤ now) (r : Request) :
    (b.ask now r).1 = (d.ask now r).1 ∧ Alike now (b.ask now r).2 (d.ask now r).2 := by
  have same := alike now later
  have capacity : b.capacity = d.capacity := by
    show (b.refill now).capacity = (d.refill now).capacity
    rw [same]
  cases r with
  | consume n =>
    unfold Bucket.ask look
    rw [same, capacity]
    by_cases large : d.capacity.toNat < n.toNat
    · simp only [if_pos large]
      exact ⟨trivial, alike.later later⟩
    · simp only [if_neg large]
      exact ⟨trivial, .refl _ _⟩
  | tryConsume n =>
    unfold Bucket.ask tryConsume
    rw [same]
    exact ⟨rfl, .refl _ _⟩
  | available =>
    unfold Bucket.ask available
    rw [same]
    exact ⟨rfl, .refl _ _⟩

/-- An answer that grants nothing is no grant. -/
theorem grants_of_ungranted {heard : Hearing} (r : Request) (now : Nat)
    (ungranted : heard ≠ .granted) : r.grants now heard = [] := by
  cases heard with
  | granted => exact absurd rfl ungranted
  | _ => rfl

/-- Whoever is granted nothing leaves a bucket as everyone later would have found it anyway. -/
theorem alike_of_ungranted (h : b.Keeps c) (later : b.filledAt ≤ now) {r : Request}
    (ungranted : (b.ask now r).1 ≠ .granted) : Alike now (b.ask now r).2 b := by
  have looks := b.looks_of_ask now r
  rw [grants_of_ungranted r now ungranted] at looks
  generalize (b.ask now r).2 = d at looks
  cases looks with
  | untouched => exact .refl _ _
  | refilled => exact fun t₂ late => refill_refill h later late

end Bucket

/-! ## Many looks -/

/-- A look at a bucket, with what is wanted of it. -/
structure Look where
  now : Nat
  request : Request
deriving DecidableEq

namespace Look

/-- The clock never goes back from one instant over some looks to another. -/
def Timely (start : Nat) (ls : List Look) (now : Nat) : Prop :=
  (start :: (ls.map (·.now) ++ [now])).Pairwise (· ≤ ·)

instance (start : Nat) (ls : List Look) (now : Nat) : Decidable (Timely start ls now) :=
  inferInstanceAs (Decidable (List.Pairwise _ _))

variable {start now : Nat} {l : Look} {ls : List Look}

theorem Timely.le (h : Timely start ls now) : start ≤ now :=
  (List.pairwise_cons.1 h).1 now (List.mem_append_right _ (List.mem_singleton_self now))

theorem Timely.head (h : Timely start (l :: ls) now) : start ≤ l.now :=
  (List.pairwise_cons.1 h).1 l.now List.mem_cons_self

theorem Timely.tail (h : Timely start (l :: ls) now) : Timely l.now ls now :=
  (List.pairwise_cons.1 h).2

theorem Timely.mono {earlier : Nat} (h : Timely start ls now) (order : earlier ≤ start) :
    Timely earlier ls now :=
  List.pairwise_cons.2 ⟨fun t member => order.trans ((List.pairwise_cons.1 h).1 t member),
    (List.pairwise_cons.1 h).2⟩

theorem Timely.until {later : Nat} (h : Timely start ls now) (order : now ≤ later) :
    Timely start ls later := by
  unfold Timely at h ⊢
  rw [← List.cons_append, List.pairwise_append] at h ⊢
  refine ⟨h.1, List.pairwise_singleton _ _, fun t member u last => ?_⟩
  obtain rfl := List.mem_singleton.1 last
  exact (h.2.2 t member now (List.mem_singleton_self now)).trans order

end Look

namespace Bucket

section

variable {α : Type} [Quantity α]

/-- The bucket after some looks. -/
def after (b : Bucket α) : List Look → Bucket α
  | [] => b
  | l :: ls => (b.ask l.now l.request).2.after ls

/-- What is heard, look by look. -/
def heard (b : Bucket α) : List Look → List Hearing
  | [] => []
  | l :: ls => (b.ask l.now l.request).1 :: (b.ask l.now l.request).2.heard ls

/-- What is granted in some looks. -/
def granted (b : Bucket α) : List Look → List Grant
  | [] => []
  | l :: ls => l.request.grants l.now (b.ask l.now l.request).1 ++
      (b.ask l.now l.request).2.granted ls

end

variable {c : RateConfig} {b d : Bucket Rat} {t now : Nat} {l : Look} {ls ks : List Look}

theorem after_append (b : Bucket Rat) (ls ks : List Look) :
    b.after (ls ++ ks) = (b.after ls).after ks := by
  induction ls generalizing b with
  | nil => rfl
  | cons l ls ih => exact ih _

/-- A look keeps rate, size and clock in order. -/
theorem Keeps.look (h : b.Keeps c) (timely : Look.Timely b.filledAt (l :: ls) now) :
    (b.ask l.now l.request).2.Keeps c ∧
      Look.Timely (b.ask l.now l.request).2.filledAt ls now := by
  have looks := b.looks_of_ask l.now l.request
  exact ⟨looks.keeps h, timely.tail.mono (looks.filledAt_le timely.head).2⟩

/-- The run: after any looks the level is within its bounds. -/
theorem Keeps.after (h : b.Keeps c) (timely : Look.Timely b.filledAt ls now) :
    (b.after ls).Keeps c ∧ (b.after ls).filledAt ≤ now := by
  induction ls generalizing b with
  | nil => exact ⟨h, timely.le⟩
  | cons l ls ih => exact ih (h.look timely).1 (h.look timely).2

/-- Whoever looks again and again hears the same of two buckets that are alike. -/
theorem Alike.looks (alike : Alike t b d) (timely : Look.Timely t ls now) :
    b.heard ls = d.heard ls ∧ Alike now (b.after ls) (d.after ls) := by
  induction ls generalizing b d t with
  | nil => exact ⟨rfl, alike.later timely.le⟩
  | cons l ls ih =>
    obtain ⟨same, left⟩ := alike.ask timely.head l.request
    obtain ⟨rest, last⟩ := ih left timely.tail
    exact ⟨congrArg₂ List.cons same rest, last⟩

/-- Tokens are granted at the instants of the looks. -/
theorem le_instant_of_granted (b : Bucket Rat) (timely : Look.Timely t ls now) :
    ∀ g ∈ b.granted ls, t ≤ g.instant := by
  induction ls generalizing b t with
  | nil => nofun
  | cons l ls ih =>
    intro g member
    rcases List.mem_append.1 member with first | rest
    · exact (b.looks_of_ask l.now l.request).instants g first ▸ timely.head
    · exact timely.head.trans (ih _ timely.tail g rest)

/-- The run: whatever was looked for, the level is what the grants have left of a bucket that fills
all the time. -/
theorem levelAt_after (h : b.Keeps c) (timely : Look.Timely b.filledAt ls now) :
    (b.after ls).levelAt now = c.steady b.level b.filledAt (b.granted ls) now := by
  induction ls generalizing b with
  | nil => exact levelAt_eq_filled h timely.le
  | cons l ls ih =>
    have reached := levelAt_eq_filled h timely.head
    obtain ⟨kept, timely'⟩ := h.look timely
    have later := le_instant_of_granted (b.ask l.now l.request).2 timely.tail
    have looks := b.looks_of_ask l.now l.request
    show ((b.ask l.now l.request).2.after ls).levelAt now = c.steady b.level b.filledAt
      (l.request.grants l.now (b.ask l.now l.request).1 ++ (b.ask l.now l.request).2.granted ls) now
    rw [ih kept timely']
    generalize (b.ask l.now l.request).2 = d at looks later
    generalize l.request.grants l.now (b.ask l.now l.request).1 = gs at looks
    cases looks with
    | untouched => rfl
    | refilled =>
      show c.steady (b.levelAt l.now) l.now _ now = _
      rw [reached]
      exact RateConfig.steady_filled later timely.tail.le
    | @took n covered =>
      show c.steady ((b.refill l.now).take n).level l.now _ now = _
      rw [take_level]
      show c.steady (max (b.levelAt l.now - n.toNat) 0) l.now _ now = _
      rw [reached]
      rfl

/-- After the same grants nobody can tell two histories apart. -/
theorem alike_of_granted (h : b.Keeps c) (first : Look.Timely b.filledAt ls t)
    (second : Look.Timely b.filledAt ks t) (same : b.granted ls = b.granted ks) :
    Alike t (b.after ls) (b.after ks) := by
  intro now later
  have left := (h.after first).1
  have right := (h.after second).1
  have level : (b.after ls).levelAt now = (b.after ks).levelAt now := by
    rw [levelAt_after h (first.until later), levelAt_after h (second.until later), same]
  simp only [refill, left.rate, left.capacity, right.rate, right.capacity, level]

/-! ## Looks that are put in -/

/-- A look that may have been put in among others. -/
structure Visit where
  look : Look
  extra : Bool
deriving DecidableEq

/-- The looks that have not been put in. -/
def own (vs : List Visit) : List Look := (vs.filter (!·.extra)).map (·.look)

/-- All looks with what they hear. -/
def visits (b : Bucket Rat) (vs : List Visit) : List (Visit × Hearing) :=
  vs.zip (b.heard (vs.map (·.look)))

/-- Looks that are put in and are granted nothing go unnoticed. -/
theorem Alike.without (h : b.Keeps c) (alike : Alike t b d) {vs : List Visit}
    (timely : Look.Timely b.filledAt (vs.map (·.look)) now)
    (since : Look.Timely t (vs.map (·.look)) now)
    (ungranted : ∀ v ∈ b.visits vs, v.1.extra = true → v.2 ≠ .granted) :
    d.heard (own vs) = ((b.visits vs).filter (!·.1.extra)).map (·.2) ∧
      Alike now (b.after (vs.map (·.look))) (d.after (own vs)) := by
  induction vs generalizing b d t with
  | nil => exact ⟨rfl, alike.later since.le⟩
  | cons v vs ih =>
    obtain ⟨kept, timely'⟩ := h.look timely
    have rest : ∀ w ∈ (b.ask v.look.now v.look.request).2.visits vs,
        w.1.extra = true → w.2 ≠ .granted :=
      fun w member => ungranted w (List.mem_cons_of_mem _ member)
    cases extra : v.extra with
    | true =>
      have unheard : (b.ask v.look.now v.look.request).1 ≠ .granted :=
        ungranted (v, _) List.mem_cons_self extra
      have left := (alike_of_ungranted h timely.head unheard).trans (alike.later since.head)
      have own_eq : own (v :: vs) = own vs := by
        simp [own, extra]
      have kept_eq : ((b.visits (v :: vs)).filter (!·.1.extra)).map (·.2) =
          (((b.ask v.look.now v.look.request).2.visits vs).filter (!·.1.extra)).map (·.2) := by
        simp [visits, heard, extra]
      rw [own_eq, kept_eq]
      exact ih kept left timely' since.tail rest
    | false =>
      obtain ⟨same, left⟩ := alike.ask since.head v.look.request
      obtain ⟨answers, last⟩ := ih kept left timely' since.tail rest
      have own_eq : own (v :: vs) = v.look :: own vs := by
        simp [own, extra]
      have kept_eq : ((b.visits (v :: vs)).filter (!·.1.extra)).map (·.2) =
          (b.ask v.look.now v.look.request).1 ::
            (((b.ask v.look.now v.look.request).2.visits vs).filter (!·.1.extra)).map (·.2) := by
        simp [visits, heard, extra]
      rw [own_eq, kept_eq]
      exact ⟨congrArg₂ List.cons same.symm answers, last⟩

/-! ## What is there can be had -/

/-- The level is never negative, so the whole tokens are its floor. -/
theorem tryConsume_iff (h : b.Keeps c) (n : UInt32) (now : Nat) :
    (b.tryConsume n now).1 = true ↔ n.toNat ≤ (b.available now).1.toNat := by
  have taken : (b.tryConsume n now).1 = (b.refill now).covers n := by
    unfold tryConsume
    by_cases covered : (b.refill now).covers n = true <;> simp [covered]
  have enough : (b.refill now).covers n = true ↔
      (n.toNat : Rat) ≤ (b.refill now).level + Quantity.slack := decide_eq_true_iff
  have nonneg : (0 : Rat) ≤ (b.refill now).level + Quantity.slack := by
    have := (refill_keeps h now).sound.nonneg
    rw [Quantity.slack_eq]
    linarith
  have small := n.toNat_lt
  rw [taken, enough]
  show _ ↔ n.toNat ≤ (UInt64.ofNat (min ((b.refill now).level + Quantity.slack).floor.toNat
    (UInt64.size - 1))).toNat
  generalize (b.refill now).level + Quantity.slack = x at nonneg
  have whole : (n.toNat : Rat) ≤ x ↔ n.toNat ≤ x.floor.toNat := by
    have floor : (0 : Int) ≤ x.floor := Rat.le_floor_iff.2 (by exact_mod_cast nonneg)
    rw [← Int.cast_natCast, ← Rat.le_floor_iff]
    omega
  rw [whole, UInt64.toNat_ofNat_of_lt' (by simp only [UInt64.size]; omega)]
  simp only [UInt64.size]
  omega

/-- **The grants alone count.** Whoever looks at a bucket, at instants that never go back: the level
is that of a bucket which fills all the time and has made the same grants; looks that are put in
anywhere and are granted nothing change no other answer and no later level; after the same grants
everyone hears the same for ever; and what is said to be available can be had at that instant, and
no more. -/
theorem grants_alone_count (c : RateConfig) (valid : c.validate = .ok ()) (start : Nat) :
    ∃ b : Bucket Rat, Bucket.full c start = .ok b ∧
      (∀ (ls : List Look) (now : Nat), Look.Timely start ls now →
        (b.after ls).levelAt now = c.steady c.capacity.toNat start (b.granted ls) now) ∧
      (∀ (vs : List Visit) (now : Nat), Look.Timely start (vs.map (·.look)) now →
        (∀ v ∈ b.visits vs, v.1.extra = true → v.2 ≠ .granted) →
        b.heard (own vs) = ((b.visits vs).filter (!·.1.extra)).map (·.2) ∧
          (b.after (own vs)).levelAt now = (b.after (vs.map (·.look))).levelAt now) ∧
      (∀ (ls ks more : List Look) (t now : Nat), Look.Timely start ls t → Look.Timely start ks t →
        Look.Timely t more now → b.granted ls = b.granted ks →
        (b.after ls).heard more = (b.after ks).heard more ∧
          (b.after (ls ++ more)).levelAt now = (b.after (ks ++ more)).levelAt now) ∧
      (∀ (ls : List Look) (n : UInt32) (now : Nat), Look.Timely start ls now →
        (((b.after ls).tryConsume n now).1 = true ↔
          n.toNat ≤ ((b.after ls).available now).1.toNat)) := by
  have full : Keeps c ⟨c.limit, c.capacity, (c.capacity.toNat : Rat), start⟩ :=
    ⟨rfl, rfl, Nat.cast_nonneg _, le_refl _⟩
  refine ⟨_, Bucket.full_of_valid valid start, fun ls now timely => levelAt_after full timely,
    fun vs now timely ungranted => ?_, fun ls ks more t now first second later same => ?_,
    fun ls n now timely => tryConsume_iff (full.after timely).1 n now⟩
  · obtain ⟨answers, alike⟩ := Alike.without full (.refl start _) timely timely ungranted
    exact ⟨answers, (alike.levelAt_eq (Nat.le_refl now)).symm⟩
  · have alike := alike_of_granted full first second same
    obtain ⟨answers, last⟩ := alike.looks later
    rw [after_append, after_append]
    exact ⟨answers, last.levelAt_eq (Nat.le_refl now)⟩

/-- The bucket is emptied and three callers look in vain before two tokens are taken. -/
def curious : List Visit :=
  [⟨⟨0, .consume 5⟩, false⟩, ⟨⟨50000000, .available⟩, true⟩, ⟨⟨120000000, .tryConsume 2⟩, true⟩,
    ⟨⟨150000000, .consume 3⟩, true⟩, ⟨⟨200000000, .tryConsume 2⟩, false⟩]

/-- A caller that looks between its grants is granted the same as without. -/
theorem grants_alone_count_curious :
    RateConfig.trickle.validate = .ok () ∧
      ∃ b : Bucket Rat, Bucket.full .trickle 0 = .ok b ∧
        (b.visits curious).map (·.2) = [.granted, .told 0, .denied, .waiting, .granted] ∧
        b.heard (own curious) = [.granted, .granted] ∧
        (b.after (own curious)).levelAt 350000000 =
          RateConfig.steady .trickle 5 0 [⟨0, 5⟩, ⟨200000000, 2⟩] 350000000 ∧
        (b.after (own curious ++ [⟨300000000, .available⟩])).levelAt 350000000 =
          (b.after (curious.map (·.look) ++ [⟨300000000, .available⟩])).levelAt 350000000 ∧
        ((b.after (own curious)).tryConsume 1 300000000).1 = true := by
  obtain ⟨b, made, levels, unnoticed, alike, whole⟩ := grants_alone_count .trickle rfl 0
  have heard : (b.visits curious).map (·.2) =
      [.granted, .told 0, .denied, .waiting, .granted] := by
    cases made
    decide +kernel
  have granted : b.granted (own curious) = [⟨0, 5⟩, ⟨200000000, 2⟩] ∧
      b.granted (own curious) = b.granted (curious.map (·.look)) := by
    cases made
    decide +kernel
  have ungranted : ∀ v ∈ b.visits curious, v.1.extra = true → v.2 ≠ .granted := by
    cases made
    decide +kernel
  have one : (1 : UInt32).toNat ≤ ((b.after (own curious)).available 300000000).1.toNat := by
    cases made
    decide +kernel
  obtain ⟨answers, -⟩ := unnoticed curious 200000000 (by decide) ungranted
  obtain ⟨-, level⟩ := alike (own curious) (curious.map (·.look)) [⟨300000000, .available⟩]
    200000000 350000000 (by decide) (by decide) (by decide) granted.2
  refine ⟨rfl, b, made, heard, ?_, ?_, level, ?_⟩
  · rw [answers]
    cases made
    decide +kernel
  · rw [levels _ 350000000 (by decide), granted.1]
    rfl
  · exact (whole _ 1 300000000 (by decide)).2 one

end Bucket

end LoadHarness
