import LoadHarness.Pacing.Quantity
import Mathlib

/-!
# Products of doubles

A double that is neither tiny nor huge is a significand of 53 bits times a power of two. The product
of two of them is cut to 53 bits, and the last of these may go up by one. That much is enough to say
between which exact quotients the whole part of a share lies.
-/

namespace LoadHarness.Binary64

open Float.Model Float.Model.UnpackedFloat

/-! ## Cutting a significand -/

theorem mantissa_shift (x : ExtendedMantissa) (k : Nat) :
    (x >>> k).mantissa = x.mantissa / 2 ^ k := by
  induction k with
  | zero => exact (Nat.div_one _).symm
  | succ k ih =>
    show (x >>> k).mantissa / 2 = _
    rw [ih, Nat.div_div_eq_div_mul, pow_succ]

/-- Rounding keeps a significand or takes the next one. -/
theorem roundedMantissa_near (x : ExtendedMantissa) :
    x.mantissa ≤ x.roundedMantissa ∧ x.roundedMantissa ≤ x.mantissa + 1 := by
  obtain ⟨m, round, sticky⟩ := x
  have odd : m % 2 ≤ 1 := Nat.le_of_lt_succ (Nat.mod_lt m (by decide))
  cases round <;> cases sticky
  · exact ⟨Nat.le_refl m, Nat.le_succ m⟩
  · exact ⟨Nat.le_refl m, Nat.le_succ m⟩
  · exact ⟨Nat.le_add_right m _, Nat.add_le_add_left odd m⟩
  · exact ⟨Nat.le_succ m, Nat.le_refl _⟩

/-- A logarithm is known by the powers of two around the number. -/
theorem log2_eq {m k : Nat} (least : 2 ^ k ≤ m) (less : m < 2 ^ (k + 1)) : m.log2 = k :=
  (Nat.log2_eq_iff (Nat.ne_of_gt (lt_of_lt_of_le (Nat.two_pow_pos k) least))).2 ⟨least, less⟩

/-- Of a significand with 53 bits or more that is not tiny the first 53 are kept. -/
theorem shiftToTargetExponent_eq {m : Nat} {e : Int} (least : 52 ≤ m.log2)
    (large : -1022 ≤ m.log2 + e) :
    shiftToTargetExponent Format.binary64 m e .exact =
      (ExtendedMantissa.mk m false false >>> (m.log2 - 52), e + (m.log2 - 52 : Nat)) := by
  have target : Format.binary64.targetExponent (totalExponent m e) = m.log2 + e - 52 := by
    simp only [Format.targetExponent, totalExponent, Format.mantissaBits, Format.minExponent]
    omega
  have amount : (m.log2 + e - 52 - e).toNat = m.log2 - 52 := by omega
  simp only [shiftToTargetExponent, target, shiftToExponent, amount,
    ExtendedMantissa.ofMantissaAndAccuracy]

/-- The first 53 bits of a significand. -/
theorem cut_bounds {m : Nat} (least : 52 ≤ m.log2) :
    2 ^ 52 ≤ m / 2 ^ (m.log2 - 52) ∧ m / 2 ^ (m.log2 - 52) < 2 ^ 53 := by
  have positive : m ≠ 0 := by
    rintro rfl
    cases least
  constructor
  · rw [Nat.le_div_iff_mul_le (Nat.two_pow_pos _), ← pow_add, Nat.add_sub_cancel' least]
    exact Nat.log2_self_le positive
  · rw [Nat.div_lt_iff_lt_mul (Nat.two_pow_pos _), ← pow_add]
    have all : 53 + (m.log2 - 52) = m.log2 + 1 := by omega
    rw [all]
    exact Nat.lt_log2_self

/-- The second shift of a rounding: a significand whose last bit went up may have 54 bits. -/
theorem shiftToTargetExponent_rounded {r : Nat} {e : Int} (least : 2 ^ 52 ≤ r) (most : r ≤ 2 ^ 53)
    (large : -1074 ≤ e) :
    ∃ m k, k ≤ 1 ∧ 2 ^ 52 ≤ m ∧ m < 2 ^ 53 ∧ m * 2 ^ k = r ∧
      (shiftToTargetExponent Format.binary64 r e .exact).1.mantissa = m ∧
      (shiftToTargetExponent Format.binary64 r e .exact).2 = e + (k : Nat) := by
  rcases Nat.lt_or_eq_of_le most with less | rfl
  · have log : r.log2 = 52 := log2_eq least less
    rw [shiftToTargetExponent_eq (Nat.le_of_eq log.symm) (by omega), mantissa_shift, log]
    exact ⟨r, 0, Nat.zero_le 1, least, less, Nat.mul_one r, Nat.div_one r, rfl⟩
  · have log : (2 ^ 53).log2 = 53 := Nat.log2_two_pow
    rw [shiftToTargetExponent_eq (by omega) (by omega), mantissa_shift, log]
    exact ⟨2 ^ 52, 1, Nat.le_refl 1, Nat.le_refl _, by decide, by decide, by decide, rfl⟩

/-- What rounding makes of a significand with 53 bits or more that is not tiny: its first 53 bits,
the last of which may have gone up by one, and nothing else where there are no more. -/
theorem roundWithAccuracy_near (sign : Sign) {m : Nat} {e : Int} (least : 52 ≤ m.log2)
    (large : -1022 ≤ m.log2 + e) :
    ∃ m' k positive, k ≤ 1 ∧ 2 ^ 52 ≤ m' ∧ m' < 2 ^ 53 ∧
      roundWithAccuracy Format.binary64 sign m e .exact =
        .finite sign m' (e + (m.log2 - 52 : Nat) + (k : Nat)) positive ∧
      m / 2 ^ (m.log2 - 52) ≤ m' * 2 ^ k ∧ m' * 2 ^ k ≤ m / 2 ^ (m.log2 - 52) + 1 ∧
      (m.log2 = 52 → m' * 2 ^ k = m) := by
  obtain ⟨cut, cut_less⟩ := cut_bounds least
  have near := roundedMantissa_near (ExtendedMantissa.mk m false false >>> (m.log2 - 52))
  rw [mantissa_shift] at near
  have exactly (log : m.log2 = 52) :
      (ExtendedMantissa.mk m false false >>> (m.log2 - 52)).roundedMantissa = m := by
    rw [log]
    rfl
  unfold roundWithAccuracy
  rw [shiftToTargetExponent_eq least large]
  dsimp only
  generalize (ExtendedMantissa.mk m false false >>> (m.log2 - 52)).roundedMantissa = r
    at near exactly
  obtain ⟨m', k, few, least', less', same, mantissa, exponent⟩ := shiftToTargetExponent_rounded
    (e := e + (m.log2 - 52 : Nat)) (cut.trans near.1) (near.2.trans cut_less) (by omega)
  have positive : 0 < m' := lt_of_lt_of_le (Nat.two_pow_pos 52) least'
  refine ⟨m', k, positive, few, least', less', ?_, same ▸ near.1, same ▸ near.2,
    fun log => same.trans (exactly log)⟩
  simp only [mantissa, exponent, dif_neg (Nat.ne_of_gt positive)]

/-- A significand of 53 bits is not rounded. -/
theorem roundWithAccuracy_exact (sign : Sign) {m : Nat} {e : Int} (least : 2 ^ 52 ≤ m)
    (less : m < 2 ^ 53) (large : -1074 ≤ e) :
    ∃ positive, roundWithAccuracy Format.binary64 sign m e .exact = .finite sign m e positive := by
  have log := log2_eq least less
  obtain ⟨m', k, positive, few, least', -, rounded, -, -, exactly⟩ :=
    roundWithAccuracy_near sign (Nat.le_of_eq log.symm) (e := e) (by omega)
  have same := exactly log
  rcases Nat.le_one_iff_eq_zero_or_eq_one.1 few with rfl | rfl
  · rw [pow_zero, mul_one] at same
    subst same
    simp only [log, Nat.sub_self, Nat.cast_zero, add_zero] at rounded
    exact ⟨positive, rounded⟩
  · omega

/-! ## Packing -/

/-- The implicit bit comes back in front of the other 52. -/
theorem implicit_append {m : Nat} (least : 2 ^ 52 ≤ m) (less : m < 2 ^ 53) :
    (1#1 ++ BitVec.ofNat 52 m).toNat = m := by
  have rest : m % 2 ^ 52 = m - 2 ^ 52 := by omega
  have first : (1 % 2 ^ 1) <<< 52 = 2 ^ 52 := by decide
  simp only [BitVec.toNat_append, BitVec.toNat_ofNat, rest]
  rw [← Nat.shiftLeft_add_eq_or_of_lt (by omega), first, Nat.add_sub_cancel' least]

/-- A significand of 53 bits and an exponent in range survive being packed. -/
theorem unpack_pack {m : Nat} {e : Int} (positive : 0 < m) (least : 2 ^ 52 ≤ m)
    (less : m < 2 ^ 53) (low : -1074 ≤ e) (high : e ≤ 971) :
    UnpackedFloat.unpack Format.binary64
      (UnpackedFloat.pack Format.binary64 (.finite .positive m e positive)) =
        .finite .positive m e positive := by
  obtain ⟨b, biased⟩ : ∃ b : Nat, (b : Int) = e + 1075 := ⟨(e + 1075).toNat, by omega⟩
  have bias : Format.exponentBias Format.binary64 = 1023 := rfl
  have field : (e + (Format.exponentBias Format.binary64 : Nat) + (52 : Nat)).toNat = b := by omega
  have bits : m.log2 + 1 = Format.mantissaBits Format.binary64 := by rw [log2_eq least less]; rfl
  have fits : ¬ 2 ^ 11 ≤ b + 1 := by omega
  have packed : UnpackedFloat.pack Format.binary64 (.finite .positive m e positive) =
      packComponents Format.binary64 .positive (BitVec.ofNat 11 b) (BitVec.ofNat 52 m) := by
    unfold UnpackedFloat.pack
    dsimp only
    rw [field, if_neg fits, if_pos bits]
  have size : (BitVec.ofNat 11 b).toNat = b := by
    rw [BitVec.toNat_ofNat, Nat.mod_eq_of_lt (by omega)]
  have not_special : BitVec.ofNat 11 b ≠ -1#11 := by
    intro same
    have special : b = 2047 := size.symm.trans (congrArg BitVec.toNat same)
    omega
  have not_zero : BitVec.ofNat 11 b ≠ 0#11 := by
    intro same
    have zero : b = 0 := size.symm.trans (congrArg BitVec.toNat same)
    omega
  have exponent : ((BitVec.ofNat 11 b).toNat : Int) -
      ((Format.exponentBias Format.binary64 : Nat) + (52 : Nat)) = e := by omega
  rw [packed]
  unfold UnpackedFloat.unpack
  simp only [unpackMantissa_packComponents, unpackExponent_packComponents,
    unpackSign_packComponents, if_neg not_special, if_neg not_zero, implicit_append least less,
    exponent]
  rfl

/-! ## Doubles of normal size -/

/-- The double is positive and neither tiny nor huge: a significand of 53 bits times a power of
two. -/
structure IsNormal (x : Float) (m : Nat) (e : Int) : Prop where
  least : 2 ^ 52 ≤ m
  less : m < 2 ^ 53
  unpacked : ∃ positive, x.toModel.unpack = .finite .positive m e positive

/-- What has been packed so is normal with these two numbers. -/
theorem isNormal_pack {m : Nat} {e : Int} (positive : 0 < m) (least : 2 ^ 52 ≤ m)
    (less : m < 2 ^ 53) (low : -1074 ≤ e) (high : e ≤ 971) :
    IsNormal (.ofModel (.pack (.finite .positive m e positive))) m e :=
  ⟨least, less, positive, unpack_pack positive least less low high⟩

variable {x y : Float} {a b m n : Nat} {d e : Int}

/-- A whole number of up to 53 bits, filled up to 53. -/
theorem filled_bounds (positive : n ≠ 0) (short : n.log2 ≤ 52) :
    2 ^ 52 ≤ n * 2 ^ (52 - n.log2) ∧ n * 2 ^ (52 - n.log2) < 2 ^ 53 := by
  have all : n.log2 + (52 - n.log2) = 52 := Nat.add_sub_cancel' short
  constructor
  · have scaled := Nat.mul_le_mul_right (2 ^ (52 - n.log2)) (Nat.log2_self_le positive)
    rwa [← pow_add, all] at scaled
  · have scaled := Nat.mul_lt_mul_of_pos_right (Nat.lt_log2_self (n := n))
      (Nat.two_pow_pos (52 - n.log2))
    rwa [← pow_add, Nat.add_right_comm, all] at scaled

/-- Whole numbers of up to 53 bits are doubles. -/
theorem isNormal_ofNat (positive : n ≠ 0) (less : n < 2 ^ 53) :
    IsNormal (Quantity.ofNat n) (n * 2 ^ (52 - n.log2)) (n.log2 - 52) := by
  have short : n.log2 ≤ 52 := Nat.le_of_lt_succ ((Nat.log2_lt positive).2 less)
  obtain ⟨least', less'⟩ := filled_bounds positive short
  have word : (UInt64.ofNat n).toNat = n := UInt64.toNat_ofNat_of_lt' (lt_trans less (by decide))
  have above : compare (n : Int) 0 = .gt := compare_gt_iff_gt.2 (by omega)
  have target : Format.binary64.targetExponent (totalExponent n 0) = n.log2 - 52 := by
    simp only [Format.targetExponent, totalExponent, Format.mantissaBits, Format.minExponent]
    omega
  have amount : ((0 : Int) - (n.log2 - 52)).toNat = 52 - n.log2 := by omega
  have back : (0 : Int) - (52 - n.log2 : Nat) = n.log2 - 52 := by omega
  obtain ⟨h, rounded⟩ :=
    roundWithAccuracy_exact .positive least' less' (e := n.log2 - 52) (by omega)
  have made : UnpackedFloat.ofUInt64 Format.binary64 (UInt64.ofNat n) =
      .finite .positive (n * 2 ^ (52 - n.log2)) (n.log2 - 52) h := by
    simp only [UnpackedFloat.ofUInt64, UnpackedFloat.ofNat, UnpackedFloat.ofInt, word,
      UnpackedFloat.normalize, above, Int.toNat_natCast, UnpackedFloat.round, target,
      decreaseExponent, amount, back, Nat.shiftLeft_eq, rounded]
  show IsNormal (.ofModel (.pack (UnpackedFloat.ofUInt64 Format.binary64 (UInt64.ofNat n)))) _ _
  rw [made]
  exact isNormal_pack h least' less' (by omega) (by omega)

/-- The product of two doubles: the product of their significands without its last 52 or 53 bits,
and the last bit that is left may have gone up by one. -/
theorem isNormal_mul (hx : IsNormal x a d) (hy : IsNormal y b e) (low : -1074 ≤ d + e)
    (high : d + e ≤ 900) :
    ∃ s m k, s ≤ 53 ∧ k ≤ 1 ∧ IsNormal (Quantity.mul x y) m (d + e + (s : Nat) + (k : Nat)) ∧
      a * b / 2 ^ s ≤ m * 2 ^ k ∧ m * 2 ^ k ≤ a * b / 2 ^ s + 1 := by
  have least : 2 ^ 52 * 2 ^ 52 ≤ a * b := Nat.mul_le_mul hx.least hy.least
  have less : a * b < 2 ^ 53 * 2 ^ 53 := Nat.mul_lt_mul'' hx.less hy.less
  have positive : a * b ≠ 0 := by omega
  have long : 104 ≤ (a * b).log2 := (Nat.le_log2 positive).2 (by omega)
  have short : (a * b).log2 < 106 := (Nat.log2_lt positive).2 (by omega)
  obtain ⟨m, k, h, few, least', less', rounded, below, above, -⟩ :=
    roundWithAccuracy_near .positive (m := a * b) (e := d + e) (by omega) (by omega)
  refine ⟨(a * b).log2 - 52, m, k, by omega, few, ?_, below, above⟩
  obtain ⟨ha, unpacked_x⟩ := hx.unpacked
  obtain ⟨hb, unpacked_y⟩ := hy.unpacked
  have product : UnpackedFloat.mul Format.binary64 x.toModel.unpack y.toModel.unpack =
      .finite .positive m (d + e + ((a * b).log2 - 52 : Nat) + (k : Nat)) h := by
    rw [unpacked_x, unpacked_y]
    exact rounded
  show IsNormal (.ofModel (.pack (UnpackedFloat.mul Format.binary64 _ _))) _ _
  rw [product]
  exact isNormal_pack h least' less' (by omega) (by omega)

/-- The whole part of a double below 2⁵³. -/
theorem whole_of_isNormal {t : Nat} (h : IsNormal x m (-t)) :
    (Quantity.whole x).toNat = m / 2 ^ t := by
  obtain ⟨positive, unpacked⟩ := h.unpacked
  have amount : ((-t : Int) - 0).toNat = 0 := by omega
  have back : ((0 : Int) - (-t - (0 : Nat))).toNat = t := by omega
  have whole : UnpackedFloat.toInt 0 (UInt64.size - 1) (.finite .positive m (-t) positive) =
      (m / 2 ^ t : Nat) := by
    simp only [UnpackedFloat.toInt, roundToInt, decreaseExponent, amount, shiftToExponent, back,
      mantissa_shift, ExtendedMantissa.ofMantissaAndAccuracy, Nat.shiftLeft_zero, Sign.apply]
  have fits : m / 2 ^ t < UInt64.size := by
    have := Nat.div_le_self m (2 ^ t)
    have := h.less
    have : UInt64.size = 2 ^ 64 := rfl
    omega
  show x.toModel.unpack.toUInt64.toNat = _
  rw [unpacked, UnpackedFloat.toUInt64, whole, Int.toNat_natCast,
    UInt64.ofNatClamp_eq_ofNat _ fits, UInt64.toNat_ofNat_of_lt' fits]

/-! ## Shares -/

/-- The whole part of a share of `n`: no less than that of the exact share, and no more than if the
exact share were larger by 2⁻³⁶. -/
theorem whole_share {p : Float} (positive : n ≠ 0) (small : n < 2 ^ 17) (hp : IsNormal p m (-53)) :
    n * m / 2 ^ 53 ≤ (Quantity.whole (Quantity.mul (Quantity.ofNat n) p)).toNat ∧
      (Quantity.whole (Quantity.mul (Quantity.ofNat n) p)).toNat ≤ (n * m + 2 ^ 17) / 2 ^ 53 := by
  have short : n.log2 < 17 := (Nat.log2_lt positive).2 small
  have hn := isNormal_ofNat positive (lt_trans small (by decide))
  obtain ⟨s, m', k, cut, few, product, below, above⟩ :=
    isNormal_mul hn hp (by omega) (by omega)
  obtain ⟨u, bits⟩ : ∃ u, s + u = 53 + (52 - n.log2) := ⟨53 + (52 - n.log2) - s, by omega⟩
  obtain ⟨t, rest⟩ : ∃ t, u = t + k := ⟨u - k, by omega⟩
  have exponent : (n.log2 - 52 : Int) + -53 + s + k = -t := by omega
  rw [exponent] at product
  rw [whole_of_isNormal product]
  have scale (x : Nat) : x * 2 ^ (52 - n.log2) / 2 ^ s / 2 ^ u = x / 2 ^ 53 := by
    rw [Nat.div_div_eq_div_mul, ← pow_add, bits, pow_add,
      Nat.mul_div_mul_right _ _ (Nat.two_pow_pos _)]
  have whole : m' * 2 ^ k / 2 ^ u = m' / 2 ^ t := by
    rw [rest, pow_add, Nat.mul_div_mul_right _ _ (Nat.two_pow_pos k)]
  rw [Nat.mul_right_comm] at below above
  constructor
  · calc n * m / 2 ^ 53 = n * m * 2 ^ (52 - n.log2) / 2 ^ s / 2 ^ u := (scale _).symm
      _ ≤ m' * 2 ^ k / 2 ^ u := Nat.div_le_div_right below
      _ = m' / 2 ^ t := whole
  · have unit : 2 ^ s ≤ 2 ^ 17 * 2 ^ (52 - n.log2) := by
      rw [← pow_add]
      exact Nat.pow_le_pow_right (by decide) (by omega)
    have sum : n * m * 2 ^ (52 - n.log2) + 2 ^ s ≤ (n * m + 2 ^ 17) * 2 ^ (52 - n.log2) := by
      rw [add_mul]
      exact Nat.add_le_add_left unit _
    calc m' / 2 ^ t = m' * 2 ^ k / 2 ^ u := whole.symm
      _ ≤ (n * m * 2 ^ (52 - n.log2) / 2 ^ s + 1) / 2 ^ u := Nat.div_le_div_right above
      _ = (n * m * 2 ^ (52 - n.log2) + 2 ^ s) / 2 ^ s / 2 ^ u := by
        rw [Nat.add_div_right _ (Nat.two_pow_pos s)]
      _ ≤ (n * m + 2 ^ 17) * 2 ^ (52 - n.log2) / 2 ^ s / 2 ^ u :=
        Nat.div_le_div_right (Nat.div_le_div_right sum)
      _ = (n * m + 2 ^ 17) / 2 ^ 53 := scale _

end LoadHarness.Binary64
