import LoadHarness.Proofs.Json.Numbers

/-!
# Doubles that are read as they are written

The digits of a finite double stand around its point or in front of an exponent. Either way they
make a number, since there is no zero in front of the whole digits: only what is below one has no
digits of its own.
-/

namespace LoadHarness

namespace Decimal

/-- Nothing to move out to the left of the point when there are no digits. -/
def Scientific.Sized (s : Scientific) : Prop := s.digits ≠ 0 ∨ s.exponent ≤ 0

/-- No interval has zero for its shortest number. -/
theorem Interval.digits_onGrid {i : Interval} {e : Int} {s : Scientific}
    (h : i.onGrid e = some s) : s.digits ≠ 0 := by
  unfold Interval.onGrid at h
  dsimp only at h
  split at h
  · next both =>
    simp only [Bool.and_eq_true, bne_iff_ne] at both
    split at h
    · cases h
      exact both.1.2
    · split at h
      · cases h
        exact Nat.succ_ne_zero _
      · cases h
        dsimp only
        split
        · exact both.1.2
        · exact Nat.succ_ne_zero _
  · split at h
    · next lower =>
      simp only [Bool.and_eq_true, bne_iff_ne] at lower
      cases h
      exact lower.2
    · split at h
      · cases h
        exact Nat.succ_ne_zero _
      · cases h

/-- A search without a point ends below the last grid. -/
theorem Interval.search_eq (i : Interval) (n : Nat) (e : Int) :
    (i.search n e).digits ≠ 0 ∨ i.search n e = ⟨i.value / i.scale, e - n⟩ := by
  induction n generalizing e with
  | zero => simp [Interval.search]
  | succ n ih =>
    rw [Interval.search]
    cases found : i.onGrid e with
    | some s => exact .inl (digits_onGrid found)
    | none =>
      rw [Option.getD_none, show e - (n + 1 : Nat) = e - 1 - n by omega]
      exact ih (e - 1)

/-- Taking off zeros keeps that. -/
theorem Scientific.Sized.normal {s : Scientific} (h : s.Sized) (n : Nat) : (s.normal n).Sized := by
  induction n generalizing s with
  | zero => exact h
  | succ n ih =>
    unfold Scientific.normal
    split
    · next zeros => exact ih (.inl (by dsimp only; omega))
    · exact h

/-- A double whose whole part is nothing is below one, and so is its power of two. -/
theorem log2_add_exponent_neg {b : Binary64} (positive : b.significand ≠ 0)
    (below : (intervalOf b).value / (intervalOf b).scale = 0) :
    (Nat.log2 b.significand : Int) + b.exponent < 0 := by
  have scale : 0 < (intervalOf b).scale := Nat.mul_pos (by decide) (Nat.pow_pos (by decide))
  have less : 4 * b.significand * Nat.pow 2 b.exponent.toNat < 4 * Nat.pow 2 (-b.exponent).toNat :=
    (Nat.div_eq_zero_iff_lt scale).1 below
  rcases Int.lt_or_le b.exponent 0 with small | large
  · have up : b.exponent.toNat = 0 := by omega
    rw [up] at less
    have bound : b.significand < 2 ^ (-b.exponent).toNat := by
      rw [Nat.pow_eq, Nat.pow_eq, Nat.pow_zero] at less
      omega
    have log := (Nat.log2_lt positive).2 bound
    omega
  · have down : (-b.exponent).toNat = 0 := by omega
    have up : 0 < Nat.pow 2 b.exponent.toNat := Nat.pow_pos (by decide)
    have most : 1 * 1 ≤ b.significand * Nat.pow 2 b.exponent.toNat :=
      Nat.mul_le_mul (by omega) up
    rw [down, Nat.mul_assoc] at less
    simp only [Nat.pow_eq, Nat.pow_zero] at less most
    omega

/-- The search for the shortest number finds one of this kind. -/
theorem sized_shortest {b : Binary64} (positive : b.significand ≠ 0) : (shortest b).Sized := by
  refine Scientific.Sized.normal ?_ 25
  rcases Interval.search_eq (intervalOf b) 25
    (((Nat.log2 b.significand : Int) + b.exponent) * 1233 / 4096 + 1) with found | last
  · exact .inl found
  · rw [last]
    by_cases below : (intervalOf b).value / (intervalOf b).scale = 0
    · have small := log2_add_exponent_neg positive below
      right
      dsimp only
      omega
    · exact .inl below

end Decimal

namespace JsonNumber

open Text (AllDigits allDigits_append allDigits_toDigits allDigits_zeros)

variable {ds : List Char}

/-! The four layouts of digits -/

theorem tailText_fraction (given : ds ≠ []) (all : AllDigits ds) : TailText ('.' :: ds) := by
  simpa using TailText.fraction given all .none

/-- The layout of a number without a fraction. -/
theorem magnitudeText_whole {n : Nat} (given : ds ≠ []) (all : AllDigits ds)
    (lead : ds.head? = some '0' → ds.length = 1 ∧ n = 0) :
    MagnitudeText (ds ++ List.replicate n '0' ++ ['.', '0']) := by
  refine .mk (by simp [given]) (allDigits_append.2 ⟨all, allDigits_zeros n⟩) (fun zero => ?_)
    (tailText_fraction (by simp) (allDigits_zeros 1))
  rw [List.head?_append, Option.or_of_isSome (by simp [given])] at zero
  obtain ⟨one, rfl⟩ := lead zero
  simpa using one

/-- The layout of a number with digits on both sides of the point. -/
theorem magnitudeText_mixed {n : Nat} (all : AllDigits ds) (lead : ds.head? ≠ some '0')
    (above : 0 < n) (below : n < ds.length) :
    MagnitudeText (ds.take n ++ '.' :: ds.drop n) := by
  refine .mk (List.ne_nil_of_length_pos (by rw [List.length_take]; omega)) (all.take n)
    (fun zero => ?_)
    (tailText_fraction (List.ne_nil_of_length_pos (by rw [List.length_drop]; omega)) (all.drop n))
  rw [List.head?_take, if_neg (by omega)] at zero
  exact absurd zero lead

/-- The layout of a number below one. -/
theorem magnitudeText_small (n : Nat) (given : ds ≠ []) (all : AllDigits ds) :
    MagnitudeText ('0' :: '.' :: (List.replicate n '0' ++ ds)) :=
  @MagnitudeText.mk ['0'] _ (by simp) (allDigits_zeros 1) (fun _ => rfl)
    (tailText_fraction (by simp [given]) (allDigits_append.2 ⟨allDigits_zeros n, all⟩))

/-- The layout of a number with an exponent. -/
theorem magnitudeText_scaled {scale : List Char} (given : ds ≠ []) (all : AllDigits ds)
    (scaled : ScaleText scale) :
    MagnitudeText (ds.take 1 ++ ((if ds.length = 1 then [] else '.' :: ds.drop 1) ++ scale)) := by
  have point := List.length_pos_iff.2 given
  have one : (ds.take 1).length = 1 := by rw [List.length_take]; omega
  refine .mk (List.ne_nil_of_length_pos (by omega)) (all.take 1) (fun _ => one) ?_
  split
  · exact .whole scaled
  · have more : ds.drop 1 ≠ [] := List.ne_nil_of_length_pos (by rw [List.length_drop]; omega)
    exact .fraction more (all.drop 1) scaled

/-- An exponent that is not negative gets its plus sign from the layout. -/
theorem scaleText_exponent (point : Int) :
    ScaleText ((if 0 < point then "e+" else "e") ++ toString (point - 1)).toList := by
  rw [String.toList_append]
  cases sign : point - 1 with
  | ofNat n =>
    have above : (0 : Int) ≤ Int.ofNat n := Int.natCast_nonneg n
    rw [if_pos (by omega), Int.ofNat_eq_natCast, toList_ofNat]
    exact .exponent (.inl rfl) Nat.toDigits_ne_nil (allDigits_toDigits n)
  | negSucc n =>
    rw [if_neg (by omega), toList_negSucc]
    exact .exponent (.inr rfl) Nat.toDigits_ne_nil (allDigits_toDigits (n + 1))

/-- Whatever layout is chosen, it is that of a magnitude. -/
theorem magnitudeText_layout {f : Decimal.FloatFormat} (plus : f.plus = true)
    {s : Decimal.Scientific} (sized : s.Sized) : MagnitudeText (f.layout s).toList := by
  have all := allDigits_toDigits s.digits
  have given := Nat.toDigits_ne_nil (n := s.digits) (b := 10)
  have zero (h : (Nat.toDigits 10 s.digits).head? = some '0') :
      (Nat.toDigits 10 s.digits).length = 1 ∧ s.exponent ≤ 0 := by
    have none : s.digits = 0 := Nat.eq_zero_of_not_pos fun above => Text.head_toDigits above h
    exact ⟨by rw [none]; rfl, sized.resolve_left (· none)⟩
  unfold Decimal.FloatFormat.layout
  dsimp only
  generalize Nat.toDigits 10 s.digits = ds at *
  split
  · next whole =>
    rw [String.toList_append, String.toList_ofList]
    exact magnitudeText_whole given all fun h => ⟨(zero h).1, by have := (zero h).2; omega⟩
  split
  · next whole mixed =>
    have digits := magnitudeText_mixed (n := (ds.length + s.exponent).toNat) all
      (fun h => by have := zero h; omega) (by omega) (by omega)
    simpa using digits
  split
  · rw [String.toList_append, String.toList_ofList, String.toList_ofList]
    exact magnitudeText_small _ given all
  · have scaled := magnitudeText_scaled given all (scaleText_exponent (ds.length + s.exponent))
    have fraction : (if ds.length = 1 then "" else "." ++ String.ofList (ds.drop 1)).toList =
        if ds.length = 1 then [] else '.' :: ds.drop 1 := by
      split
      · rfl
      · rw [String.toList_append, String.toList_ofList, String.toList_ofList]
        rfl
    simp only [String.toList_append, String.toList_ofList, List.append_assoc, fraction, plus,
      Bool.true_and, decide_eq_true_eq]
    simpa only [String.toList_append, List.append_assoc] using scaled

/-- A finite double is written as a number. -/
theorem numberText_render {f : Decimal.FloatFormat} (plus : f.plus = true) {x : Float}
    (finite : (Binary64.decode x).isSome) : NumberText (f.render x).toList := by
  obtain ⟨b, decoded⟩ := Option.isSome_iff_exists.1 finite
  have magnitude : MagnitudeText
      (if b.significand = 0 then "0.0" else f.layout (Decimal.shortest b)).toList := by
    split
    · exact magnitudeText_small 0 (by simp) (allDigits_zeros 1)
    · next positive => exact magnitudeText_layout plus (Decimal.sized_shortest positive)
  unfold Decimal.FloatFormat.render
  rw [decoded]
  dsimp only
  rw [String.toList_append]
  cases Binary64.signBit x with
  | false => exact .plain magnitude
  | true => exact .negative magnitude

end JsonNumber

end LoadHarness
