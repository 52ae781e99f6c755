import LoadHarness.Traffic.Draw
import Mathlib.Algebra.Order.Ring.Nat

/-!
# What a draw can give

A word gives a number only if the low part of its product with the size of the range lies in the
zone, and no zone ends before the size does. So each number below the size is given by the first
word whose product reaches it, and no word gives any other number.
-/

namespace LoadHarness

namespace WordSource

variable {bits size zone k : Nat}

theorem below_lt (positive : 0 < size) (source : WordSource) :
    (below bits size zone source).1 < size := by
  induction source with
  | nil => exact positive
  | cons w rest ih =>
    rw [below]
    split
    · refine Nat.div_lt_of_lt_mul ?_
      exact Nat.mul_lt_mul_of_pos_right (Nat.mod_lt _ (Nat.pow_pos (by decide))) positive
    · exact ih

/-- A draw that keeps one of the words has come to its end: no word after them makes a difference. -/
theorem below_append {source : WordSource}
    (kept : ∃ w ∈ source, w.toNat % 2 ^ bits * size % 2 ^ bits ≤ zone) (later : WordSource) :
    (below bits size zone (source ++ later)).1 = (below bits size zone source).1 := by
  induction source with
  | nil =>
    obtain ⟨w, member, -⟩ := kept
    cases member
  | cons w rest ih =>
    rw [List.cons_append, below, below]
    split
    · rfl
    · next thrown =>
      obtain ⟨v, member, kept⟩ := kept
      rcases List.mem_cons.1 member with rfl | among
      · exact absurd kept thrown
      · exact ih ⟨v, among, kept⟩

theorem below_of_kept {w : UInt64} {rest : WordSource} (word : w.toNat < 2 ^ bits)
    (kept : w.toNat * size % 2 ^ bits ≤ zone) :
    below bits size zone (w :: rest) = (w.toNat * size / 2 ^ bits, rest) := by
  rw [below, Nat.pow_eq, Nat.mod_eq_of_lt word, if_pos kept]

theorem pred_le_shiftedZone : size - 1 ≤ shiftedZone bits size := by
  have stretch : 1 ≤ Nat.pow 2 (bits - 1 - size.log2) := Nat.pow_pos (by decide)
  exact Nat.sub_le_sub_right (Nat.le_mul_of_pos_right size stretch) 1

/-- The first word whose product with the size reaches `k` full ranges of words. -/
def firstWord (bits size k : Nat) : Nat := (k * 2 ^ bits + (size - 1)) / size

/-- The product of the first word passes what it has to reach by less than the size. -/
theorem firstWord_mul (bits k : Nat) (positive : 0 < size) :
    ∃ r ≤ size - 1, firstWord bits size k * size = k * 2 ^ bits + r := by
  have split := Nat.div_add_mod (k * 2 ^ bits + (size - 1)) size
  have rest := Nat.mod_lt (k * 2 ^ bits + (size - 1)) positive
  rw [Nat.mul_comm] at split
  exact ⟨size - 1 - (k * 2 ^ bits + (size - 1)) % size, by omega, by unfold firstWord; omega⟩

theorem firstWord_lt (fits : size ≤ 2 ^ bits) (lt : k < size) :
    firstWord bits size k < 2 ^ bits := by
  have positive : 0 < size := Nat.zero_lt_of_lt lt
  refine Nat.div_lt_of_lt_mul ?_
  calc k * 2 ^ bits + (size - 1)
      < k * 2 ^ bits + 2 ^ bits := by omega
    _ = (k + 1) * 2 ^ bits := (Nat.succ_mul _ _).symm
    _ ≤ size * 2 ^ bits := Nat.mul_le_mul_right _ lt

/-- A draw can give every number below its size, and no other. -/
theorem lt_iff_drawn (positive : 0 < size) (fits : size ≤ 2 ^ bits) (word : bits ≤ 64) :
    k < size ↔ ∃ source, (below bits size (shiftedZone bits size) source).1 = k := by
  constructor
  · intro lt
    obtain ⟨r, small, product⟩ := firstWord_mul bits k positive
    have range := firstWord_lt fits lt
    have whole : (UInt64.ofNat (firstWord bits size k)).toNat = firstWord bits size k := by
      have narrow : 2 ^ bits ≤ 2 ^ 64 := Nat.pow_le_pow_right (by decide) word
      exact Nat.mod_eq_of_lt (by omega)
    have low : r < 2 ^ bits := by omega
    have rest : firstWord bits size k * size % 2 ^ bits = r := by
      rw [product, Nat.mul_comm, Nat.mul_add_mod, Nat.mod_eq_of_lt low]
    have high : firstWord bits size k * size / 2 ^ bits = k := by
      rw [product, Nat.mul_comm, Nat.mul_add_div (by omega), Nat.div_eq_of_lt low, Nat.add_zero]
    refine ⟨[UInt64.ofNat (firstWord bits size k)], ?_⟩
    rw [below_of_kept (by omega), whole, high]
    rw [whole, rest]
    exact small.trans pred_le_shiftedZone
  · rintro ⟨source, rfl⟩
    exact below_lt positive source

/-- A number is drawn from the range. -/
theorem oneTo_mem {n : Nat} (positive : 0 < n) (source : WordSource) :
    1 ≤ (oneTo n source).1 ∧ (oneTo n source).1 ≤ n := by
  have lt : (below 64 n (shiftedZone 64 n) source).1 < n := below_lt positive source
  constructor
  · exact Nat.succ_pos _
  · exact lt

/-- A number from 1 to `n` is drawn from this word. -/
def Settles (n : Nat) (w : UInt64) : Prop := w.toNat * n % 2 ^ 64 ≤ shiftedZone 64 n

theorem oneTo_append {n : Nat} {source : WordSource} (settled : ∃ w ∈ source, Settles n w)
    (later : WordSource) : (oneTo n (source ++ later)).1 = (oneTo n source).1 := by
  obtain ⟨w, member, settles⟩ := settled
  have kept : w.toNat % 2 ^ 64 * n % 2 ^ 64 ≤ shiftedZone 64 n := by
    rwa [Nat.mod_eq_of_lt w.toNat_lt]
  exact congrArg (· + 1) (below_append ⟨w, member, kept⟩ later)

/-- Every quantum can be drawn, and nothing else. -/
theorem quantum_iff {q : Nat} : q ≤ Mix.total ↔ ∃ source, (quantum source).1 = q :=
  Nat.lt_succ_iff.symm.trans (lt_iff_drawn (by decide) (by decide) (by decide))

end WordSource

end LoadHarness
