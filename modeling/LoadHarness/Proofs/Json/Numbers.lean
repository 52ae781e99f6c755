import LoadHarness.Json.Record
import Mathlib.Data.Nat.Digits.Defs

/-!
# Numbers that are read as they are written

The grammar of numbers says what a written number is. The reader takes one up to its end, whatever
follows it that could not be a part of it, and whole numbers in decimal digits are in the grammar
and read back as the same words.
-/

namespace LoadHarness

namespace Text

theorem digitValue_of_isDigit {c : Char} (h : c.isDigit = true) :
    digitValue c = c.toNat - '0'.toNat := by
  simp only [Char.isDigit, Bool.and_eq_true, decide_eq_true_eq] at h
  exact if_pos h

theorem isDigitIn_of_isDigit {c : Char} (h : c.isDigit = true) : isDigitIn 10 c = true := by
  have value := digitValue_of_isDigit h
  simp only [Char.isDigit, Bool.and_eq_true, decide_eq_true_eq] at h
  have upper : c.toNat ≤ '9'.toNat := h.2
  have nine : '9'.toNat = 57 := rfl
  have zero : '0'.toNat = 48 := rfl
  rw [isDigitIn, decide_eq_true_eq]
  omega

/-- A run of decimal digits. -/
def AllDigits (cs : List Char) : Prop := ∀ c ∈ cs, isDigitIn 10 c = true

theorem allDigits_append {a b : List Char} :
    AllDigits (a ++ b) ↔ AllDigits a ∧ AllDigits b := List.forall_mem_append

theorem allDigits_zeros (n : Nat) : AllDigits (List.replicate n '0') := fun c member => by
  rw [List.eq_of_mem_replicate member]
  decide

theorem allDigits_toDigits (n : Nat) : AllDigits (Nat.toDigits 10 n) := fun _ member =>
  isDigitIn_of_isDigit (Nat.isDigit_of_mem_toDigits (by decide) (by decide) member)

theorem AllDigits.take {cs : List Char} (h : AllDigits cs) (n : Nat) : AllDigits (cs.take n) :=
  fun c member => h c (List.mem_of_mem_take member)

theorem AllDigits.drop {cs : List Char} (h : AllDigits cs) (n : Nat) : AllDigits (cs.drop n) :=
  fun c member => h c (List.mem_of_mem_drop member)

/-- The digits of a number give it back. -/
theorem ofDigits_toDigits (n : Nat) : ofDigits 10 (Nat.toDigits 10 n) = n := by
  have same : ∀ (cs : List Char) (start : Nat), (∀ c ∈ cs, c.isDigit = true) →
      cs.foldl (fun n c => n * 10 + digitValue c) start = Nat.ofDigitChars 10 cs start := by
    intro cs start digits
    induction cs generalizing start with
    | nil => rfl
    | cons c rest ih =>
      rw [List.foldl_cons, ih _ fun d member => digits d (List.mem_cons_of_mem _ member),
        Nat.ofDigitChars_cons, digitValue_of_isDigit (digits c List.mem_cons_self), Nat.mul_comm]
  rw [ofDigits, same _ _ fun _ => Nat.isDigit_of_mem_toDigits (by decide) (by decide),
    Nat.ofDigitChars_toDigits (by decide) (by decide)]

@[simp] theorem readNat_toDigits (n : Nat) : readNat 10 (Nat.toDigits 10 n) = some n := by
  have some : (Nat.toDigits 10 n).isEmpty = false := List.isEmpty_eq_false_iff.2 Nat.toDigits_ne_nil
  have digits : (Nat.toDigits 10 n).all (isDigitIn 10) = true :=
    List.all_eq_true.2 (allDigits_toDigits n)
  rw [readNat, some, digits, ofDigits_toDigits]
  rfl

/-- Only zero is written with a zero in front. -/
theorem head_toDigits {n : Nat} (h : 0 < n) : (Nat.toDigits 10 n).head? ≠ some '0' := by
  induction n using Nat.strongRecOn with
  | _ n ih =>
    by_cases small : n < 10
    · have nonzero : ∀ k < 10, 0 < k → [Nat.digitChar k].head? ≠ some '0' := by decide
      rw [Nat.toDigits_of_lt_base small]
      exact nonzero n small h
    · have higher := ih (n / 10) (by omega) (by omega)
      rw [Nat.toDigits_of_base_le (by decide) (by omega)]
      rwa [List.head?_append, Option.or_of_isSome (by simp [Nat.toDigits_ne_nil])]

end Text

namespace JsonNumber

open Text (AllDigits isDigitIn)

/-- Not in front of this: what could go on a number. -/
def Ends (rest : List Char) : Prop :=
  ∀ c ∈ rest.head?, isDigitIn 10 c = false ∧ c ≠ '.' ∧ c ≠ 'e' ∧ c ≠ 'E'

/-- The written exponents, which have a sign and may be missing. -/
inductive ScaleText : List Char → Prop
  | none : ScaleText []
  | exponent {sign : Char} {digits : List Char} (signed : sign = '+' ∨ sign = '-')
    (given : digits ≠ []) (all : AllDigits digits) : ScaleText ('e' :: sign :: digits)

/-- The written fractions, which may be missing, with their exponents. -/
inductive TailText : List Char → Prop
  | whole {scale : List Char} (scaled : ScaleText scale) : TailText scale
  | fraction {digits scale : List Char} (given : digits ≠ []) (all : AllDigits digits)
    (scaled : ScaleText scale) : TailText ('.' :: (digits ++ scale))

/-- The written numbers without a sign: whole digits without a leading zero, then the tail. -/
inductive MagnitudeText : List Char → Prop
  | mk {digits tail : List Char} (given : digits ≠ []) (all : AllDigits digits)
    (lead : digits.head? = some '0' → digits.length = 1) (tailed : TailText tail) :
    MagnitudeText (digits ++ tail)

/-- The written numbers. -/
inductive NumberText : List Char → Prop
  | plain {cs : List Char} (magnitude : MagnitudeText cs) : NumberText cs
  | negative {cs : List Char} (magnitude : MagnitudeText cs) : NumberText ('-' :: cs)

variable {cs rest : List Char}

theorem spanDigits_append (all : AllDigits cs) (stop : ∀ c ∈ rest.head?, isDigitIn 10 c = false) :
    Decimal.spanDigits (cs ++ rest) = (cs, rest) := by
  have kept : rest.takeWhile (isDigitIn 10) = [] ∧ rest.dropWhile (isDigitIn 10) = rest := by
    cases rest with
    | nil => exact ⟨rfl, rfl⟩
    | cons c r => simp [stop c rfl]
  rw [Decimal.spanDigits, List.takeWhile_append_of_pos all, List.dropWhile_append_of_pos all,
    kept.1, kept.2, List.append_nil]

theorem Ends.stop (h : Ends rest) : ∀ c ∈ rest.head?, isDigitIn 10 c = false :=
  fun c head => (h c head).1

/-- Behind whole digits or a fraction nothing goes on with digits, and behind whole digits an
exponent is not a fraction. -/
theorem ScaleText.stop (h : ScaleText cs) (ends : Ends rest) :
    ∀ c ∈ (cs ++ rest).head?, isDigitIn 10 c = false ∧ c ≠ '.' := by
  cases h with
  | none => exact fun c head => ⟨(ends c head).1, (ends c head).2.1⟩
  | exponent signed given all =>
    intro c head
    cases head
    decide

theorem TailText.stop (h : TailText cs) (ends : Ends rest) :
    ∀ c ∈ (cs ++ rest).head?, isDigitIn 10 c = false := by
  cases h with
  | whole scaled => exact fun c head => (scaled.stop ends c head).1
  | fraction given all scaled =>
    intro c head
    cases head
    decide

/-- An exponent is read as far as it goes. -/
theorem ScaleText.span_append (h : ScaleText cs) (ends : Ends rest) :
    spanScale (cs ++ rest) = some (cs, rest) := by
  cases h with
  | none =>
    unfold spanScale
    rw [List.nil_append]
    split
    · exact absurd rfl (ends _ rfl).2.2.1
    · exact absurd rfl (ends _ rfl).2.2.2
    · rfl
  | @exponent sign digits signed given all =>
    have taken := spanDigits_append all ends.stop
    have some := List.isEmpty_eq_false_iff.2 given
    rcases signed with rfl | rfl
    · simp [spanScale, spanExponent, taken, some]
    · simp [spanScale, spanExponent, taken, some]

/-- So is a fraction with or without one. -/
theorem TailText.span_append (h : TailText cs) (ends : Ends rest) :
    spanTail (cs ++ rest) = some (cs, rest) := by
  cases h with
  | whole scaled =>
    have read := scaled.span_append ends
    unfold spanTail
    split
    · next r front =>
      have point := (scaled.stop ends '.' (by rw [front]; rfl)).2
      exact absurd rfl point
    · exact read
  | @fraction digits scale given all scaled =>
    have read := scaled.span_append ends
    have taken : Decimal.spanDigits (digits ++ (scale ++ rest)) = (digits, scale ++ rest) :=
      spanDigits_append all fun c head => (scaled.stop ends c head).1
    have some := List.isEmpty_eq_false_iff.2 given
    simp [spanTail, taken, some, read]

/-- So is a magnitude. -/
theorem MagnitudeText.span_append (h : MagnitudeText cs) (ends : Ends rest) :
    spanMagnitude (cs ++ rest) = some (cs, rest) := by
  obtain @⟨digits, tail, given, all, lead, tailed⟩ := h
  have read := tailed.span_append ends
  have taken : Decimal.spanDigits (digits ++ (tail ++ rest)) = (digits, tail ++ rest) :=
    spanDigits_append all (tailed.stop ends)
  have some := List.isEmpty_eq_false_iff.2 given
  have zero : (digits.head? == Option.some '0' && decide (1 < digits.length)) = false := by
    rw [Bool.and_eq_false_iff]
    by_cases front : digits.head? = Option.some '0'
    · right
      simp [lead front]
    · left
      simpa using front
  rw [List.append_assoc, spanMagnitude, taken]
  dsimp only
  rw [some, zero, read]
  rfl

/-- A magnitude begins with a digit. -/
theorem MagnitudeText.head (h : MagnitudeText cs) : ∃ c r, cs = c :: r ∧ isDigitIn 10 c = true := by
  obtain @⟨digits, tail, given, all, -, -⟩ := h
  obtain ⟨c, r, rfl⟩ := List.exists_cons_of_ne_nil given
  exact ⟨c, r ++ tail, rfl, all c List.mem_cons_self⟩

/-- A written number is read up to its end. -/
theorem NumberText.span_append (h : NumberText cs) (ends : Ends rest) :
    span (cs ++ rest) = some (cs, rest) := by
  cases h with
  | plain magnitude =>
    have read := magnitude.span_append ends
    obtain ⟨c, r, rfl, digit⟩ := magnitude.head
    unfold span
    split
    · next r front =>
      cases front
      cases digit
    · exact read
  | negative magnitude =>
    have read := magnitude.span_append ends
    simp [span, read]

/-- A number begins with a digit or a sign. -/
theorem NumberText.head (h : NumberText cs) :
    ∃ c r, cs = c :: r ∧ (isDigitIn 10 c = true ∨ c = '-') := by
  cases h with
  | plain magnitude =>
    obtain ⟨c, r, same, digit⟩ := magnitude.head
    exact ⟨c, r, same, .inl digit⟩
  | negative magnitude => exact ⟨_, _, rfl, .inr rfl⟩

/-! Whole numbers -/

/-- The digits of a number are a magnitude, without a zero in front. -/
theorem magnitudeText_toDigits (n : Nat) : MagnitudeText (Nat.toDigits 10 n) := by
  have lead (zero : (Nat.toDigits 10 n).head? = some '0') : (Nat.toDigits 10 n).length = 1 := by
    rcases Nat.eq_zero_or_pos n with rfl | above
    · decide
    · exact absurd zero (Text.head_toDigits above)
  simpa using MagnitudeText.mk Nat.toDigits_ne_nil (Text.allDigits_toDigits n) lead
    (.whole .none)

theorem toList_ofNat (n : Nat) : (toString (n : Int)).toList = Nat.toDigits 10 n := by
  rw [show toString (n : Int) = toString n from rfl, Nat.toString_eq_ofList_toDigits,
    String.toList_ofList]

theorem toList_negSucc (n : Nat) :
    (toString (Int.negSucc n)).toList = '-' :: Nat.toDigits 10 (n + 1) := by
  rw [show toString (Int.negSucc n) = "-" ++ toString (n + 1) from rfl,
    Nat.toString_eq_ofList_toDigits, String.toList_append, String.toList_ofList,
    String.toList_ofList]
  rfl

/-- Integers are printed as numbers. -/
theorem numberText_toString (n : Int) : NumberText (toString n).toList := by
  cases n with
  | ofNat n =>
    rw [Int.ofNat_eq_natCast, toList_ofNat]
    exact .plain (magnitudeText_toDigits n)
  | negSucc n =>
    rw [toList_negSucc]
    exact .negative (magnitudeText_toDigits (n + 1))

/-- A natural number within the bound is read back. -/
theorem toNat?_toString {max n : Nat} (le : n ≤ max) :
    toNat? max (toString (n : Int)) = some n := by
  rw [toNat?, toList_ofNat, Text.readNat_toDigits]
  exact if_pos le

/-- So is every integer of 64 bits. -/
theorem toInt64?_toString (n : Int64) : toInt64? (toString n.toInt) = some n := by
  have low : -9223372036854775808 ≤ n.toInt := n.le_toInt
  have high : n.toInt < 9223372036854775808 := n.toInt_lt
  have bound : Text.signedBound = 9223372036854775808 := rfl
  unfold toInt64?
  cases sign : n.toInt with
  | ofNat m =>
    rw [sign, Int.ofNat_eq_natCast] at high
    have back : Int64.ofNat m = n := by
      rw [← Int64.ofInt_eq_ofNat, ← Int.ofNat_eq_natCast, ← sign, Int64.ofInt_toInt]
    rw [Int.ofNat_eq_natCast, toList_ofNat]
    split
    · next r front =>
      have digit := Text.allDigits_toDigits m '-' (by rw [front]; exact List.mem_cons_self)
      cases digit
    · rw [Text.readNat_toDigits]
      simp [show m < Text.signedBound by omega, back]
  | negSucc m =>
    rw [sign] at low
    have back : Int64.ofInt (-((m + 1 : Nat) : Int)) = n := by
      rw [show -((m + 1 : Nat) : Int) = n.toInt from sign.symm, Int64.ofInt_toInt]
    rw [toList_negSucc]
    simp only [Text.readNat_toDigits, bind, Option.bind]
    rw [if_pos (by omega), back]

end JsonNumber

end LoadHarness
