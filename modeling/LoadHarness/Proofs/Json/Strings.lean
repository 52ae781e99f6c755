import LoadHarness.Json.Reader

/-!
# Strings that are read as they are written

Whatever is escaped is one character again, so a string in quotes is read as the same characters
up to its closing quote.
-/

namespace LoadHarness.JsonValue

/-- A character that needs no escape stands for itself. -/
theorem readString_plain {c : Char} (quote : c ≠ '"') (backslash : c ≠ '\\') (seen : ¬c.toNat < 32)
    (r : List Char) : readString (c :: r) = (readString r).map (addChar c) := by
  rw [readString]
  · rw [if_neg seen]
  · exact quote
  · exact fun _ _ _ _ _ escaped => absurd escaped backslash
  · exact fun _ _ escaped => absurd escaped backslash

/-- A short escape stands for its character. -/
theorem readString_short {c x : Char} (short : unescape c = some x) (r : List Char) :
    readString ('\\' :: c :: r) = (readString r).map (addChar x) := by
  rw [readString]
  · rw [short]
  · rintro - - - - - rfl
    cases short

theorem hex4?_hexDigit :
    ∀ n < 32, hex4? '0' '0' (hexDigit (n / 16)) (hexDigit (n % 16)) = some n := by
  decide

/-- A control character is read back from its code. -/
theorem readString_code {c : Char} (control : c.toNat < 32) (r : List Char) :
    readString ('\\' :: 'u' :: '0' :: '0' ::
      hexDigit (c.toNat / 16) :: hexDigit (c.toNat % 16) :: r) =
        (readString r).map (addChar c) := by
  have high : isHigh c.toNat = false := by simp [isHigh]; omega
  have low : isLow c.toNat = false := by simp [isLow]; omega
  rw [readString, hex4?_hexDigit _ control]
  simp [high, low, Char.ofNat_toNat]

/-- An escaped character is read as the character. -/
theorem readString_escape (c : Char) (r : List Char) :
    readString (escape c ++ r) = (readString r).map (addChar c) := by
  have known {n : Nat} (h : c.toNat = n) : Char.ofNat n = c := h ▸ Char.ofNat_toNat c
  unfold escape
  split
  · next h =>
    subst h
    exact readString_short rfl r
  split
  · next h =>
    subst h
    exact readString_short rfl r
  split
  · next h =>
    subst h
    exact readString_short rfl r
  split
  · next h =>
    subst h
    exact readString_short rfl r
  split
  · next h =>
    subst h
    exact readString_short rfl r
  split
  · next h => exact known h ▸ readString_short rfl r
  split
  · next h => exact known h ▸ readString_short rfl r
  split
  · next control => exact readString_code control r
  · next quote backslash _ _ _ _ _ seen => exact readString_plain quote backslash seen r

/-- A string that was escaped is read back up to its closing quote. -/
theorem readString_escaped (cs rest : List Char) :
    readString (cs.flatMap escape ++ '"' :: rest) = some (some cs, rest) := by
  induction cs with
  | nil =>
    rw [List.flatMap_nil, List.nil_append, readString]
  | cons c cs ih =>
    rw [List.flatMap_cons, List.append_assoc, readString_escape, ih]
    rfl

/-- What stands between quotes is read as the text. -/
theorem readText_escaped (s : String) (rest : List Char) :
    readText (s.toList.flatMap escape ++ '"' :: rest) = some (some s, rest) := by
  rw [readText, readString_escaped]
  simp

end LoadHarness.JsonValue
