/-!
# Cutting text at a separator

Each cut names the occurrence it takes, and gives both sides without the separator or says that
the separator is missing.
-/

namespace LoadHarness.Text

/-- The text after `lead`, if it starts with it. -/
def after? (lead cs : List Char) : Option (List Char) :=
  if lead.isPrefixOf cs then some (cs.drop lead.length) else none

/-- Both sides of the first `c`. -/
def cutFirst? (c : Char) : List Char → Option (List Char × List Char)
  | [] => none
  | x :: r => if x = c then some ([], r) else (cutFirst? c r).map fun (a, b) => (x :: a, b)

/-- Both sides of the last `c`. -/
def cutLast? (c : Char) : List Char → Option (List Char × List Char)
  | [] => none
  | x :: r => match cutLast? c r with
    | some (a, b) => some (x :: a, b)
    | none => if x = c then some ([], r) else none

/-- Both sides of the first occurrence of the text `sep`. -/
def cutFirstText? (sep : List Char) : List Char → Option (List Char × List Char)
  | [] => if sep.isEmpty then some ([], []) else none
  | x :: r => match after? sep (x :: r) with
    | some rest => some ([], rest)
    | none => (cutFirstText? sep r).map fun (a, b) => (x :: a, b)

/-- The pieces between the occurrences of `c`; always at least one. -/
def pieces (c : Char) : List Char → List (List Char)
  | [] => [[]]
  | x :: r =>
    if x = c then [] :: pieces c r
    else match pieces c r with
      | [] => [[x]]
      | p :: ps => (x :: p) :: ps

/-- The text `part` stands somewhere in `cs`. -/
def occurs (part : List Char) (cs : List Char) : Bool := (cutFirstText? part cs).isSome

theorem cutFirst?_eq_none_iff {c : Char} {cs : List Char} : cutFirst? c cs = none ↔ c ∉ cs := by
  induction cs with
  | nil => simp [cutFirst?]
  | cons x r ih =>
    by_cases h : x = c
    · simp [cutFirst?, h]
    · simp [cutFirst?, h, ih, Ne.symm h]

theorem cutFirst?_append {c : Char} {a : List Char} (h : c ∉ a) (b : List Char) :
    cutFirst? c (a ++ c :: b) = some (a, b) := by
  induction a with
  | nil => simp [cutFirst?]
  | cons x r ih =>
    simp only [List.mem_cons, not_or] at h
    simp [cutFirst?, Ne.symm h.1, ih h.2]

theorem cutFirst?_eq_some_iff {c : Char} {cs a b : List Char} :
    cutFirst? c cs = some (a, b) ↔ c ∉ a ∧ cs = a ++ c :: b := by
  constructor
  · intro cut
    have here : c ∈ cs := Classical.byContradiction fun missing => by
      simp [cutFirst?_eq_none_iff.2 missing] at cut
    obtain ⟨front, rest, rfl, fresh⟩ := List.eq_append_cons_of_mem here
    rw [cutFirst?_append fresh] at cut
    cases cut
    exact ⟨fresh, rfl⟩
  · rintro ⟨fresh, rfl⟩
    exact cutFirst?_append fresh b

theorem cutLast?_eq_none_iff {c : Char} {cs : List Char} : cutLast? c cs = none ↔ c ∉ cs := by
  induction cs with
  | nil => simp [cutLast?]
  | cons x r ih =>
    simp only [cutLast?, List.mem_cons, not_or]
    cases h : cutLast? c r with
    | none =>
      have := ih.1 h
      by_cases hx : x = c
      · simp [hx]
      · simp [hx, Ne.symm hx, this]
    | some p =>
      have : c ∈ r := Classical.byContradiction fun hc => by simp [ih.2 hc] at h
      simp [this]

theorem cutLast?_append {c : Char} (a : List Char) {b : List Char} (h : c ∉ b) :
    cutLast? c (a ++ c :: b) = some (a, b) := by
  induction a with
  | nil => simp [cutLast?, cutLast?_eq_none_iff.2 h]
  | cons x r ih => simp [cutLast?, ih]

/-- A character that occurs has a last occurrence. -/
theorem exists_last {c : Char} {cs : List Char} (h : c ∈ cs) :
    ∃ a b, cs = a ++ c :: b ∧ c ∉ b := by
  obtain ⟨b, a, split, fresh⟩ := List.eq_append_cons_of_mem (List.mem_reverse.2 h)
  refine ⟨a.reverse, b.reverse, ?_, fun member => fresh (List.mem_reverse.1 member)⟩
  rw [← List.reverse_reverse cs, split]
  simp

end LoadHarness.Text
