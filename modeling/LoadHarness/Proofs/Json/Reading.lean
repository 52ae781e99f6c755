import LoadHarness.Proofs.Json.Numbers
import LoadHarness.Proofs.Json.Strings

/-!
# Values that are read as they are printed

What the reader makes of a printed value does not depend on what stands around it. So the parts of
an array or an object can be read one by one, and both printers come down to the same few ways of
putting texts together.
-/

namespace LoadHarness.JsonValue

open JsonNumber (Ends NumberText)

/-- A value whose parts all have a text. -/
inductive Legible : JsonValue → Prop
  | null : Legible .null
  | bool (b : Bool) : Legible (.bool b)
  | number {literal : String} (numeral : NumberText literal.toList) : Legible (.number literal)
  | string (s : String) : Legible (.string (some s))
  | array {vs : List JsonValue} (items : ∀ v ∈ vs, Legible v) : Legible (.array vs)
  | object {ms : List (JsonText × JsonValue)} (keys : ∀ m ∈ ms, m.1.isSome)
    (members : ∀ m ∈ ms, Legible m.2) : Legible (.object ms)

/-! Blanks -/

/-- Nothing but blanks. -/
def Blank (cs : List Char) : Prop := ∀ c ∈ cs, isSpace c = true

theorem blank_nil : Blank [] := List.forall_mem_nil _

theorem blank_newline (level : Nat) : Blank (newline level) := by
  intro c member
  rcases List.mem_cons.1 member with rfl | member
  · rfl
  · rw [List.eq_of_mem_replicate member]
    rfl

variable {gap : List Char}

/-- Blanks are skipped. -/
theorem skipSpace_append (blank : Blank gap) (cs : List Char) :
    skipSpace (gap ++ cs) = skipSpace cs := List.dropWhile_append_of_pos blank

theorem skipSpace_cons {c : Char} (seen : isSpace c = false) (r : List Char) :
    skipSpace (c :: r) = c :: r := List.dropWhile_cons_of_neg (by simp [seen])

theorem ends_of_space {c : Char} (space : isSpace c = true) (r : List Char) : Ends (c :: r) := by
  intro d head
  cases head
  simp only [isSpace, Bool.or_eq_true, decide_eq_true_eq] at space
  rcases space with ((rfl | rfl) | rfl) | rfl <;> decide

/-- Blanks end a number, or leave its end to what follows them. -/
theorem ends_of_blank (blank : Blank gap) {cs : List Char} (ends : Ends cs) : Ends (gap ++ cs) := by
  cases gap with
  | nil => exact ends
  | cons c r => exact ends_of_space (blank c List.mem_cons_self) _

/-! Texts and what they are read as -/

/-- Whatever stands around the text, it is read as the value. -/
structure Reads (v : JsonValue) (cs : List Char) : Prop where
  starts : ∃ c r, cs = c :: r ∧ isSpace c = false ∧ c ≠ ']'
  read (fuel : Nat) {gap rest : List Char} (enough : 2 * cs.length ≤ fuel) (blank : Blank gap)
    (ends : Ends rest) : readValue fuel (gap ++ (cs ++ rest)) = some (v, rest)

/-- Behind any item the text is read as the items that follow it in an array. -/
structure ReadsItems (vs : List JsonValue) (ts : List Char) : Prop where
  read {v : JsonValue} {cs : List Char} (first : Reads v cs) (fuel : Nat) {gap : List Char}
    (rest : List Char) (enough : 2 * (cs.length + ts.length) < fuel) (blank : Blank gap) :
    readItems fuel (gap ++ (cs ++ (ts ++ rest))) = some (v :: vs, rest)

/-- Behind any member the text is read as the members that follow it in an object. -/
structure ReadsMembers (ms : List (JsonText × JsonValue)) (ts : List Char) : Prop where
  read {k : String} {v : JsonValue} {cs : List Char} (first : Reads v cs) (fuel : Nat)
    {gap room : List Char} (rest : List Char) (enough : 2 * (cs.length + ts.length) < fuel)
    (blank : Blank gap) (roomy : Blank room) :
    readMembers fuel (gap ++ (quoted k ++ ':' :: (room ++ (cs ++ (ts ++ rest))))) =
      some ((some k, v) :: ms, rest)

variable {v : JsonValue} {vs : List JsonValue} {ms : List (JsonText × JsonValue)}
  {cs ts room : List Char}

/-- Blanks in front cost nothing, and a text that is not empty has fuel for one step. -/
theorem Reads.of_step {c : Char} {r : List Char} (seen : isSpace c = false) (other : c ≠ ']')
    (step : ∀ fuel rest, 2 * (c :: r).length ≤ fuel + 1 → Ends rest →
      readValue (fuel + 1) (c :: r ++ rest) = some (v, rest)) : Reads v (c :: r) where
  starts := ⟨c, r, rfl, seen, other⟩
  read fuel gap rest enough blank ends := by
    cases fuel with
    | zero => cases enough
    | succ fuel =>
      have read := step fuel rest enough ends
      rw [readValue] at read ⊢
      rwa [skipSpace_append blank]

/-- The word for nothing is read back. -/
theorem reads_null : Reads .null "null".toList :=
  .of_step rfl (by decide) fun _ _ _ _ => rfl

/-- So are the truth values. -/
theorem reads_bool (b : Bool) : Reads (.bool b) (cond b "true" "false").toList := by
  cases b with
  | false => exact .of_step rfl (by decide) fun _ _ _ _ => rfl
  | true => exact .of_step rfl (by decide) fun _ _ _ _ => rfl

/-- So is a number, up to what ends it. -/
theorem reads_number {literal : String} (numeral : NumberText literal.toList) :
    Reads (.number literal) literal.toList := by
  obtain ⟨c, r, same, front⟩ := numeral.head
  have span {rest : List Char} (ends : Ends rest) := numeral.span_append ends
  have other {d : Char} (mark : Text.isDigitIn 10 d = false) (minus : d ≠ '-') : c ≠ d := by
    rintro rfl
    rcases front with digit | sign
    · rw [mark] at digit
      cases digit
    · exact minus sign
  have seen : isSpace c = false := by
    simp [isSpace, other (d := ' ') rfl, other (d := '\n') rfl, other (d := '\t') rfl,
      other (d := '\r') rfl]
  rw [same] at span ⊢
  refine .of_step seen (other rfl (by decide)) fun fuel rest enough ends => ?_
  rw [readValue, List.cons_append, skipSpace_cons seen]
  split
  case h_7 =>
    rw [← List.cons_append, span ends, ← same]
    simp
  -- neither a digit nor a minus sign opens anything else
  all_goals
    next front => exact absurd (List.cons.inj front).1 (other rfl (by decide))

theorem quoted_append (s : String) (r : List Char) :
    quoted s ++ r = '"' :: (s.toList.flatMap escape ++ '"' :: r) := by
  simp [quoted]

/-- So is a string with its escapes. -/
theorem reads_string (s : String) : Reads (.string (some s)) (quoted s) := by
  refine .of_step rfl (by decide) fun fuel rest enough ends => ?_
  rw [readValue, ← quoted, quoted_append, skipSpace_cons rfl]
  simp only [readText_escaped, Option.map_some]

/-- A comma and a closing bracket end a number. -/
theorem ends_of_mark {c : Char} (mark : c = ',' ∨ c = ']' ∨ c = '}') (r : List Char) :
    Ends (c :: r) := by
  intro d head
  cases head
  rcases mark with rfl | rfl | rfl <;> decide

/-! Arrays -/

theorem reads_array_nil : Reads (.array []) ['[', ']'] :=
  .of_step rfl (by decide) fun _ _ _ _ => rfl

/-- A list with a first item is read back if that item and the others are. -/
theorem reads_array_cons (blank : Blank gap) (first : Reads v cs) (others : ReadsItems vs ts) :
    Reads (.array (v :: vs)) ('[' :: (gap ++ (cs ++ ts))) := by
  refine .of_step rfl (by decide) fun fuel rest enough ends => ?_
  obtain ⟨c, r, rfl, seen, other⟩ := first.starts
  simp only [List.length_cons, List.length_append] at enough
  have read : readItems fuel (c :: (r ++ (ts ++ rest))) = some (v :: vs, rest) :=
    others.read first _ _ (by simp only [List.length_cons]; omega) blank_nil
  rw [readValue, List.cons_append, skipSpace_cons rfl]
  simp only [List.append_assoc, skipSpace_append blank, List.cons_append, skipSpace_cons seen]
  split
  · next front => exact absurd (List.cons.inj front).1 other
  · rw [read]
    rfl

/-- The end of a list. -/
theorem readsItems_nil (blank : Blank gap) : ReadsItems [] (gap ++ [']']) where
  read {v cs} first fuel front rest enough blank' := by
    cases fuel with
    | zero => cases enough
    | succ fuel =>
      have ends : Ends (gap ++ ']' :: rest) :=
        ends_of_blank blank (ends_of_mark (.inr (.inl rfl)) rest)
      have read := first.read fuel (by omega) blank' ends
      rw [List.append_assoc gap, List.singleton_append, readItems, read]
      simp only [skipSpace_append blank, skipSpace_cons (c := ']') rfl]

/-- Another item of a list. -/
theorem readsItems_cons (blank : Blank gap) (second : Reads v cs) (others : ReadsItems vs ts) :
    ReadsItems (v :: vs) (',' :: (gap ++ (cs ++ ts))) where
  read {v' cs'} first fuel front rest enough blank' := by
    simp only [List.length_cons, List.length_append] at enough
    cases fuel with
    | zero => cases enough
    | succ fuel =>
      have ends : Ends (',' :: (gap ++ (cs ++ (ts ++ rest)))) := ends_of_mark (.inl rfl) _
      have read := first.read fuel (by omega) blank' ends
      have more := others.read second fuel rest (by omega) blank
      simp only [List.cons_append, List.append_assoc]
      rw [readItems, read]
      simp only [skipSpace_cons (c := ',') rfl, more, Option.map_some]

/-! Objects -/

theorem reads_object_nil : Reads (.object []) ['{', '}'] :=
  .of_step rfl (by decide) fun _ _ _ _ => rfl

/-- A record with a first member is read back if that member and the others are. -/
theorem reads_object_cons {k : String} (blank : Blank gap) (roomy : Blank room)
    (first : Reads v cs) (others : ReadsMembers ms ts) :
    Reads (.object ((some k, v) :: ms))
      ('{' :: (gap ++ (quoted k ++ ':' :: (room ++ (cs ++ ts))))) := by
  refine .of_step rfl (by decide) fun fuel rest enough ends => ?_
  simp only [List.length_cons, List.length_append] at enough
  have read := others.read (k := k) first fuel rest (by omega) blank_nil roomy
  rw [List.nil_append, quoted_append] at read
  rw [readValue, List.cons_append, skipSpace_cons rfl]
  simp only [List.append_assoc, skipSpace_append blank, List.cons_append, quoted_append,
    skipSpace_cons (c := '"') rfl]
  split
  · next front => exact absurd (List.cons.inj front).1 (by decide)
  · rw [read]
    rfl

/-- The end of a record. -/
theorem readsMembers_nil (blank : Blank gap) : ReadsMembers [] (gap ++ ['}']) where
  read {k v cs} first fuel front room rest enough blank' roomy := by
    cases fuel with
    | zero => cases enough
    | succ fuel =>
      have ends : Ends (gap ++ '}' :: rest) :=
        ends_of_blank blank (ends_of_mark (.inr (.inr rfl)) rest)
      have read := first.read fuel (by omega) roomy ends
      rw [readMembers, skipSpace_append blank', quoted_append, skipSpace_cons rfl]
      simp only [readText_escaped, skipSpace_cons (c := ':') rfl, List.append_assoc,
        List.singleton_append, read, skipSpace_append blank, skipSpace_cons (c := '}') rfl]

/-- Another member of a record. -/
theorem readsMembers_cons {k : String} (blank : Blank gap) (roomy : Blank room)
    (second : Reads v cs) (others : ReadsMembers ms ts) :
    ReadsMembers ((some k, v) :: ms)
      (',' :: (gap ++ (quoted k ++ ':' :: (room ++ (cs ++ ts))))) where
  read {k' v' cs'} first fuel front room' rest enough blank' roomy' := by
    simp only [List.length_cons, List.length_append] at enough
    cases fuel with
    | zero => cases enough
    | succ fuel =>
      have ends : Ends (',' :: (gap ++ (quoted k ++ ':' :: (room ++ (cs ++ (ts ++ rest)))))) :=
        ends_of_mark (.inl rfl) _
      have read := first.read fuel (by omega) roomy' ends
      have more := others.read (k := k) second fuel rest (by omega) blank roomy
      rw [readMembers, skipSpace_append blank', quoted_append, skipSpace_cons rfl]
      simp only [readText_escaped, skipSpace_cons (c := ':') rfl, List.append_assoc,
        List.cons_append, read, skipSpace_cons (c := ',') rfl, more, Option.map_some]

/-! Printers -/

/-- The items of a compact list are read back if each is. -/
theorem readsItems_compact (items : ∀ v ∈ vs, Reads v v.compactChars) :
    ReadsItems vs (compactItems vs) := by
  induction vs with
  | nil => exact readsItems_nil blank_nil
  | cons v vs ih =>
    obtain ⟨second, others⟩ := List.forall_mem_cons.1 items
    exact readsItems_cons blank_nil second (ih others)

/-- So are the members of a compact record. -/
theorem readsMembers_compact (keys : ∀ m ∈ ms, m.1.isSome)
    (members : ∀ m ∈ ms, Reads m.2 m.2.compactChars) : ReadsMembers ms (compactMembers ms) := by
  induction ms with
  | nil => exact readsMembers_nil blank_nil
  | cons m ms ih =>
    obtain ⟨key, more⟩ := List.forall_mem_cons.1 keys
    obtain ⟨second, others⟩ := List.forall_mem_cons.1 members
    obtain ⟨_ | k, v⟩ := m
    · cases key
    · exact readsMembers_cons blank_nil blank_nil second (ih more others)

/-- Every legible value is read back from its compact text. -/
theorem reads_compact (legible : Legible v) : Reads v v.compactChars := by
  induction legible with
  | null => exact reads_null
  | bool b => cases b <;> exact reads_bool _
  | number numeral => exact reads_number numeral
  | string s => exact reads_string s
  | @array vs _ ih =>
    cases vs with
    | nil => exact reads_array_nil
    | cons v vs =>
      obtain ⟨first, others⟩ := List.forall_mem_cons.1 ih
      exact reads_array_cons blank_nil first (readsItems_compact others)
  | @object ms keys _ ih =>
    cases ms with
    | nil => exact reads_object_nil
    | cons m ms =>
      obtain ⟨key, more⟩ := List.forall_mem_cons.1 keys
      obtain ⟨first, others⟩ := List.forall_mem_cons.1 ih
      obtain ⟨_ | k, v⟩ := m
      · cases key
      · exact reads_object_cons blank_nil blank_nil first (readsMembers_compact more others)

theorem blank_space : Blank [' '] := List.forall_mem_singleton.2 rfl

/-- The items of an indented list are read back if each is. -/
theorem readsItems_pretty {level : Nat} (items : ∀ v ∈ vs, ∀ n, Reads v (v.prettyChars n)) :
    ReadsItems vs (prettyItems level vs) := by
  induction vs with
  | nil => exact readsItems_nil (blank_newline level)
  | cons v vs ih =>
    obtain ⟨second, others⟩ := List.forall_mem_cons.1 items
    rw [prettyItems, List.append_assoc]
    exact readsItems_cons (blank_newline _) (second _) (ih others)

/-- So are the members of an indented record. -/
theorem readsMembers_pretty {level : Nat} (keys : ∀ m ∈ ms, m.1.isSome)
    (members : ∀ m ∈ ms, ∀ n, Reads m.2 (m.2.prettyChars n)) :
    ReadsMembers ms (prettyMembers level ms) := by
  induction ms with
  | nil => exact readsMembers_nil (blank_newline level)
  | cons m ms ih =>
    obtain ⟨key, more⟩ := List.forall_mem_cons.1 keys
    obtain ⟨second, others⟩ := List.forall_mem_cons.1 members
    obtain ⟨_ | k, v⟩ := m
    · cases key
    · simp only [prettyMembers, List.append_assoc]
      exact readsMembers_cons (blank_newline _) blank_space (second _) (ih more others)

/-- Every legible value is read back from its indented text, at any depth. -/
theorem reads_pretty (legible : Legible v) : ∀ level, Reads v (v.prettyChars level) := by
  induction legible with
  | null => exact fun _ => reads_null
  | bool b => cases b <;> exact fun _ => reads_bool _
  | number numeral => exact fun _ => reads_number numeral
  | string s => exact fun _ => reads_string s
  | @array vs _ ih =>
    intro level
    cases vs with
    | nil => exact reads_array_nil
    | cons v vs =>
      obtain ⟨first, others⟩ := List.forall_mem_cons.1 ih
      rw [prettyChars, List.append_assoc]
      exact reads_array_cons (blank_newline _) (first _) (readsItems_pretty others)
  | @object ms keys _ ih =>
    intro level
    cases ms with
    | nil => exact reads_object_nil
    | cons m ms =>
      obtain ⟨key, more⟩ := List.forall_mem_cons.1 keys
      obtain ⟨first, others⟩ := List.forall_mem_cons.1 ih
      obtain ⟨_ | k, v⟩ := m
      · cases key
      · simp only [prettyChars, List.append_assoc]
        exact reads_object_cons (blank_newline _) blank_space (first _)
          (readsMembers_pretty more others)

/-- What is read in front of anything is read alone. -/
theorem Reads.parse? (reads : Reads v cs) : parse? (String.ofList cs) = some v := by
  have read : readValue (2 * cs.length + 2) ([] ++ (cs ++ [])) = some (v, []) :=
    reads.read _ (by omega) blank_nil fun c head => by cases head
  rw [List.nil_append, List.append_nil] at read
  rw [JsonValue.parse?, String.toList_ofList]
  simp only [read]
  rfl

/-- A printed value is read as the value, over one line and over several. -/
theorem parse?_printed (legible : Legible v) :
    parse? v.compact = some v ∧ parse? v.pretty = some v :=
  ⟨(reads_compact legible).parse?, (reads_pretty legible 0).parse?⟩

end LoadHarness.JsonValue
