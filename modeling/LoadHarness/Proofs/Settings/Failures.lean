import LoadHarness.Proofs.Settings.Keys

/-!
# Properties that cannot be read

Properties are applied one after another up to the first that says nothing for its key. The
settings are then those after the properties before it, and the error names the key and the part of
the value that the key refuses. When every property can be read, only the order of those with one
key counts.
-/

namespace LoadHarness

open Key

theorem Key.lastIn_eq (k : Key) (ps : List Property) :
    k.lastIn ps = (ps.filter (·.1 = k.name)).getLast?.map (·.2) := by
  induction ps with
  | nil => rfl
  | cons p rest ih =>
    rw [lastIn_cons, ih]
    by_cases named : p.1 = k.name
    · rw [List.filter_cons_of_pos (by simpa using named), List.getLast?_cons, if_pos named]
      cases (rest.filter (·.1 = k.name)).getLast? <;> rfl
    · rw [List.filter_cons_of_neg (by simpa using named), if_neg named, Option.or_none]

/-- The same properties in another order, but those of one key in the same. -/
def Rearranged (ps qs : List Property) : Prop :=
  ∀ key : String, qs.filter (·.1 = key) = ps.filter (·.1 = key)

namespace Rearranged

variable {ps qs : List Property}

theorem perm (same : Rearranged ps qs) : qs.Perm ps := by
  refine List.perm_iff_count.2 fun p => ?_
  have own := congrArg (List.count p) (same p.1)
  rwa [List.count_filter (by simp), List.count_filter (by simp)] at own

/-- Rearranged entries are as readable as before. -/
theorem readable (same : Rearranged ps qs) (readable : Readable ps) : Readable qs :=
  fun p member => readable p (same.perm.mem_iff.1 member)

/-- They say the same of every key. -/
theorem saidBy_eq (same : Rearranged ps qs) : saidBy qs = saidBy ps := by
  funext k
  rw [saidBy, saidBy, lastIn_eq, lastIn_eq, same]

end Rearranged

namespace Settings

variable {s s' : Settings} {ps before : List Property} {p : Property}

/-- After properties that are applied to the end the others are applied to what has come of it. -/
theorem apply_append (applied : s.apply before = (s', .ok ())) (after : List Property) :
    s.apply (before ++ after) = s'.apply after := by
  induction before generalizing s with
  | nil =>
    cases applied
    rfl
  | cons p rest ih =>
    rw [List.cons_append, apply]
    rw [apply] at applied
    split at applied
    · exact ih applied
    · cases applied

/-- A property that cannot be read names a key that refuses a part of its value. -/
theorem exists_refused_of_unreadable (unreadable : ¬Readable [p]) :
    ∃ (k : Key) (part : String) (kind : ValueKind),
      p.1 = k.name ∧ k.Refused (Text.trim p.2) part kind := by
  refine Classical.byContradiction fun none => unreadable ?_
  refine List.forall_mem_singleton.2 fun k named => ?_
  cases said : k.read (Text.trim p.2) with
  | some x => rfl
  | none =>
    obtain ⟨part, kind, refused⟩ := exists_refused said
    exact absurd ⟨k, part, kind, named, refused⟩ none

/-- It fails for that part, and the settings are what they were. -/
theorem applyOne_of_refused {k : Key} {part : String} {kind : ValueKind} (named : p.1 = k.name)
    (refused : k.Refused (Text.trim p.2) part kind) (s : Settings) :
    s.applyOne p = (s, .error (.invalidValue k.name part kind)) := by
  rw [applyOne, ofName?_eq_some_iff.2 named]
  dsimp only
  rw [assign_of_refused refused]
  rfl

/-- Properties that cannot all be read have a first among them that cannot. -/
theorem exists_first_unreadable (unreadable : ¬Readable ps) :
    ∃ before p after, ps = before ++ p :: after ∧ Readable before ∧ ¬Readable [p] := by
  induction ps with
  | nil => exact absurd (List.forall_mem_nil _) unreadable
  | cons p rest ih =>
    by_cases first : Readable [p]
    · have others : ¬Readable rest := fun readable =>
        unreadable (List.forall_mem_cons.2 ⟨first p (.head _), readable⟩)
      obtain ⟨before, q, after, rfl, readable, fails⟩ := ih others
      have readable : Readable (p :: before) :=
        List.forall_mem_cons.2 ⟨first p (.head _), readable⟩
      exact ⟨p :: before, q, after, rfl, readable, fails⟩
    · exact ⟨[], p, rest, rfl, List.forall_mem_nil _, first⟩

/-- **Properties change settings up to the first that cannot be read.** If there is one, the
settings are those after the properties before it, whatever it and the others say, and the error is
for the first part of its value that its key refuses. If there is none, the settings are under every
key what is said for it last, and the same for every order that keeps the properties of one key as
they are. -/
theorem applied_up_to_refused (s : Settings) (ps : List Property) :
    (Readable ps ∧ s.apply ps = (.ofTable (KeyTable.under (Key.get s) (saidBy ps)), .ok ()) ∧
      ∀ qs, Rearranged ps qs → s.apply qs = s.apply ps) ∨
    ∃ before p after, ps = before ++ p :: after ∧ Readable before ∧
      ∃ (k : Key) (part : String) (kind : ValueKind),
        p.1 = k.name ∧ k.Refused (Text.trim p.2) part kind ∧
          ∃ s', s.apply before = (s', .ok ()) ∧
            s.apply ps = (s', .error (.invalidValue k.name part kind)) := by
  by_cases readable : Readable ps
  · refine .inl ⟨readable, apply_of_readable readable s, fun qs same => ?_⟩
    rw [apply_of_readable readable, apply_of_readable (same.readable readable), same.saidBy_eq]
  · obtain ⟨before, p, after, rfl, first, fails⟩ := exists_first_unreadable readable
    obtain ⟨k, part, kind, named, refused⟩ := exists_refused_of_unreadable fails
    have applied := apply_of_readable first s
    refine .inr ⟨before, p, after, rfl, first, k, part, kind, named, refused, _, applied, ?_⟩
    rw [apply_append applied, apply, applyOne_of_refused named refused]

end Settings

end LoadHarness
