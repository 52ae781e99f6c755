import LoadHarness.Latency.Timers
import LoadHarness.Proofs.Retry.Flow

/-!
# What timers tally

Timers are changed one tag at a time and stand in the order of their tags, so that a change of one
timer is seen under its tag and nowhere else. From this follows what they show after any number of
outcomes: for each tag how many were good and how many were counted as failures, and how many were
good in all.
-/

namespace LoadHarness

/-- How an action under a tag has ended. -/
structure ActionEnd where
  tag : String
  result : Except RetryError Unit

namespace ActionEnd

def isGood (o : ActionEnd) : Bool := o.result.isOk

/-- It is counted as a failure. -/
def isFailure (o : ActionEnd) : Bool :=
  match o.result with
  | .ok () => false
  | .error e => e.stopsNothing

end ActionEnd

namespace Timers

variable {ts : Timers} {tag other : String} {f : Timer → Timer}

/-- The timers stand in the order of their tags. -/
def Sorted (ts : Timers) : Prop := ts.entries.Pairwise fun a b => a.1 < b.1

theorem mem_updateEntries {entries : List (String × Timer)} {x : String × Timer}
    (member : x ∈ updateEntries tag f entries) : x.1 = tag ∨ x ∈ entries := by
  induction entries with
  | nil => exact .inl (congrArg Prod.fst (List.mem_singleton.1 member))
  | cons e rest ih =>
    unfold updateEntries at member
    split at member
    · next same =>
      rcases List.mem_cons.1 member with rfl | later
      · exact .inl same
      · exact .inr (List.mem_cons_of_mem _ later)
    · split at member
      · rcases List.mem_cons.1 member with rfl | later
        · exact .inl rfl
        · exact .inr later
      · rcases List.mem_cons.1 member with rfl | later
        · exact .inr List.mem_cons_self
        · exact (ih later).imp id (List.mem_cons_of_mem _)

/-- Updates keep the timers in order. -/
theorem sorted_update (sorted : ts.Sorted) : (ts.update tag f).Sorted := by
  obtain ⟨entries⟩ := ts
  unfold Sorted update at *
  dsimp only at *
  induction entries with
  | nil => exact List.pairwise_singleton _ _
  | cons e rest ih =>
    obtain ⟨first, later⟩ := List.pairwise_cons.1 sorted
    unfold updateEntries
    split
    · exact List.pairwise_cons.2 ⟨first, later⟩
    · next apart =>
      split
      · next before =>
        refine List.pairwise_cons.2 ⟨fun x member => ?_, sorted⟩
        rcases List.mem_cons.1 member with rfl | after
        · exact before
        · exact String.lt_trans before (first x after)
      · next behind =>
        refine List.pairwise_cons.2 ⟨fun x member => ?_, ih later⟩
        rcases mem_updateEntries member with own | old
        · rw [own]
          exact Std.lt_of_le_of_ne (String.not_lt.1 behind) apart
        · exact first x old

/-- The timer of another tag stays as it is. -/
theorem timer_update_other (apart : other ≠ tag) :
    (ts.update tag f).timer other = ts.timer other := by
  obtain ⟨entries⟩ := ts
  unfold timer update
  dsimp only
  congr 2
  induction entries with
  | nil => simp [updateEntries, Ne.symm apart]
  | cons e rest ih =>
    unfold updateEntries
    split
    · next same => simp [same, Ne.symm apart]
    · split
      · simp [Ne.symm apart]
      · simp only [List.find?_cons, ih]

/-- The timer of the tag itself is changed. -/
theorem timer_update_self (sorted : ts.Sorted) :
    (ts.update tag f).timer tag = f (ts.timer tag) := by
  obtain ⟨entries⟩ := ts
  unfold Sorted timer update at *
  dsimp only at *
  induction entries with
  | nil => simp [updateEntries]
  | cons e rest ih =>
    obtain ⟨first, later⟩ := List.pairwise_cons.1 sorted
    unfold updateEntries
    split
    · next same => simp [same]
    · next apart =>
      split
      · next before =>
        have none : (e :: rest).find? (·.1 == tag) = none := by
          refine List.find?_eq_none.2 fun x member => ?_
          rcases List.mem_cons.1 member with rfl | after
          · simpa using apart
          · have beyond := String.lt_trans before (first x after)
            simp only [beq_iff_eq]
            exact fun same => String.lt_irrefl tag (same ▸ beyond)
        simp [none]
      · have elsewhere : (e.1 == tag) = false := by simpa using apart
        simp only [List.find?_cons, elsewhere]
        exact ih later

/-- A change that adds to one count adds as much to the total. -/
theorem total_update {d : UInt64} (adds : ∀ t, (f t).latency.count = t.latency.count + d) :
    (ts.update tag f).total = ts.total + d := by
  obtain ⟨entries⟩ := ts
  unfold total update
  dsimp only
  have shift (n : UInt64) (l : List (String × Timer)) (d : UInt64) :
      l.foldl (fun n e => n + e.2.latency.count) (n + d) =
        l.foldl (fun n e => n + e.2.latency.count) n + d := by
    induction l generalizing n with
    | nil => rfl
    | cons e rest ih =>
      have swap (k : UInt64) : n + d + k = n + k + d := by
        rw [UInt64.add_assoc, UInt64.add_comm d, ← UInt64.add_assoc]
      simp only [List.foldl_cons, swap, ih]
  generalize (0 : UInt64) = n
  induction entries generalizing n with
  | nil =>
    have empty : (f .empty).latency.count = d := (adds .empty).trans (UInt64.zero_add d)
    simp only [updateEntries, List.foldl_cons, List.foldl_nil, empty]
  | cons e rest ih =>
    unfold updateEntries
    split
    · simp only [List.foldl_cons, adds, ← UInt64.add_assoc, shift]
    · split
      · have empty : (f .empty).latency.count = d := (adds .empty).trans (UInt64.zero_add d)
        rw [List.foldl_cons, empty, shift]
      · simp only [List.foldl_cons, ih]

/-- Timers that show these ends of actions. -/
structure Tallies (ts : Timers) (ends : List ActionEnd) : Prop where
  sorted : ts.Sorted
  counts : ∀ tag, (ts.timer tag).latency.count =
    .ofNat (ends.countP fun o => o.isGood && o.tag == tag)
  failures : ∀ tag, (ts.timer tag).failures =
    .ofNat (ends.countP fun o => o.isFailure && o.tag == tag)
  total : ts.total = .ofNat (ends.countP (·.isGood))

/-- New timers show nothing. -/
theorem tallies_ofTags (tags : List String) : (ofTags tags).Tallies [] := by
  unfold ofTags
  suffices keeps : ∀ ts : Timers, ts.Tallies [] →
      (tags.foldl (fun ts tag => ts.update tag id) ts).Tallies []
    from keeps _ ⟨List.Pairwise.nil, fun _ => rfl, fun _ => rfl, rfl⟩
  induction tags with
  | nil => exact fun _ h => h
  | cons tag rest ih =>
    intro ts h
    have same (other : String) : (ts.update tag id).timer other = ts.timer other := by
      by_cases own : other = tag
      · rw [own, timer_update_self h.sorted]
        rfl
      · exact timer_update_other own
    refine ih _ ⟨sorted_update h.sorted, fun other => ?_, fun other => ?_, ?_⟩
    · rw [same]
      exact h.counts other
    · rw [same]
      exact h.failures other
    · have total : (ts.update tag id).total = ts.total + 0 :=
        total_update fun t => (UInt64.add_zero t.latency.count).symm
      exact total.trans ((UInt64.add_zero _).trans h.total)

/-- Timers in which the timer of an end's tag has changed as that end demands show the end too. -/
theorem Tallies.update {ends : List ActionEnd} (h : ts.Tallies ends) (o : ActionEnd)
    (counts : ∀ t, (f t).latency.count = t.latency.count + .ofNat o.isGood.toNat)
    (failures : ∀ t, (f t).failures = t.failures + .ofNat o.isFailure.toNat) :
    (ts.update o.tag f).Tallies (ends ++ [o]) := by
  have one (P : ActionEnd → Bool) :
      UInt64.ofNat ((ends ++ [o]).countP P) = .ofNat (ends.countP P) + .ofNat (P o).toNat := by
    rw [List.countP_append, UInt64.ofNat_add, List.countP_singleton]
    cases P o <;> rfl
  have timer (tag : String) (here : tag = o.tag) :
      (ts.update o.tag f).timer tag = f (ts.timer tag) := by
    rw [here]
    exact timer_update_self h.sorted
  refine ⟨sorted_update h.sorted, fun tag => ?_, fun tag => ?_, ?_⟩
  · rw [one]
    by_cases here : tag = o.tag
    · rw [timer tag here, counts, h.counts, here]
      simp
    · rw [timer_update_other here, h.counts, beq_false_of_ne (Ne.symm here), Bool.and_false]
      exact (UInt64.add_zero _).symm
  · rw [one]
    by_cases here : tag = o.tag
    · rw [timer tag here, failures, h.failures, here]
      simp
    · rw [timer_update_other here, h.failures, beq_false_of_ne (Ne.symm here), Bool.and_false]
      exact (UInt64.add_zero _).symm
  · rw [one, total_update counts, h.total]

/-- An end that is not counted. -/
theorem Tallies.pass {ends : List ActionEnd} (h : ts.Tallies ends) {o : ActionEnd}
    (bad : o.isGood = false) (mild : o.isFailure = false) : ts.Tallies (ends ++ [o]) := by
  refine ⟨h.sorted, fun tag => ?_, fun tag => ?_, ?_⟩
  · simpa [bad] using h.counts tag
  · simpa [mild] using h.failures tag
  · simpa [bad] using h.total

/-- What a worker notes of an end. -/
def noted (ts : Timers) (o : ActionEnd) (d : Duration) : Timers :=
  match o.result with
  | .ok () => ts.record o.tag d
  | .error e => if e.stopsNothing then ts.recordFailure o.tag else ts

/-- The step: timers in which one more end has been noted show it too. -/
theorem Tallies.step {ends : List ActionEnd} (h : ts.Tallies ends) (o : ActionEnd) (d : Duration) :
    (ts.noted o d).Tallies (ends ++ [o]) := by
  obtain ⟨tag, result⟩ := o
  cases result with
  | ok =>
    exact h.update ⟨tag, .ok ()⟩ (fun _ => rfl) fun t => (UInt64.add_zero t.failures).symm
  | error e =>
    unfold noted
    dsimp only
    split
    · next mild =>
      refine h.update ⟨tag, .error e⟩ (fun t => (UInt64.add_zero t.latency.count).symm) fun t => ?_
      simp only [ActionEnd.isFailure, mild]
      rfl
    · next other => exact h.pass rfl (Bool.eq_false_iff.2 other)

end Timers

end LoadHarness
