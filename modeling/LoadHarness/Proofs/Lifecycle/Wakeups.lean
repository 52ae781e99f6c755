import LoadHarness.Lifecycle.Latch
import LoadHarness.Proofs.Lifecycle.Steps

/-!
# Nobody sleeps through the last count

A waiter could be forgotten between reading the count and going to sleep, if the last count and its
notice fell there. It is not, because it has signed up before: a waiter that has read a count above
zero and has not been noticed since leaves only two possibilities, a count that is still above zero
or a guard that has counted to zero and still owes its notice. Every step keeps this. Once all
guards are released neither is left, so whoever sleeps has been noticed, and every waiter that goes
on returns after a few steps of its own, whatever the others do.
-/

namespace LoadHarness

/-! ## Guards and waiters -/

/-- The guard has counted down. -/
def Guard.hasCounted : Guard → Bool
  | held => false
  | counted _ => true
  | released => true

namespace Waiter

/-- Without a notice, it sleeps or is about to. -/
def isDeaf : Waiter → Bool
  | ready => false
  | signedUp _ => false
  | informed seen noticed => seen != 0 && !noticed
  | asleep noticed => !noticed
  | returned => false

/-- It has returned or is about to. -/
def isThrough : Waiter → Bool
  | ready => false
  | signedUp _ => false
  | informed seen _ => seen == 0
  | asleep _ => false
  | returned => true

/-- The steps after which it has returned, once the count is zero. -/
def stepsLeft : Waiter → Nat
  | ready => 3
  | signedUp _ => 2
  | informed seen _ => if seen = 0 then 1 else 5
  | asleep _ => 4
  | returned => 0

variable {w : Waiter} {count : UInt64}

theorem isDeaf_notice : w.notice.isDeaf = false := by
  cases w <;> simp [notice, isDeaf]

theorem isThrough_notice : w.notice.isThrough = w.isThrough := by
  cases w <;> rfl

/-- A waiter becomes deaf only by reading a count above zero. -/
theorem isDeaf_advance (deaf : (w.advance count).isDeaf) : w.isDeaf ∨ count ≠ 0 := by
  cases w with
  | ready => cases deaf
  | signedUp noticed =>
    simp only [advance, isDeaf, Bool.and_eq_true, bne_iff_ne] at deaf
    exact .inr deaf.1
  | informed seen noticed =>
    by_cases zero : seen = 0
    · simp [advance, zero, isDeaf] at deaf
    · simp only [advance, if_neg zero, isDeaf] at deaf
      simp [isDeaf, zero, deaf]
  | asleep noticed =>
    cases noticed with
    | true => cases deaf
    | false => exact .inl rfl
  | returned => cases deaf

/-- A waiter gets through only by reading zero. -/
theorem isThrough_advance (through : (w.advance count).isThrough) : w.isThrough ∨ count = 0 := by
  cases w with
  | ready => cases through
  | signedUp noticed => exact .inr (eq_of_beq through)
  | informed seen noticed =>
    by_cases zero : seen = 0
    · simp [isThrough, zero]
    · simp [advance, zero, isThrough] at through
  | asleep noticed =>
    cases noticed with
    | true => cases through
    | false => cases through
  | returned => exact .inl rfl

/-- At zero, a step of a waiter brings it one step nearer to its return. -/
theorem stepsLeft_advance (hears : w.isDeaf = false) :
    (w.advance 0).stepsLeft = w.stepsLeft - 1 := by
  cases w with
  | ready => rfl
  | signedUp noticed => rfl
  | informed seen noticed =>
    by_cases zero : seen = 0
    · simp [advance, zero, stepsLeft]
    · simp [advance, zero, stepsLeft]
  | asleep noticed =>
    cases noticed with
    | true => rfl
    | false => cases hears
  | returned => rfl

/-- No waiter is more than five steps from its return. -/
theorem stepsLeft_le : w.stepsLeft ≤ 5 := by
  cases w with
  | informed seen noticed =>
    rw [stepsLeft]
    split
    · exact Nat.le_of_ble_eq_true rfl
    · exact Nat.le_refl 5
  | ready | signedUp | asleep | returned => simp [stepsLeft]

/-- Without steps left it has returned. -/
theorem eq_returned_of_stepsLeft (none : w.stepsLeft = 0) : w = returned := by
  cases w with
  | informed seen noticed =>
    simp only [stepsLeft] at none
    split at none <;> cases none
  | returned => rfl
  | ready => cases none
  | signedUp => cases none
  | asleep => cases none

end Waiter

namespace Latch

variable {l l' : Latch} {m : Move} {n i : Nat}

/-! ## What a step does -/

/-- What a step can come to. -/
inductive Moves (l : Latch) : Move → Latch → Prop where
  | take : Moves l .take { l with guards := l.guards ++ [.held] }
  | count {i : Nat} (held : l.guards[i]? = some .held) :
      Moves l (.drop i)
        { l with
          count := (oneLess? l.count).getD l.count
          guards := l.guards.set i (.counted (l.count == 1)) }
  | notify {i : Nat} (last : l.guards[i]? = some (.counted true)) :
      Moves l (.drop i)
        { l with
          guards := l.guards.set i .released
          waiters := l.waiters.map Waiter.notice }
  | leave {i : Nat} (other : l.guards[i]? = some (.counted false)) :
      Moves l (.drop i) { l with guards := l.guards.set i .released }
  /-- There is nothing to drop. -/
  | gone {i : Nat} : Moves l (.drop i) l
  | join : Moves l .join { l with waiters := l.waiters ++ [.ready] }
  | advance {i : Nat} :
      Moves l (.waiter i) { l with waiters := l.waiters.modify i (Waiter.advance l.count) }

theorem moves_of_step (l : Latch) (m : Move) : l.Moves m (l.step m) := by
  cases m with
  | take => exact .take
  | drop i =>
    cases here : l.guards[i]? with
    | none =>
      rw [step, here]
      exact .gone
    | some g =>
      rw [step, here]
      cases g with
      | held => exact .count here
      | counted last =>
        cases last with
        | true => exact .notify here
        | false => exact .leave here
      | released => exact .gone
  | join => exact .join
  | waiter i => exact .advance

theorem toNat_oneLess (c : UInt64) : ((oneLess? c).getD c).toNat = c.toNat - 1 := by
  unfold oneLess?
  by_cases zero : c = 0
  · rw [if_pos zero, zero]
    rfl
  · have positive : 1 ≤ c.toNat := Nat.pos_of_ne_zero fun none => zero (UInt64.toNat_inj.1 none)
    rw [if_neg zero]
    exact UInt64.toNat_sub_of_le _ _ (UInt64.le_iff_toNat_le.2 positive)

/-- A count of zero stays. -/
theorem Moves.zero (moved : l.Moves m l') (zero : l.count = 0) : l'.count = 0 := by
  cases moved with
  | count held =>
    rw [zero]
    rfl
  | take | notify | leave | gone | join | advance => exact zero

theorem mem_modify {waiters : List Waiter} {f : Waiter → Waiter} {w : Waiter}
    (member : w ∈ waiters.modify i f) : ∃ v ∈ waiters, w = v ∨ w = f v := by
  obtain ⟨j, there⟩ := List.mem_iff_getElem?.1 member
  rw [List.getElem?_modify] at there
  obtain ⟨v, before, rfl⟩ := Option.map_eq_some_iff.1 there
  refine ⟨v, List.mem_iff_getElem?.2 ⟨j, before⟩, ?_⟩
  split
  · exact .inr rfl
  · exact .inl rfl

/-- What a waiter was before a step. -/
theorem Moves.origin (moved : l.Moves m l') {w : Waiter} (member : w ∈ l'.waiters) :
    w ∈ l.waiters ∨ w = .ready ∨ ∃ v ∈ l.waiters, w = v.notice ∨ w = v.advance l.count := by
  cases moved with
  | take | count | leave | gone => exact .inl member
  | notify last =>
    obtain ⟨v, before, rfl⟩ := List.mem_map.1 member
    exact .inr (.inr ⟨v, before, .inl rfl⟩)
  | join => exact (List.mem_append.1 member).imp_right fun new => .inl (List.mem_singleton.1 new)
  | advance =>
    obtain ⟨v, before, rfl | rfl⟩ := mem_modify member
    · exact .inl before
    · exact .inr (.inr ⟨v, before, .inr rfl⟩)

/-! ## What every step keeps -/

/-- A latch of `n` that has come this far: it has counted every guard that counted, nobody gets
through before zero, and whoever is deaf can still be reached. -/
structure Sound (n : Nat) (l : Latch) : Prop where
  count_eq : l.count.toNat = n - l.guards.countP Guard.hasCounted
  through : ∀ w ∈ l.waiters, w.isThrough → l.count = 0
  reachable : ∀ w ∈ l.waiters, w.isDeaf → l.count ≠ 0 ∨ .counted true ∈ l.guards

theorem sound_ofCount (n : UInt64) : (ofCount n.toNat).Sound n.toNat := by
  constructor
  · rw [ofCount, UInt64.ofNat_toNat]
    rfl
  · intro w member
    cases member
  · intro w member
    cases member

/-- A guard counts only once. -/
theorem countP_released {guards : List Guard} {last : Bool}
    (counted : guards[i]? = some (.counted last)) :
    (guards.set i .released).countP Guard.hasCounted = guards.countP Guard.hasCounted :=
  Nat.add_right_cancel (Pool.countP_set_add counted Guard.hasCounted .released)

/-- The count is what is left of the guards. -/
theorem Sound.count_moves (sound : l.Sound n) (moved : l.Moves m l') :
    l'.count.toNat = n - l'.guards.countP Guard.hasCounted := by
  have before := sound.count_eq
  cases moved with
  | take =>
    rw [List.countP_append]
    exact before
  | count held =>
    have more := Pool.countP_set_add held Guard.hasCounted (.counted (l.count == 1))
    simp only [Guard.hasCounted, Bool.toNat_false, Bool.toNat_true, Nat.add_zero] at more
    rw [toNat_oneLess, more, before]
    exact Nat.sub_sub _ _ _
  | notify last => rw [countP_released last, before]
  | leave other => rw [countP_released other, before]
  | gone | join | advance => exact before

/-- Whoever gets through has seen the count at zero. -/
theorem Sound.through_moves (sound : l.Sound n) (moved : l.Moves m l') {w : Waiter}
    (member : w ∈ l'.waiters) (through : w.isThrough) : l'.count = 0 := by
  apply moved.zero
  rcases moved.origin member with old | rfl | ⟨v, before, rfl | rfl⟩
  · exact sound.through w old through
  · cases through
  · rw [Waiter.isThrough_notice] at through
    exact sound.through v before through
  · exact (Waiter.isThrough_advance through).elim (sound.through v before) id

theorem mem_set_of_ne {guards : List Guard} {g g' x : Guard} (here : guards[i]? = some g)
    (member : x ∈ guards) (other : x ≠ g) : x ∈ guards.set i g' := by
  obtain ⟨j, there⟩ := List.mem_iff_getElem?.1 member
  have apart : i ≠ j := by
    rintro rfl
    exact other (Option.some.inj (there.symm.trans here))
  exact List.mem_iff_getElem?.2 ⟨j, (List.getElem?_set_ne apart).trans there⟩

/-- A guard that counts leaves a count above zero, or owes the notice of its count. -/
theorem reachable_of_count {i : Nat} (held : l.guards[i]? = some .held)
    (before : l.count ≠ 0 ∨ .counted true ∈ l.guards) :
    (oneLess? l.count).getD l.count ≠ 0 ∨
      .counted true ∈ l.guards.set i (.counted (l.count == 1)) := by
  by_cases one : l.count = 1
  · right
    have bound : i < l.guards.length := (List.getElem?_eq_some_iff.1 held).1
    rw [one]
    exact List.mem_set bound _
  · rcases before with positive | owed
    · left
      intro zero
      have none : l.count.toNat - 1 = 0 :=
        (toNat_oneLess l.count).symm.trans (congrArg UInt64.toNat zero)
      have first : l.count.toNat ≠ 0 := fun h => positive (UInt64.toNat_inj.1 h)
      have second : l.count.toNat ≠ 1 := fun h => one (UInt64.toNat_inj.1 h)
      omega
    · exact .inr (mem_set_of_ne held owed nofun)

/-- Whoever sleeps can still be reached: guards are left, or one is about to wake all. -/
theorem Sound.reachable_moves (sound : l.Sound n) (moved : l.Moves m l') {w : Waiter}
    (member : w ∈ l'.waiters) (deaf : w.isDeaf) :
    l'.count ≠ 0 ∨ .counted true ∈ l'.guards := by
  cases moved with
  | take => exact (sound.reachable w member deaf).imp_right (List.mem_append_left _)
  | count held => exact reachable_of_count held (sound.reachable w member deaf)
  | notify last =>
    obtain ⟨v, -, rfl⟩ := List.mem_map.1 member
    rw [Waiter.isDeaf_notice] at deaf
    cases deaf
  | leave other =>
    exact (sound.reachable w member deaf).imp_right fun owed => mem_set_of_ne other owed nofun
  | gone => exact sound.reachable w member deaf
  | join =>
    rcases List.mem_append.1 member with old | new
    · exact sound.reachable w old deaf
    · obtain rfl := List.mem_singleton.1 new
      cases deaf
  | advance =>
    obtain ⟨v, before, rfl | rfl⟩ := mem_modify member
    · exact sound.reachable _ before deaf
    · exact (Waiter.isDeaf_advance deaf).elim (sound.reachable v before) .inl

/-- The step: a sound latch stays sound. -/
theorem Sound.moves (sound : l.Sound n) (moved : l.Moves m l') : l'.Sound n where
  count_eq := sound.count_moves moved
  through _ member := sound.through_moves moved member
  reachable _ member := sound.reachable_moves moved member

/-- The run: it is so after any moves. -/
theorem sound_of_run (n : UInt64) (moves : List Move) :
    ((ofCount n.toNat).run moves).Sound n.toNat :=
  List.foldlRecOn moves step (sound_ofCount n) fun l sound m _ => sound.moves (moves_of_step l m)

/-! ## After the last notice -/

/-- The count is zero, the notice has been given, and it has reached everybody. -/
structure IsOpen (l : Latch) : Prop where
  zero : l.count = 0
  told : .counted true ∉ l.guards
  hears : ∀ w ∈ l.waiters, w.isDeaf = false

/-- A latch all of whose guards are released, at least as many as it waits for. -/
theorem Sound.isOpen (sound : l.Sound n) (released : ∀ g ∈ l.guards, g = .released)
    (enough : n ≤ l.guards.length) : l.IsOpen := by
  have counted : l.guards.countP Guard.hasCounted = l.guards.length :=
    List.countP_eq_length.2 fun g member => by rw [released g member]; rfl
  have zero : l.count = 0 := by
    apply UInt64.toNat_inj.1
    rw [sound.count_eq, counted]
    exact Nat.sub_eq_zero_of_le enough
  have told : .counted true ∉ l.guards := fun member => by cases released _ member
  refine ⟨zero, told, ?_⟩
  intro w member
  cases deaf : w.isDeaf with
  | false => rfl
  | true =>
    rcases sound.reachable w member deaf with positive | owed
    · exact absurd zero positive
    · exact absurd owed told

/-- Once the last guard has told everybody nobody has to be told any more. -/
theorem IsOpen.told_moves (opened : l.IsOpen) (moved : l.Moves m l') :
    .counted true ∉ l'.guards := by
  cases moved with
  | take => simpa using opened.told
  | count held =>
    intro owed
    rw [opened.zero] at owed
    exact (List.mem_or_eq_of_mem_set owed).elim opened.told nofun
  | notify last => exact absurd (List.mem_of_getElem? last) opened.told
  | leave other => exact fun owed => (List.mem_or_eq_of_mem_set owed).elim opened.told nofun
  | gone | join | advance => exact opened.told

/-- And nobody falls asleep any more. -/
theorem IsOpen.hears_moves (opened : l.IsOpen) (moved : l.Moves m l') {w : Waiter}
    (member : w ∈ l'.waiters) : w.isDeaf = false := by
  rcases moved.origin member with old | rfl | ⟨v, before, rfl | rfl⟩
  · exact opened.hears w old
  · rfl
  · exact Waiter.isDeaf_notice
  · rw [Bool.eq_false_iff]
    intro deaf
    rcases Waiter.isDeaf_advance deaf with old | positive
    · exact absurd old (Bool.eq_false_iff.1 (opened.hears v before))
    · exact positive opened.zero

/-- The step: an open latch stays open. -/
theorem IsOpen.moves (opened : l.IsOpen) (moved : l.Moves m l') : l'.IsOpen where
  zero := moved.zero opened.zero
  told := opened.told_moves moved
  hears _ member := opened.hears_moves moved member

/-- At an open latch nobody moves but the waiter whose step it is. -/
theorem IsOpen.waiter_moves (opened : l.IsOpen) (moved : l.Moves m l') {w : Waiter}
    (here : l.waiters[i]? = some w) :
    l'.waiters[i]? = some (if m = .waiter i then w.advance 0 else w) := by
  cases moved with
  | take | count | leave | gone => exact here
  | notify last => exact absurd (List.mem_of_getElem? last) opened.told
  | join =>
    have bound := (List.getElem?_eq_some_iff.1 here).1
    exact (List.getElem?_append_left bound).trans here
  | @advance j =>
    rw [List.getElem?_modify, here, opened.zero]
    by_cases own : j = i
    · simp [own]
    · simp [own]

/-- A waiter at an open latch has returned once it has made the steps it has left. -/
theorem IsOpen.returned_of_run (opened : l.IsOpen) {w : Waiter} (here : l.waiters[i]? = some w)
    {moves : List Move} (steps : w.stepsLeft ≤ moves.count (.waiter i)) :
    (l.run moves).waiters[i]? = some .returned := by
  induction moves generalizing l w with
  | nil =>
    obtain rfl := Waiter.eq_returned_of_stepsLeft (Nat.le_zero.1 steps)
    exact here
  | cons m moves ih =>
    have moved := moves_of_step l m
    have there := opened.waiter_moves moved here
    refine ih (opened.moves moved) there ?_
    by_cases own : m = .waiter i
    · rw [if_pos own, Waiter.stepsLeft_advance (opened.hears w (List.mem_of_getElem? here))]
      rw [own, List.count_cons_self] at steps
      exact Nat.sub_le_of_le_add steps
    · rw [if_neg own]
      rw [List.count_cons_of_ne own] at steps
      exact steps

/-- In every interleaving of dropped guards and waiters: what remains is the number less the guards
that have counted, and it stays at zero once it is there; a waiter has returned only at zero; and
when all guards are released, no fewer than the latch waits for, nobody sleeps without a notice, and
a waiter returns within five of its own steps, whatever else happens. -/
theorem nobody_left_asleep (n : UInt64) (moves : List Move) :
    let l := (ofCount n.toNat).run moves
    let counted := l.guards.countP Guard.hasCounted
    (counted ≤ n.toNat → l.remaining + counted = n.toNat) ∧
    (n.toNat ≤ counted → l.remaining = 0) ∧
    (.returned ∈ l.waiters → l.remaining = 0) ∧
    ((∀ g ∈ l.guards, g = .released) → n.toNat ≤ l.guards.length →
      .asleep false ∉ l.waiters ∧
      ∀ i < l.waiters.length, ∀ later : List Move, 5 ≤ later.count (.waiter i) →
        (l.run later).waiters[i]? = some .returned) := by
  intro l counted
  have sound : l.Sound n.toNat := sound_of_run n moves
  have count_eq : l.remaining = n.toNat - counted := sound.count_eq
  refine ⟨?_, ?_, ?_, ?_⟩
  · intro few
    rw [count_eq]
    exact Nat.sub_add_cancel few
  · intro many
    rw [count_eq]
    exact Nat.sub_eq_zero_of_le many
  · intro member
    rw [remaining, sound.through .returned member rfl]
    rfl
  · intro released enough
    have opened := sound.isOpen released enough
    constructor
    · intro member
      exact absurd (opened.hears _ member) (by decide)
    · intro i bound later steps
      exact opened.returned_of_run (List.getElem?_eq_getElem bound)
        (Nat.le_trans Waiter.stepsLeft_le steps)

/-- The last count falls between reading and going to sleep: the sleeper has its notice. -/
example :
    ((ofCount 1).run
      [.take, .join, .waiter 0, .waiter 0, .drop 0, .drop 0, .waiter 0]).waiters =
      [.asleep true] := by
  decide

end Latch

end LoadHarness
