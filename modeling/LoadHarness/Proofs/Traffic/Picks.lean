import LoadHarness.Proofs.Traffic.Shares
import LoadHarness.Proofs.Traffic.Words
import Mathlib.Algebra.BigOperators.Ring.Finset
import Mathlib.Order.Interval.Finset.Nat

/-!
# Which quanta pick a type

The types of a mix lie one after another on the quanta. Those in front of a position take every
quantum up to the sum of their weights between them, or none if that sum is nothing, wherever types
without a share stand among them. So a type is left with the quanta from there up to its own limit:
as many as its weight, and the zero besides if it is the first with a share.
-/

namespace LoadHarness

namespace Mix

variable {ws : List Int64} {ts : List String} {m : Mix} {i q : Nat} {t : OperationType}

/-- What the weights in front of a position add up to. -/
def start (m : Mix) (i : Nat) : Nat := ((m.types.take i).map (·.weight)).sum

/-- A quantum passes every type with a share in front of a position. -/
def PassedBefore (m : Mix) (q i : Nat) : Prop :=
  ∀ j < i, ∀ u, m.types[j]? = some u → 0 < u.weight → u.limit < q

/-- The type at a position is the first with a share whose limit a quantum does not pass. -/
structure FirstFor (m : Mix) (q i : Nat) (t : OperationType) : Prop where
  here : m.types[i]? = some t
  share : 0 < t.weight
  within : q ≤ t.limit
  passed : m.PassedBefore q i

theorem start_succ (here : m.types[i]? = some t) : m.start (i + 1) = m.start i + t.weight := by
  unfold start
  rw [List.take_add_one, here]
  simp

theorem start_eq_zero_iff : m.start i = 0 ↔ ∀ u ∈ m.types.take i, u.weight = 0 := by
  simp only [start, List.sum_eq_zero_iff_forall_eq_nat, List.forall_mem_map]

theorem isReachable_iff : t.isReachable = true ↔ 0 < t.weight ∧ 0 < t.limit := by
  simp [OperationType.isReachable]

/-- Of two types that are first for a quantum, one would have been passed. -/
theorem FirstFor.unique {j : Nat} {u : OperationType} (h : m.FirstFor q i t)
    (h' : m.FirstFor q j u) : t = u := by
  rcases Nat.lt_trichotomy i j with lt | rfl | lt
  · exact absurd (h'.passed i lt t h.here h.share) (Nat.not_lt.2 h.within)
  · exact Option.some.inj (h.here.symm.trans h'.here)
  · exact absurd (h.passed j lt u h'.here h'.share) (Nat.not_lt.2 h'.within)

theorem sound_of_made (made : ofWeights ws ts = .ok m) : Sound ws ts ∧ LaidOut ws ts m := by
  rcases sound_or_rejected ws ts with sound | ⟨e, rejected⟩
  · obtain ⟨m', made', types⟩ := ofWeights_of_sound sound
    rw [made] at made'
    cases made'
    exact ⟨sound, laidOut_of_sound sound types⟩
  · rw [ofWeights_of_rejected rejected] at made
    cases made

namespace LaidOut

variable (laid : LaidOut ws ts m)

include laid

theorem start_eq (i : Nat) : (m.start i : Int) = exactSum (ws.take i) := by
  have shares : (m.types.take i).map (fun t => (t.weight : Int)) = (ws.take i).map Int64.toInt := by
    rw [List.map_take, List.map_take]
    exact congrArg (List.take i) laid.shares
  rw [start, exactSum, ← shares, Nat.cast_list_sum, List.map_map]
  rfl

/-- The quanta of a type end where its weight does. -/
theorem limit_eq (here : m.types[i]? = some t) : t.limit = m.start i + t.weight := by
  have reach := laid.reaches i t here
  rw [← laid.start_eq, start_succ here] at reach
  exact Int.ofNat_inj.1 reach

theorem start_length : m.start m.types.length = total := by
  have positive : 0 < m.types.length := List.length_pos_iff.2 m.types_ne_nil
  have here : m.types[m.types.length - 1]? = some (m.types.getLast m.types_ne_nil) := by
    rw [List.getLast_eq_getElem]
    exact List.getElem?_eq_getElem _
  have whole := start_succ here
  rw [← laid.limit_eq here, Nat.sub_add_cancel positive] at whole
  exact whole.trans laid.last

/-- What the types in front of a position leave: all quanta if none of them has a share, and
otherwise those above the sum of their weights. -/
theorem passedBefore_iff : m.PassedBefore q i ↔ m.start i = 0 ∨ m.start i < q := by
  induction i with
  | zero => simp [PassedBefore, start]
  | succ i ih =>
    have step : m.PassedBefore q (i + 1) ↔
        m.PassedBefore q i ∧ ∀ u, m.types[i]? = some u → 0 < u.weight → u.limit < q :=
      Nat.forall_lt_succ_right
    rw [step, ih]
    cases here : m.types[i]? with
    | none =>
      have same : m.start (i + 1) = m.start i := by simp [start, List.take_add_one, here]
      simp [same]
    | some t =>
      have limit := laid.limit_eq here
      simp only [Option.some.injEq, forall_eq', start_succ here, limit]
      omega

theorem firstFor_iff (here : m.types[i]? = some t) :
    m.FirstFor q i t ↔
      0 < t.weight ∧ q ≤ m.start i + t.weight ∧ (m.start i = 0 ∨ m.start i < q) := by
  rw [← laid.limit_eq here, ← laid.passedBefore_iff]
  exact ⟨fun h => ⟨h.share, h.within, h.passed⟩, fun ⟨share, within, passed⟩ =>
    ⟨here, share, within, passed⟩⟩

/-- Some type takes a quantum: all of them together would only leave those above one hundred. -/
theorem find?_eq_pick (le : q ≤ total) :
    m.types.find? (fun t => t.isReachable && q ≤ t.limit) = some (m.pick q) := by
  unfold pick
  cases found : m.types.find? fun t => t.isReachable && q ≤ t.limit with
  | some t => rfl
  | none =>
    have passed : m.PassedBefore q m.types.length := by
      intro j _ u here share
      have refused := List.find?_eq_none.1 found u (List.mem_of_getElem? here)
      have limit := laid.limit_eq here
      simp only [Bool.and_eq_true, isReachable_iff, decide_eq_true_eq] at refused
      omega
    rw [laid.passedBefore_iff, laid.start_length] at passed
    unfold total at passed le
    omega

/-- What is picked for a quantum is the first type that reaches it. -/
theorem firstFor_pick (le : q ≤ total) : ∃ i, m.FirstFor q i (m.pick q) := by
  obtain ⟨taken, i, lt, same, earlier⟩ :=
    List.find?_eq_some_iff_getElem.1 (laid.find?_eq_pick le)
  simp only [Bool.and_eq_true, isReachable_iff, decide_eq_true_eq] at taken
  refine ⟨i, by rw [← same, List.getElem?_eq_getElem], taken.1.1, taken.2, ?_⟩
  intro j before u here share
  obtain ⟨_, rfl⟩ := List.getElem?_eq_some_iff.1 here
  have limit := laid.limit_eq here
  have refused := earlier j before
  simp only [Bool.not_eq_true', ← Bool.not_eq_true, Bool.and_eq_true, isReachable_iff,
    decide_eq_true_eq] at refused
  omega

/-- Nothing else is picked. -/
theorem pick_eq_iff (here : m.types[i]? = some t) (le : q ≤ total) :
    m.pick q = t ↔ m.FirstFor q i t := by
  obtain ⟨j, first⟩ := laid.firstFor_pick le
  constructor
  · rintro rfl
    have same : i = j := (laid.ordinal_eq here).symm.trans (laid.ordinal_eq first.here)
    rwa [same]
  · exact first.unique

/-- The quanta of a type are those from where it begins to its limit, and none without a share. -/
theorem card_picking (here : m.types[i]? = some t) :
    {q ∈ Finset.range (total + 1) | m.pick q = t}.card =
      if t.weight = 0 then 0 else if m.start i = 0 then t.weight + 1 else t.weight := by
  have fits : m.start i + t.weight ≤ total := by
    rw [← laid.limit_eq here]
    exact laid.reach_le t (List.mem_of_getElem? here)
  have picking (q : Nat) : q ∈ {q ∈ Finset.range (total + 1) | m.pick q = t} ↔
      0 < t.weight ∧ q ≤ m.start i + t.weight ∧ (m.start i = 0 ∨ m.start i < q) := by
    rw [Finset.mem_filter, Finset.mem_range, Nat.lt_succ_iff]
    constructor
    · rintro ⟨le, picked⟩
      exact (laid.firstFor_iff here).1 ((laid.pick_eq_iff here le).1 picked)
    · intro first
      have le : q ≤ total := first.2.1.trans fits
      exact ⟨le, (laid.pick_eq_iff here le).2 ((laid.firstFor_iff here).2 first)⟩
  split
  · next none =>
    refine Finset.card_eq_zero.2 (Finset.eq_empty_of_forall_notMem fun q member => ?_)
    have := (picking q).1 member
    omega
  · next share =>
    split
    · next front =>
      have stretch : {q ∈ Finset.range (total + 1) | m.pick q = t} = Finset.Icc 0 t.weight := by
        ext q
        rw [picking, Finset.mem_Icc]
        omega
      rw [stretch, Nat.card_Icc]
      rfl
    · next behind =>
      have stretch : {q ∈ Finset.range (total + 1) | m.pick q = t} =
          Finset.Ioc (m.start i) (m.start i + t.weight) := by
        ext q
        rw [picking, Finset.mem_Ioc]
        omega
      rw [stretch, Nat.card_Ioc]
      omega

end LaidOut

/-- **A quantum picks the first type with a share whose limit it does not pass**, and never the one
that is there for want of such a type. Each type that was declared is picked by as many of the
quanta that are drawn as its weight says, and the first one with a share by one more. -/
theorem picked_by_weight (made : ofWeights ws ts = .ok m) :
    (∀ q, (∃ source, (WordSource.quantum source).1 = q) ↔ q ≤ total) ∧
      (∀ q ≤ total, m.types.find? (fun t => t.isReachable && q ≤ t.limit) = some (m.pick q) ∧
        ∃ i, m.FirstFor q i (m.pick q)) ∧
      ∀ i t, m.types[i]? = some t →
        ts[i]? = some t.tag ∧ ws[i]?.map Int64.toInt = some (t.weight : Int) ∧
          (t.limit : Int) = exactSum (ws.take (i + 1)) ∧
          {q ∈ Finset.range (total + 1) | m.pick q = t}.card =
            if t.weight = 0 then 0
            else if ∀ u ∈ m.types.take i, u.weight = 0 then t.weight + 1 else t.weight := by
  have laid := (sound_of_made made).2
  refine ⟨fun q => WordSource.quantum_iff.symm, fun q le => ⟨laid.find?_eq_pick le,
    laid.firstFor_pick le⟩, fun i t here => ⟨?_, ?_, laid.reaches i t here, ?_⟩⟩
  · rw [← laid.tags, List.getElem?_map, here]
    rfl
  · rw [← List.getElem?_map, ← laid.shares, List.getElem?_map, here]
    rfl
  · simp only [laid.card_picking here, start_eq_zero_iff]

/-- Types without a share in front and in the middle. -/
theorem picked_by_weight_idle :
    ∃ m, ofWeights [0, 30, 0, 70] ["IDLE", "READ", "SCAN", "WRITE"] = .ok m ∧
      (∃ i, m.FirstFor 30 i (m.pick 30)) ∧ (m.pick 30).tag = "READ" ∧
      {q ∈ Finset.range (total + 1) | m.pick q = ⟨0, "IDLE", 0, 0⟩}.card = 0 ∧
      {q ∈ Finset.range (total + 1) | m.pick q = ⟨1, "READ", 30, 30⟩}.card = 31 ∧
      {q ∈ Finset.range (total + 1) | m.pick q = ⟨3, "WRITE", 70, 100⟩}.card = 70 := by
  have made : ofWeights [0, 30, 0, 70] ["IDLE", "READ", "SCAN", "WRITE"] = .ok _ := rfl
  obtain ⟨-, first, counts⟩ := picked_by_weight made
  exact ⟨_, made, (first 30 (by decide)).2, rfl, (counts 0 _ rfl).2.2.2, (counts 1 _ rfl).2.2.2,
    (counts 3 _ rfl).2.2.2⟩

end Mix

end LoadHarness
