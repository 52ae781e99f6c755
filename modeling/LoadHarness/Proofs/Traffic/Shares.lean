import LoadHarness.Traffic.Mix
import Mathlib.Algebra.Order.Ring.Int
import Mathlib.Data.List.Nodup
import Mathlib.Data.List.TakeWhile

/-!
# Which weights make a mix

The checks of a mix stated as facts about its weights and tags: what a sound list is, which of its
faults is reported, and how the types of a sound list lie on the quanta. Weights are words of either
sign and their sum stops at the largest word, but once none is negative the clamped sum is one
hundred only if the exact sum is. Then no share is above one hundred, so that keeping the low half
of a weight and adding such halves lose nothing.
-/

namespace LoadHarness

namespace Text

theorem trimmed_eq_nil_iff {cs : List Char} : trimmed cs = [] ↔ ∀ c ∈ cs, isBlank c = true := by
  rw [← List.dropWhile_eq_nil_iff]
  unfold trimmed dropBlank
  rw [List.reverse_eq_nil_iff, List.dropWhile_eq_nil_iff]
  constructor
  · intro blank
    -- what is left in front does not begin with a blank, so it is empty if it is all blank
    cases left : cs.dropWhile isBlank with
    | nil => rfl
    | cons c rest =>
      have shown := List.head?_dropWhile_not isBlank cs
      have hidden := blank c (by rw [left]; simp)
      simp [left, hidden] at shown
  · intro none c member
    simp [none] at member

theorem allBlank_iff {s : String} : allBlank s = true ↔ trim s = "" := by
  rw [allBlank, List.all_eq_true, ← trimmed_eq_nil_iff, trim]
  constructor
  · intro none
    rw [none]
  · intro empty
    simpa using congrArg String.toList empty

end Text

namespace Mix

variable {ws : List Int64} {ts : List String}

/-- The exact sum of weights. -/
def exactSum (ws : List Int64) : Int := (ws.map Int64.toInt).sum

@[simp] theorem exactSum_nil : exactSum [] = 0 := rfl

@[simp] theorem exactSum_cons (w : Int64) (ws : List Int64) :
    exactSum (w :: ws) = w.toInt + exactSum ws := by
  simp [exactSum]

theorem exactSum_nonneg (nonneg : ∀ w ∈ ws, 0 ≤ w.toInt) : 0 ≤ exactSum ws := by
  induction ws with
  | nil => simp
  | cons w rest ih =>
    have first := nonneg w (by simp)
    have others := ih fun v member => nonneg v (by simp [member])
    rw [exactSum_cons]
    omega

/-- Weights and tags that a mix can be made of. -/
structure Sound (ws : List Int64) (ts : List String) : Prop where
  weights_ne_nil : ws ≠ []
  tags_ne_nil : ts ≠ []
  lengths : ws.length = ts.length
  named : ∀ t ∈ ts, Text.trim t ≠ ""
  distinct : ts.Nodup
  nonneg : ∀ w ∈ ws, 0 ≤ w.toInt
  sum : exactSum ws = total

/-- What is wrong with the pair at a position: a blank tag before a negative weight, and that before
a tag that has come already. -/
inductive FaultAt (ps : List (Int64 × String)) (i : Nat) : MixError → Prop where
  | blank {w : Int64} {t : String} (here : ps[i]? = some (w, t)) (blank : Text.trim t = "") :
    FaultAt ps i (.blankTag i)
  | negative {w : Int64} {t : String} (here : ps[i]? = some (w, t)) (named : Text.trim t ≠ "")
    (below : w.toInt < 0) : FaultAt ps i (.negativeWeight t w)
  | duplicate {w : Int64} {t : String} (here : ps[i]? = some (w, t)) (named : Text.trim t ≠ "")
    (nonneg : 0 ≤ w.toInt) (again : t ∈ (ps.take i).map Prod.snd) : FaultAt ps i (.duplicateTag t)

/-- Nothing is wrong with the pairs before a position. -/
def FaultlessBefore (ps : List (Int64 × String)) (n : Nat) : Prop :=
  ∀ i < n, ∀ e, ¬FaultAt ps i e

/-- The error that weights and tags are rejected with: that of the first check that fails. -/
inductive Rejected (ws : List Int64) (ts : List String) : MixError → Prop where
  | empty (missing : ws = [] ∨ ts = []) : Rejected ws ts .empty
  | length (weights : ws ≠ []) (tags : ts ≠ []) (apart : ws.length ≠ ts.length) :
    Rejected ws ts (.lengthMismatch ws.length ts.length)
  | pair {i : Nat} {e : MixError} (lengths : ws.length = ts.length)
    (before : FaultlessBefore (ws.zip ts) i) (fault : FaultAt (ws.zip ts) i e) : Rejected ws ts e
  | sum (weights : ws ≠ []) (lengths : ws.length = ts.length)
    (faultless : FaultlessBefore (ws.zip ts) ws.length) (off : exactSum ws ≠ total) :
    Rejected ws ts (.invalidSum (.ofInt (min (exactSum ws) Int64.maxValue.toInt)))

/-- The types of a mix lie in the order of their declaration, each from where the one before ends,
and together they fill one hundred percent. -/
structure LaidOut (ws : List Int64) (ts : List String) (m : Mix) : Prop where
  ordinals : m.types.map (·.ordinal) = List.range ws.length
  tags : m.types.map (·.tag) = ts
  shares : m.types.map (fun t => (t.share.toNat : Int)) = ws.map Int64.toInt
  reaches : ∀ i t, m.types[i]? = some t → (t.reach.toNat : Int) = exactSum (ws.take (i + 1))
  reach_le : ∀ t ∈ m.types, t.reach.toNat ≤ total
  last : (m.types.getLast m.types_ne_nil).reach.toNat = total

/-- Positions and tags find the types that were declared, each other's and no others. -/
structure FindsDeclared (ts : List String) (m : Mix) : Prop where
  ordinal : ∀ i < ts.length, ∃ t, m.typeAt i = .ok t ∧ t.ordinal = i ∧ m.typeTagged t.tag = .ok t
  no_ordinal : ∀ i, ts.length ≤ i → m.typeAt i = .error (.ordinalNotFound i)
  tag : ∀ tag ∈ ts, ∃ t, m.typeTagged tag = .ok t ∧ t.tag = tag ∧ m.typeAt t.ordinal = .ok t
  no_tag : ∀ tag, tag ∉ ts → m.typeTagged tag = .error (.tagNotFound tag)

/-! Checks -/

/-- A position has one fault. -/
theorem FaultAt.unique {ps : List (Int64 × String)} {i : Nat} {e e' : MixError}
    (h : FaultAt ps i e) (h' : FaultAt ps i e') : e = e' := by
  cases h <;> cases h' <;> simp_all <;> omega

/-- The fault of one position, as it is looked for. -/
theorem faultAt_next {before rest : List (Int64 × String)} {w : Int64} {t : String} {e : MixError} :
    FaultAt (before ++ (w, t) :: rest) before.length e ↔
      (if Text.allBlank t then some (.blankTag before.length)
      else if w.toInt < 0 then some (.negativeWeight t w)
      else if t ∈ before.map Prod.snd then some (.duplicateTag t) else none) = some e := by
  have here : (before ++ (w, t) :: rest)[before.length]? = some (w, t) := by simp
  have past : (before ++ (w, t) :: rest).take before.length = before := by simp
  constructor
  · intro fault
    cases fault with
    | blank at' blank =>
      obtain ⟨rfl, rfl⟩ : w = _ ∧ t = _ := by simpa [here] using at'
      simp [Text.allBlank_iff.2 blank]
    | negative at' named below =>
      obtain ⟨rfl, rfl⟩ : w = _ ∧ t = _ := by simpa [here] using at'
      simp [Text.allBlank_iff, named, below]
    | duplicate at' named nonneg again =>
      obtain ⟨rfl, rfl⟩ : w = _ ∧ t = _ := by simpa [here] using at'
      rw [past] at again
      simp [Text.allBlank_iff, named, again, Int.not_lt.2 nonneg]
  · split
    · next blank =>
      rintro ⟨⟩
      exact .blank here (Text.allBlank_iff.1 blank)
    · next named =>
      rw [Text.allBlank_iff] at named
      split
      · next below =>
        rintro ⟨⟩
        exact .negative here named below
      · next nonneg =>
        split
        · next again =>
          rintro ⟨⟩
          exact .duplicate here named (Int.not_lt.1 nonneg) (by rw [past]; exact again)
        · rintro ⟨⟩

theorem FaultlessBefore.succ {ps : List (Int64 × String)} {n : Nat} (h : FaultlessBefore ps n)
    (here : ∀ e, ¬FaultAt ps n e) : FaultlessBefore ps (n + 1) := by
  intro i lt e
  rcases Nat.lt_succ_iff_lt_or_eq.1 lt with earlier | rfl
  · exact h i earlier e
  · exact here e

/-- The search goes on with the pairs that it has passed in `seen`. -/
theorem firstFault_eq (before ps : List (Int64 × String)) (seen : List String)
    (known : ∀ t, t ∈ seen ↔ t ∈ before.map Prod.snd)
    (faultless : FaultlessBefore (before ++ ps) before.length) :
    (∀ e, firstFault before.length seen ps = some e →
      ∃ i, FaultlessBefore (before ++ ps) i ∧ FaultAt (before ++ ps) i e) ∧
    (firstFault before.length seen ps = none →
      FaultlessBefore (before ++ ps) (before ++ ps).length) := by
  induction ps generalizing before seen with
  | nil =>
    refine ⟨fun e found => by simp [firstFault] at found, fun _ => ?_⟩
    simpa using faultless
  | cons p rest ih =>
    obtain ⟨w, t⟩ := p
    have step : firstFault before.length seen ((w, t) :: rest) =
        ((if Text.allBlank t then some (.blankTag before.length)
          else if w.toInt < 0 then some (.negativeWeight t w)
          else if t ∈ before.map Prod.snd then some (.duplicateTag t) else none).or
        (firstFault (before.length + 1) (t :: seen) rest)) := by
      simp only [firstFault, List.contains_iff_mem, known]
      split
      · rfl
      · split
        · rfl
        · split <;> rfl
    cases fault : (if Text.allBlank t then some (.blankTag before.length)
        else if w.toInt < 0 then some (.negativeWeight t w)
        else if t ∈ before.map Prod.snd then some (MixError.duplicateTag t) else none) with
    | some e =>
      rw [step, fault, Option.some_or]
      refine ⟨fun e' found => ?_, fun none => by cases none⟩
      cases found
      exact ⟨before.length, faultless, faultAt_next.2 fault⟩
    | none =>
      rw [step, fault, Option.none_or]
      have here (e : MixError) : ¬FaultAt (before ++ (w, t) :: rest) before.length e := by
        rw [faultAt_next, fault]
        exact nofun
      have later := ih (before ++ [(w, t)]) (t :: seen)
        (fun u => by simp [known, or_comm, eq_comm]) (by simpa using faultless.succ here)
      simpa using later

/-! Sums -/

/-- Addition stops at the greatest integer. -/
theorem toInt_addClamped {a b : Int64} (ha : 0 ≤ a.toInt) (hb : 0 ≤ b.toInt) :
    (addClamped a b).toInt = min (a.toInt + b.toInt) Int64.maxValue.toInt := by
  have least : Int64.minValue.toInt = -9223372036854775808 := rfl
  have most : Int64.maxValue.toInt = 9223372036854775807 := rfl
  unfold addClamped
  dsimp only
  split
  · omega
  · split
    · omega
    · have fits : (Int64.ofInt (a.toInt + b.toInt)).toInt = a.toInt + b.toInt :=
        Int64.toInt_ofInt_of_le (by omega) (by omega)
      rw [fits]
      omega

/-- So does a sum. -/
theorem toInt_foldl_addClamped (start : Int64) (least : 0 ≤ start.toInt)
    (nonneg : ∀ w ∈ ws, 0 ≤ w.toInt) :
    (ws.foldl addClamped start).toInt = min (start.toInt + exactSum ws) Int64.maxValue.toInt := by
  have most : Int64.maxValue.toInt = 9223372036854775807 := rfl
  induction ws generalizing start with
  | nil =>
    have bound := start.toInt_le
    simp only [List.foldl_nil, exactSum_nil]
    omega
  | cons w rest ih =>
    have first := nonneg w (by simp)
    have others : ∀ v ∈ rest, 0 ≤ v.toInt := fun v member => nonneg v (by simp [member])
    have sum := toInt_addClamped least first
    have more := exactSum_nonneg others
    rw [List.foldl_cons, ih _ (by omega) others, exactSum_cons, sum]
    omega

theorem le_exactSum (nonneg : ∀ w ∈ ws, 0 ≤ w.toInt) {w : Int64} (member : w ∈ ws) :
    w.toInt ≤ exactSum ws := by
  induction ws with
  | nil => cases member
  | cons v rest ih =>
    have first := nonneg v (by simp)
    have others : ∀ u ∈ rest, 0 ≤ u.toInt := fun u later => nonneg u (by simp [later])
    have more := exactSum_nonneg others
    rw [exactSum_cons]
    rcases List.mem_cons.1 member with rfl | later
    · omega
    · have := ih others later
      omega

theorem exactSum_take_le (nonneg : ∀ w ∈ ws, 0 ≤ w.toInt) (n : Nat) :
    exactSum (ws.take n) ≤ exactSum ws := by
  have split : exactSum ws = exactSum (ws.take n) + exactSum (ws.drop n) := by
    unfold exactSum
    rw [← List.sum_append, ← List.map_append, List.take_append_drop]
  have more : 0 ≤ exactSum (ws.drop n) :=
    exactSum_nonneg fun w member => nonneg w (List.mem_of_mem_drop member)
  omega

/-- A sum that does not stop at the largest word is exact. -/
theorem foldl_addClamped_eq_total_iff (nonneg : ∀ w ∈ ws, 0 ≤ w.toInt) :
    ws.foldl addClamped 0 = 100 ↔ exactSum ws = total := by
  have most : Int64.maxValue.toInt = 9223372036854775807 := rfl
  have hundred : (100 : Int64).toInt = total := rfl
  have sum := toInt_foldl_addClamped 0 (Int.le_refl 0) nonneg
  have zero : (0 : Int64).toInt = 0 := rfl
  rw [← Int64.toInt_inj, sum, hundred, zero, total]
  omega

/-! Layout -/

/-- A weight up to one hundred has no high half. -/
theorem toNat_shareOf {w : Int64} (nonneg : 0 ≤ w.toInt) (le : w.toInt ≤ total) :
    ((shareOf w).toNat : Int) = w.toInt := by
  have whole : (w.toUInt64.toNat : Int) = w.toInt := by
    have word : w.toInt = if 2 * w.toUInt64.toNat < 2 ^ 64 then (w.toUInt64.toNat : Int)
        else w.toUInt64.toNat - (2 ^ 64 : Nat) := BitVec.toInt_eq_toNat_cond w.toBitVec
    have bound := w.toUInt64.toNat_lt
    split at word <;> omega
  rw [shareOf, UInt64.toNat_toUInt32]
  unfold total at le
  omega

theorem ordinals_layOut (ordinal : Nat) (reached : UInt32) (ps : List (Int64 × String)) :
    (layOut ordinal reached ps).map (·.ordinal) = List.range' ordinal ps.length := by
  induction ps generalizing ordinal reached with
  | nil => rfl
  | cons p rest ih => simp [layOut, ih, List.range'_succ]

theorem tags_layOut (ordinal : Nat) (reached : UInt32) (ps : List (Int64 × String)) :
    (layOut ordinal reached ps).map (·.tag) = ps.map Prod.snd := by
  induction ps generalizing ordinal reached with
  | nil => rfl
  | cons p rest ih => simp [layOut, ih]

theorem shares_layOut (ordinal : Nat) (reached : UInt32) {ps : List (Int64 × String)}
    (small : ∀ w ∈ ps.map Prod.fst, 0 ≤ w.toInt ∧ w.toInt ≤ total) :
    (layOut ordinal reached ps).map (fun t => (t.share.toNat : Int)) =
      (ps.map Prod.fst).map Int64.toInt := by
  induction ps generalizing ordinal reached with
  | nil => rfl
  | cons p rest ih =>
    have first := small p.1 (by simp)
    have others := ih (ordinal + 1) (reached + shareOf p.1) fun w member =>
      small w (List.mem_cons_of_mem _ member)
    simp only [layOut, List.map_cons, toNat_shareOf first.1 first.2, others]

theorem reaches_layOut (ordinal : Nat) (reached : UInt32) {ps : List (Int64 × String)}
    (nonneg : ∀ w ∈ ps.map Prod.fst, 0 ≤ w.toInt)
    (fits : reached.toNat + exactSum (ps.map Prod.fst) ≤ total) {i : Nat} {t : OperationType}
    (here : (layOut ordinal reached ps)[i]? = some t) :
    (t.reach.toNat : Int) = reached.toNat + exactSum ((ps.map Prod.fst).take (i + 1)) := by
  induction ps generalizing ordinal reached i with
  | nil => simp [layOut] at here
  | cons p rest ih =>
    have first := nonneg p.1 (by simp)
    have others : ∀ w ∈ rest.map Prod.fst, 0 ≤ w.toInt := fun w member =>
      nonneg w (List.mem_cons_of_mem _ member)
    have more := exactSum_nonneg others
    rw [List.map_cons, exactSum_cons] at fits
    have share := toNat_shareOf first (by omega)
    -- the sum of two halves stays below the end, so nothing is carried out of the word
    have sum : ((reached + shareOf p.1).toNat : Int) = reached.toNat + p.1.toInt := by
      unfold total at fits
      rw [UInt32.toNat_add]
      omega
    cases i with
    | zero =>
      have own : t.reach = reached + shareOf p.1 := by
        simp only [layOut, List.getElem?_cons_zero, Option.some.injEq] at here
        rw [← here]
      rw [own, sum]
      simp
    | succ i =>
      have later := ih (ordinal + 1) (reached + shareOf p.1) others (by omega)
        (by simpa [layOut] using here)
      rw [later, sum, List.map_cons, List.take_succ_cons, exactSum_cons]
      omega

/-- Sound lists are laid out as they should be. -/
theorem laidOut_of_sound (sound : Sound ws ts) {m : Mix} (made : m.types = layOut 0 0 (ws.zip ts)) :
    LaidOut ws ts m := by
  have weights : (ws.zip ts).map Prod.fst = ws := List.map_fst_zip (Nat.le_of_eq sound.lengths)
  have tags : (ws.zip ts).map Prod.snd = ts := List.map_snd_zip (Nat.le_of_eq sound.lengths.symm)
  have count : m.types.length = ws.length := by
    have all := congrArg List.length (ordinals_layOut 0 0 (ws.zip ts))
    simpa [made, sound.lengths] using all
  have reaches (i : Nat) (t : OperationType) (here : m.types[i]? = some t) :
      (t.reach.toNat : Int) = exactSum (ws.take (i + 1)) := by
    have fits : ((0 : UInt32).toNat : Int) + exactSum ws ≤ total := by
      simpa using Int.le_of_eq sound.sum
    have reach := reaches_layOut 0 0 (by rw [weights]; exact sound.nonneg)
      (by rw [weights]; exact fits) (made ▸ here)
    simpa [weights] using reach
  refine ⟨?_, ?_, ?_, reaches, ?_, ?_⟩
  · rw [made, ordinals_layOut, List.length_zip, ← sound.lengths, Nat.min_self,
      ← List.range_eq_range']
  · rw [made, tags_layOut, tags]
  · rw [made, shares_layOut, weights]
    rw [weights]
    exact fun w member => ⟨sound.nonneg w member, sound.sum ▸ le_exactSum sound.nonneg member⟩
  · intro t member
    obtain ⟨i, here⟩ := List.getElem?_of_mem member
    have reach := reaches i t here
    have part := exactSum_take_le sound.nonneg (i + 1)
    have whole := sound.sum
    omega
  · have positive : 0 < m.types.length := List.length_pos_iff.2 m.types_ne_nil
    have reach := reaches (m.types.length - 1) (m.types.getLast m.types_ne_nil) (by
      rw [List.getLast_eq_getElem]
      exact List.getElem?_eq_getElem _)
    rw [Nat.sub_add_cancel positive, count, List.take_length, sound.sum] at reach
    omega

/-! Finding -/

theorem find?_tag {types : List OperationType} (distinct : (types.map (·.tag)).Nodup)
    {t : OperationType} (member : t ∈ types) : types.find? (·.tag == t.tag) = some t := by
  induction types with
  | nil => cases member
  | cons u rest ih =>
    obtain ⟨fresh, distinct⟩ := List.nodup_cons.1 distinct
    rcases List.mem_cons.1 member with rfl | later
    · simp
    · have apart : u.tag ≠ t.tag := fun same => fresh (List.mem_map.2 ⟨t, later, same.symm⟩)
      rw [List.find?_cons_of_neg (by simpa using apart)]
      exact ih distinct later

theorem LaidOut.ordinal_eq {m : Mix} {i : Nat} {t : OperationType} (laid : LaidOut ws ts m)
    (here : m.types[i]? = some t) : t.ordinal = i := by
  have nth := congrArg (·[i]?) laid.ordinals
  have lt : i < ws.length := by
    have shares := congrArg List.length laid.shares
    have := (List.getElem?_eq_some_iff.1 here).1
    simp only [List.length_map] at shares
    omega
  simpa [here, lt] using nth

/-- What has been declared is found by its ordinal and by its tag. -/
theorem findsDeclared_of_laidOut (sound : Sound ws ts) {m : Mix} (laid : LaidOut ws ts m) :
    FindsDeclared ts m := by
  have count : m.types.length = ts.length := by rw [← laid.tags, List.length_map]
  have distinct : (m.types.map (·.tag)).Nodup := laid.tags ▸ sound.distinct
  have tagged (t : OperationType) (member : t ∈ m.types) : m.typeTagged t.tag = .ok t := by
    rw [typeTagged, find?_tag distinct member]
  constructor
  · intro i lt
    have here : m.types[i]? = some m.types[i] := List.getElem?_eq_getElem (by omega)
    refine ⟨m.types[i], ?_, laid.ordinal_eq here, tagged _ (List.getElem_mem _)⟩
    rw [typeAt, here]
  · intro i le
    rw [typeAt, List.getElem?_eq_none (by omega)]
  · intro tag member
    rw [← laid.tags] at member
    obtain ⟨t, declared, rfl⟩ := List.mem_map.1 member
    obtain ⟨i, here⟩ := List.getElem?_of_mem declared
    refine ⟨t, tagged t declared, rfl, ?_⟩
    rw [laid.ordinal_eq here, typeAt, here]
  · intro tag missing
    have none : m.types.find? (·.tag == tag) = none := by
      refine List.find?_eq_none.2 fun t member same => missing ?_
      rw [← laid.tags, ← beq_iff_eq.1 same]
      exact List.mem_map_of_mem member
    rw [typeTagged, none]

/-! Mixes -/

theorem Sound.faultless (sound : Sound ws ts) (n : Nat) : FaultlessBefore (ws.zip ts) n := by
  intro i _ e fault
  have known {w : Int64} {t : String} (here : (ws.zip ts)[i]? = some (w, t)) :
      ws[i]? = some w ∧ ts[i]? = some t := List.getElem?_zip_eq_some.1 here
  cases fault with
  | blank here blank => exact sound.named _ (List.mem_of_getElem? (known here).2) blank
  | negative here _ below =>
    exact Int.not_lt.2 (sound.nonneg _ (List.mem_of_getElem? (known here).1)) below
  | duplicate here _ _ again =>
    rw [List.map_take, List.map_snd_zip (Nat.le_of_eq sound.lengths.symm)] at again
    obtain ⟨j, lt, same⟩ := List.mem_take_iff_getElem.1 again
    obtain ⟨at', eq⟩ := List.getElem?_eq_some_iff.1 (known here).2
    have := (List.Nodup.getElem_inj_iff sound.distinct).1 (same.trans eq.symm)
    omega

/-- Without a faulty pair, only the sum can be wrong. -/
theorem sound_of_faultless (weights : ws ≠ []) (lengths : ws.length = ts.length)
    (faultless : FaultlessBefore (ws.zip ts) ws.length) :
    (∀ w ∈ ws, 0 ≤ w.toInt) ∧ (exactSum ws = total → Sound ws ts) := by
  have here (i : Nat) (lt : i < ws.length) :
      (ws.zip ts)[i]? = some (ws[i], ts[i]) := by
    simp [lt, lengths ▸ lt]
  have named (i : Nat) (lt : i < ws.length) : Text.trim ts[i] ≠ "" :=
    fun blank => faultless i lt _ (.blank (here i lt) blank)
  have nonneg (i : Nat) (lt : i < ws.length) : 0 ≤ ws[i].toInt :=
    Int.not_lt.1 fun below => faultless i lt _ (.negative (here i lt) (named i lt) below)
  have fresh (i : Nat) (lt : i < ws.length) : ts[i] ∉ ts.take i := fun again =>
    faultless i lt _ (.duplicate (here i lt) (named i lt) (nonneg i lt) (by
      rwa [List.map_take, List.map_snd_zip (Nat.le_of_eq lengths.symm)]))
  have allNonneg : ∀ w ∈ ws, 0 ≤ w.toInt := by
    intro w member
    obtain ⟨i, lt, rfl⟩ := List.getElem_of_mem member
    exact nonneg i lt
  refine ⟨allNonneg, fun sum => ⟨weights, ?_, lengths, ?_, ?_, allNonneg, sum⟩⟩
  · exact List.ne_nil_of_length_pos (lengths ▸ List.length_pos_iff.2 weights)
  · intro t member
    obtain ⟨i, lt, rfl⟩ := List.getElem_of_mem member
    exact named i (lengths ▸ lt)
  · refine List.nodup_iff_injective_get.2 fun i j same => ?_
    have bound := i.2
    have bound' := j.2
    by_contra apart
    rcases Nat.lt_or_gt_of_ne fun eq => apart (Fin.ext eq) with lt | lt
    · exact fresh j (by omega) (List.mem_take_iff_getElem.2 ⟨i, by omega, same⟩)
    · exact fresh i (by omega) (List.mem_take_iff_getElem.2 ⟨j, by omega, same.symm⟩)

theorem FaultAt.lt {ps : List (Int64 × String)} {i : Nat} {e : MixError} (h : FaultAt ps i e) :
    i < ps.length := by
  cases h with
  | blank here => exact (List.getElem?_eq_some_iff.1 here).1
  | negative here => exact (List.getElem?_eq_some_iff.1 here).1
  | duplicate here => exact (List.getElem?_eq_some_iff.1 here).1

/-- The scan finds nothing just where nothing is wrong. -/
theorem firstFault_eq_none_iff {ps : List (Int64 × String)} :
    firstFault 0 [] ps = none ↔ FaultlessBefore ps ps.length := by
  obtain ⟨found, clean⟩ := firstFault_eq [] ps [] (by simp)
    (fun i lt => absurd lt (Nat.not_lt_zero i))
  refine ⟨clean, fun faultless => Option.eq_none_iff_forall_ne_some.2 fun e first => ?_⟩
  obtain ⟨i, -, fault⟩ := found e first
  exact faultless i fault.lt e fault

/-- It finds the first fault. -/
theorem firstFault_eq_some_iff {ps : List (Int64 × String)} {e : MixError} :
    firstFault 0 [] ps = some e ↔ ∃ i, FaultlessBefore ps i ∧ FaultAt ps i e := by
  obtain ⟨found, clean⟩ := firstFault_eq [] ps [] (by simp)
    (fun i lt => absurd lt (Nat.not_lt_zero i))
  refine ⟨found e, ?_⟩
  rintro ⟨i, before, fault⟩
  cases first : firstFault 0 [] ps with
  | none => exact absurd fault (clean first i fault.lt e)
  | some e' =>
    obtain ⟨j, before', fault'⟩ := found e' first
    rcases Nat.lt_trichotomy i j with lt | rfl | lt
    · exact absurd fault (before' i lt e)
    · rw [fault.unique fault']
    · exact absurd fault' (before j lt e')

/-- Sound lists make a mix. -/
theorem ofWeights_of_sound (sound : Sound ws ts) :
    ∃ m, ofWeights ws ts = .ok m ∧ m.types = layOut 0 0 (ws.zip ts) := by
  have clean : firstFault 0 [] (ws.zip ts) = none := firstFault_eq_none_iff.2 (sound.faultless _)
  have sum := (foldl_addClamped_eq_total_iff sound.nonneg).2 sound.sum
  unfold ofWeights
  rw [dif_neg sound.weights_ne_nil, if_neg sound.tags_ne_nil, dif_pos sound.lengths]
  simp only [clean, sum, if_true]
  exact ⟨_, rfl, rfl⟩

/-- Others are rejected with the error that is theirs. -/
theorem ofWeights_of_rejected {e : MixError} (rejected : Rejected ws ts e) :
    ofWeights ws ts = .error e := by
  unfold ofWeights
  cases rejected with
  | empty missing =>
    split
    · rfl
    · next weights => rw [if_pos (missing.resolve_left weights)]
  | length weights tags apart => rw [dif_neg weights, if_neg tags, dif_neg apart]
  | pair lengths before fault =>
    have lt := fault.lt
    rw [List.length_zip] at lt
    have weights : ws ≠ [] := List.ne_nil_of_length_pos (by omega)
    have tags : ts ≠ [] := List.ne_nil_of_length_pos (by omega)
    have first := firstFault_eq_some_iff.2 ⟨_, before, fault⟩
    rw [dif_neg weights, if_neg tags, dif_pos lengths]
    simp only [first]
  | sum weights lengths faultless off =>
    have tags : ts ≠ [] := List.ne_nil_of_length_pos (lengths ▸ List.length_pos_iff.2 weights)
    have clean : firstFault 0 [] (ws.zip ts) = none := by
      rw [firstFault_eq_none_iff, List.length_zip, ← lengths, Nat.min_self]
      exact faultless
    have nonneg := (sound_of_faultless weights lengths faultless).1
    have other : ws.foldl addClamped 0 ≠ 100 := by
      rwa [Ne, foldl_addClamped_eq_total_iff nonneg]
    have clamped := toInt_foldl_addClamped 0 (Int.le_refl 0) nonneg
    rw [show (0 : Int64).toInt = 0 from rfl, Int.zero_add] at clamped
    rw [dif_neg weights, if_neg tags, dif_pos lengths]
    simp only [clean, other, if_false, ← clamped, Int64.ofInt_toInt]

/-- There is no third kind of list. -/
theorem sound_or_rejected (ws : List Int64) (ts : List String) :
    Sound ws ts ∨ ∃ e, Rejected ws ts e := by
  by_cases missing : ws = [] ∨ ts = []
  · exact .inr ⟨_, .empty missing⟩
  obtain ⟨weights, tags⟩ := not_or.1 missing
  by_cases lengths : ws.length = ts.length
  swap
  · exact .inr ⟨_, .length weights tags lengths⟩
  cases first : firstFault 0 [] (ws.zip ts) with
  | some e =>
    obtain ⟨i, before, fault⟩ := firstFault_eq_some_iff.1 first
    exact .inr ⟨e, .pair lengths before fault⟩
  | none =>
    have faultless := firstFault_eq_none_iff.1 first
    rw [List.length_zip, ← lengths, Nat.min_self] at faultless
    by_cases sum : exactSum ws = total
    · exact .inl ((sound_of_faultless weights lengths faultless).2 sum)
    · exact .inr ⟨_, .sum weights lengths faultless sum⟩

/-- A mix is made of sound weights and tags and of no others, and those are rejected with the error
of the first check that fails. Its types are laid out without loss, and found by position and by
tag. -/
theorem made_or_rejected (ws : List Int64) (ts : List String) :
    ((∃ m, ofWeights ws ts = .ok m) ↔ Sound ws ts) ∧
      (∀ e, ofWeights ws ts = .error e ↔ Rejected ws ts e) ∧
      ∀ m, ofWeights ws ts = .ok m → LaidOut ws ts m ∧ FindsDeclared ts m := by
  rcases sound_or_rejected ws ts with sound | ⟨e, rejected⟩
  · obtain ⟨m, made, types⟩ := ofWeights_of_sound sound
    have laid := laidOut_of_sound sound types
    refine ⟨⟨fun _ => sound, fun _ => ⟨m, made⟩⟩, fun e => ⟨fun failed => ?_, fun rejected => ?_⟩,
      fun m' made' => ?_⟩
    · rw [made] at failed
      cases failed
    · exact ofWeights_of_rejected rejected
    · obtain rfl : m = m' := by
        rw [made] at made'
        exact Except.ok.inj made'
      exact ⟨laid, findsDeclared_of_laidOut sound laid⟩
  · have failed := ofWeights_of_rejected rejected
    refine ⟨⟨fun ⟨m, made⟩ => ?_, fun sound => ?_⟩, fun e' => ⟨fun failed' => ?_, fun rejected' => ?_⟩,
      fun m made => ?_⟩
    · rw [failed] at made
      cases made
    · obtain ⟨m, made, -⟩ := ofWeights_of_sound sound
      rw [failed] at made
      cases made
    · obtain rfl : e = e' := by
        rw [failed] at failed'
        exact Except.error.inj failed'
      exact rejected
    · exact ofWeights_of_rejected rejected'
    · rw [failed] at made
      cases made

/-- A mix whose first type has no share. -/
theorem made_or_rejected_idle :
    ∃ m, ofWeights [0, 30, 70] ["IDLE", "READ", "WRITE"] = .ok m ∧
      LaidOut [0, 30, 70] ["IDLE", "READ", "WRITE"] m ∧
      FindsDeclared ["IDLE", "READ", "WRITE"] m :=
  ⟨_, rfl, (made_or_rejected _ _).2.2 _ rfl⟩

-- the exact sum is 2⁶⁴ + 100, and one that wrapped around would be accepted
example : ofWeights [4611686018427387904, 4611686018427387904, 4611686018427387904,
    4611686018427387904, 100] ["A", "B", "C", "D", "E"] = .error (.invalidSum 9223372036854775807) :=
  rfl

end Mix

end LoadHarness
