import LoadHarness.Traffic.Context
import LoadHarness.Text.Cut
import LoadHarness.Proofs.Traffic.Words
import Mathlib.Data.List.Induction
import Mathlib.Data.List.Nodup
import Mathlib.Logic.Function.Basic

/-!
# Names that are given out

A name is an identity, a colon and a number. Identities may hold colons and digits themselves, but a
number holds no colon, so the last colon of a name is the one that ends its identity, and a name
tells both parts. A context only counts up. So as long as no counter runs out of numbers, contexts
with different identities never give out the same name, in whatever order they are asked.
-/

namespace LoadHarness

namespace WorkerContext

/-- The name with an identity and a number. -/
def nameOf (identity : String) (n : Nat) : String := identity ++ ":" ++ toString n

theorem cutLast?_nameOf (identity : String) (n : Nat) :
    Text.cutLast? ':' (nameOf identity n).toList =
      some (identity.toList, Nat.toDigits 10 n) := by
  have colonless : ':' ∉ Nat.toDigits 10 n := by
    intro member
    have digit := Nat.isDigit_of_mem_toDigits (by decide) (by decide) member
    exact absurd digit (by decide)
  have parts : (nameOf identity n).toList = identity.toList ++ ':' :: Nat.toDigits 10 n := by
    rw [nameOf, Nat.toString_eq_ofList_toDigits]
    simp
  rw [parts, Text.cutLast?_append _ colonless]

/-- A name tells its identity and its number. -/
theorem nameOf_inj {a b : String} {m n : Nat} :
    nameOf a m = nameOf b n ↔ a = b ∧ m = n := by
  constructor
  · intro same
    have cut := cutLast?_nameOf a m
    rw [same, cutLast?_nameOf, Option.some.injEq, Prod.mk.injEq] at cut
    obtain ⟨identity, digits⟩ := cut
    constructor
    · exact String.toList_inj.1 identity.symm
    · have read := congrArg (Nat.ofDigitChars 10 · 0) digits.symm
      simpa only [Nat.ofDigitChars_ten_toDigits] using read
  · rintro ⟨rfl, rfl⟩
    rfl

variable {c : WorkerContext} {name : String} {source : WordSource}

theorem randomUrn_eq_none_iff : c.randomUrn source = none ↔ c.counter = 0 := by
  simp [randomUrn]

/-- A drawn name has a number that has been counted. -/
theorem exists_of_randomUrn (drawn : c.randomUrn source = some name) :
    ∃ n, 1 ≤ n ∧ n ≤ c.counter.toNat ∧ name = nameOf c.identity n := by
  unfold randomUrn at drawn
  split at drawn
  · cases drawn
  · next counted =>
    cases drawn
    have positive : 0 < c.counter.toNat := by
      apply Nat.pos_of_ne_zero
      intro zero
      exact counted (UInt64.toNat_inj.1 zero)
    obtain ⟨low, high⟩ := WordSource.oneTo_mem positive source
    exact ⟨_, low, high, rfl⟩

/-- Words after the one that settles the draw make no difference. -/
theorem randomUrn_append (settled : ∃ w ∈ source, WordSource.Settles c.counter.toNat w)
    (later : WordSource) : c.randomUrn (source ++ later) = c.randomUrn source := by
  unfold randomUrn
  rw [WordSource.oneTo_append settled]

/-- The counter counts, unless it has run out of numbers. -/
theorem toNat_increment (room : c.counter.toNat + 1 < UInt64.size) :
    c.increment.2.counter.toNat = c.counter.toNat + 1 := by
  have sum : (c.counter + 1).toNat = (c.counter.toNat + 1) % 2 ^ 64 := UInt64.toNat_add _ _
  exact sum.trans (Nat.mod_eq_of_lt room)

end WorkerContext

/-! ## A family of contexts -/

/-- What a context is asked for. -/
inductive ContextCall where
  | increment
  | nextUrn
  | randomUrn (source : WordSource)

/-- A call of the context of one owner. -/
structure NameRequest (ι : Type) where
  owner : ι
  call : ContextCall

/-- A family of contexts, and the new names that they have given out, in order. -/
structure Roster (ι : Type) where
  contexts : ι → WorkerContext
  given : List String

namespace Roster

open WorkerContext

variable {ι : Type}

/-- New contexts, one for each owner. -/
def fresh (worker : ι → Nat) (identity : ι → String) : Roster ι :=
  ⟨fun i => .fresh (worker i) (identity i), []⟩

/-- After these calls: the names given out have numbers counted so far, no two of them are the same,
and a context that has not counted without giving out a name has given out all its numbers. -/
structure Sound (identity : ι → String) (qs : List (NameRequest ι)) (r : Roster ι) : Prop where
  own : ∀ i, (r.contexts i).identity = identity i
  counter_le : ∀ i, (r.contexts i).counter.toNat ≤ qs.length
  counted : ∀ name ∈ r.given,
    ∃ i, ∃ n ≤ (r.contexts i).counter.toNat, name = nameOf (identity i) n
  nodup : r.given.Nodup
  all : ∀ i, (∀ q ∈ qs, q.owner = i → q.call ≠ .increment) →
    ∀ n, 1 ≤ n → n ≤ (r.contexts i).counter.toNat → nameOf (identity i) n ∈ r.given

variable {identity : ι → String} {qs : List (NameRequest ι)} {r : Roster ι}

theorem sound_fresh (worker : ι → Nat) (identity : ι → String) :
    (fresh worker identity).Sound identity [] := by
  constructor
  · intro i
    rfl
  · intro i
    exact Nat.le_refl 0
  · intro name member
    cases member
  · exact List.nodup_nil
  · intro i _ n low high
    cases low.trans high

/-- The next name of a context is new: a name given out before has another identity, or a number that
was counted before. -/
theorem Sound.unused (sound : r.Sound identity qs) (distinct : Function.Injective identity) (i : ι) :
    nameOf (identity i) ((r.contexts i).counter.toNat + 1) ∉ r.given := by
  intro member
  obtain ⟨j, n, le, same⟩ := sound.counted _ member
  obtain ⟨owner, number⟩ := nameOf_inj.1 same
  obtain rfl := distinct owner
  omega

variable [DecidableEq ι]

/-- The family after a call. -/
def serve (r : Roster ι) (q : NameRequest ι) : Roster ι :=
  let c := r.contexts q.owner
  match q.call with
  | .increment => { r with contexts := Function.update r.contexts q.owner c.increment.2 }
  | .nextUrn => ⟨Function.update r.contexts q.owner c.nextUrn.2, r.given ++ [c.nextUrn.1]⟩
  | .randomUrn _ => r

/-- The family after several calls. -/
def serveAll (r : Roster ι) (qs : List (NameRequest ι)) : Roster ι := qs.foldl serve r

/-- The contexts after that of `i` has counted. -/
theorem Sound.counts (sound : r.Sound identity qs) (room : qs.length + 1 < UInt64.size) (i : ι) :
    let contexts := Function.update r.contexts i (r.contexts i).increment.2
    ∀ j, (contexts j).identity = identity j ∧
      (contexts j).counter.toNat = (r.contexts j).counter.toNat + if j = i then 1 else 0 := by
  intro contexts j
  have bound := sound.counter_le i
  by_cases same : j = i
  · subst same
    have here : contexts j = (r.contexts j).increment.2 := Function.update_self _ _ _
    rw [here, if_pos rfl]
    exact ⟨sound.own j, WorkerContext.toNat_increment (by omega)⟩
  · have there : contexts j = r.contexts j := Function.update_of_ne same _ _
    rw [there, if_neg same]
    exact ⟨sound.own j, rfl⟩

/-- A call that counts, and gives out the new number's name unless it only increments. -/
theorem Sound.counting (sound : r.Sound identity qs) (distinct : Function.Injective identity)
    (room : qs.length + 1 < UInt64.size) (q : NameRequest ι) {new : List String}
    (named : new = [nameOf (identity q.owner) ((r.contexts q.owner).counter.toNat + 1)] ∨
      new = [] ∧ q.call = .increment) :
    Sound identity (qs ++ [q])
      ⟨Function.update r.contexts q.owner (r.contexts q.owner).increment.2, r.given ++ new⟩ := by
  have counts := sound.counts room q.owner
  constructor
  · intro j
    exact (counts j).1
  · intro j
    have bound := sound.counter_le j
    rw [(counts j).2, List.length_append, List.length_singleton]
    split <;> omega
  · intro name member
    rcases List.mem_append.1 member with old | added
    · obtain ⟨j, n, le, same⟩ := sound.counted name old
      refine ⟨j, n, ?_, same⟩
      rw [(counts j).2]
      omega
    · rcases named with rfl | ⟨rfl, -⟩
      · refine ⟨q.owner, (r.contexts q.owner).counter.toNat + 1, ?_, List.mem_singleton.1 added⟩
        rw [(counts q.owner).2, if_pos rfl]
      · cases added
  · rcases named with rfl | ⟨rfl, -⟩
    · have unused := sound.unused distinct q.owner
      apply List.nodup_append.2
      refine ⟨sound.nodup, List.nodup_singleton _, ?_⟩
      rintro a old b added rfl
      exact unused (List.mem_singleton.1 added ▸ old)
    · rw [List.append_nil]
      exact sound.nodup
  · intro j asked n low high
    rw [(counts j).2] at high
    have before : ∀ q ∈ qs, q.owner = j → q.call ≠ .increment := by
      intro q member
      exact asked q (List.mem_append_left _ member)
    by_cases older : n ≤ (r.contexts j).counter.toNat
    · exact List.mem_append_left _ (sound.all j before n low older)
    · have own : j = q.owner := by
        by_contra other
        rw [if_neg other] at high
        exact older high
      subst own
      rw [if_pos rfl] at high
      rcases named with rfl | ⟨-, increments⟩
      · have last : n = (r.contexts q.owner).counter.toNat + 1 := by omega
        rw [last]
        exact List.mem_append_right _ (List.mem_singleton_self _)
      · have here : q ∈ qs ++ [q] := List.mem_append_right _ (List.mem_singleton_self q)
        exact absurd increments (asked q here rfl)

/-- The step: one more call. -/
theorem Sound.serve (sound : r.Sound identity qs) (distinct : Function.Injective identity)
    (room : qs.length + 1 < UInt64.size) (q : NameRequest ι) :
    (r.serve q).Sound identity (qs ++ [q]) := by
  obtain ⟨i, call⟩ := q
  cases call with
  | increment =>
    have counted := sound.counting distinct room ⟨i, .increment⟩ (.inr ⟨rfl, rfl⟩)
    rwa [List.append_nil] at counted
  | nextUrn =>
    have bound := sound.counter_le i
    have name : (r.contexts i).nextUrn.1 =
        nameOf (identity i) ((r.contexts i).counter.toNat + 1) := by
      rw [← sound.own i, ← toNat_increment (by omega)]
      rfl
    exact sound.counting distinct room ⟨i, .nextUrn⟩ (.inl (congrArg (fun name => [name]) name))
  | randomUrn source =>
    constructor
    · exact sound.own
    · intro j
      have bound := sound.counter_le j
      rw [List.length_append]
      exact bound.trans (Nat.le_add_right _ _)
    · exact sound.counted
    · exact sound.nodup
    · intro j asked
      apply sound.all j
      intro q member
      exact asked q (List.mem_append_left _ member)

/-- The run: all calls, as long as they are fewer than there are numbers. -/
theorem sound_serveAll (worker : ι → Nat) (distinct : Function.Injective identity)
    (few : qs.length < UInt64.size) :
    ((fresh worker identity).serveAll qs).Sound identity qs := by
  induction qs using List.reverseRecOn with
  | nil => exact sound_fresh worker identity
  | append_singleton qs q ih =>
    rw [List.length_append, List.length_singleton] at few
    rw [serveAll, List.foldl_append]
    exact (ih (by omega)).serve distinct few q

/-- **No name is given out twice.** New contexts with different identities are called in any order,
less often than there are numbers: all new names that any of them gives out are different. A name is
drawn from a context exactly when it has counted; it is the context's identity with a number counted
so far, so one of the names given out if the context was only asked for names, and never one of
another context; the draw changes no context, and no word after the one that settles it matters. -/
theorem names_never_shared (worker : ι → Nat) (identity : ι → String)
    (distinct : Function.Injective identity) (qs : List (NameRequest ι))
    (few : qs.length < UInt64.size) :
    let r := (fresh worker identity).serveAll qs
    r.given.Nodup ∧
    ∀ i source,
      let c := r.contexts i
      (c.randomUrn source = none ↔ c.counter = 0) ∧
      (∀ name, c.randomUrn source = some name →
        (∃ n, 1 ≤ n ∧ n ≤ c.counter.toNat ∧ name = identity i ++ ":" ++ toString n) ∧
        ((∀ q ∈ qs, q.owner = i → q.call ≠ .increment) → name ∈ r.given) ∧
        ∀ j, j ≠ i → ∀ n : Nat, name ≠ identity j ++ ":" ++ toString n) ∧
      (r.serve ⟨i, .randomUrn source⟩).contexts = r.contexts ∧
      ((∃ w ∈ source, WordSource.Settles c.counter.toNat w) →
        ∀ later, c.randomUrn (source ++ later) = c.randomUrn source) := by
  intro r
  have sound : r.Sound identity qs := sound_serveAll worker distinct few
  refine ⟨sound.nodup, fun i source => ⟨randomUrn_eq_none_iff, ?_, rfl, randomUrn_append⟩⟩
  intro name drawn
  obtain ⟨n, low, high, same⟩ := exists_of_randomUrn drawn
  rw [sound.own i] at same
  refine ⟨⟨n, low, high, same⟩, ?_, ?_⟩
  · intro asked
    rw [same]
    exact sound.all i asked n low high
  · intro j other m shared
    have both : nameOf (identity i) n = nameOf (identity j) m := same.symm.trans shared
    exact other (distinct (nameOf_inj.1 both).1.symm)

/-- The identity of one context is a name of the other one. -/
theorem names_never_shared_lookalikes :
    let identity := fun b : Bool => if b then "a:1" else "a"
    let qs : List (NameRequest Bool) :=
      [⟨false, .nextUrn⟩, ⟨true, .nextUrn⟩, ⟨true, .randomUrn [1, 2]⟩, ⟨false, .nextUrn⟩]
    let r := (fresh (fun _ => 0) identity).serveAll qs
    Function.Injective identity ∧ qs.length < UInt64.size ∧
      r.given = ["a:1", "a:1:1", "a:2"] ∧ r.given.Nodup ∧
      (r.contexts false).randomUrn [9223372036854775808] = some "a:2" ∧ "a:2" ∈ r.given ∧
      ∀ n : Nat, "a:2" ≠ "a:1" ++ ":" ++ toString n := by
  intro identity qs r
  have distinct : Function.Injective identity := by
    intro a b
    revert a b
    decide
  have few : qs.length < UInt64.size := by decide
  have drawn : (r.contexts false).randomUrn [9223372036854775808] = some "a:2" := by
    decide +kernel
  obtain ⟨nodup, each⟩ := names_never_shared (fun _ => 0) identity distinct qs few
  obtain ⟨-, draws, -, -⟩ := each false [9223372036854775808]
  obtain ⟨-, among, apart⟩ := draws "a:2" drawn
  have asked : ∀ q ∈ qs, q.owner = false → q.call ≠ .increment := by
    intro q member
    simp only [qs, List.mem_cons, List.not_mem_nil, or_false] at member
    rcases member with rfl | rfl | rfl | rfl <;> simp
  exact ⟨distinct, few, by decide +kernel, nodup, drawn, among asked, apart true (by decide)⟩

end Roster

end LoadHarness
