import LoadHarness.Proofs.Backend.Serving
import LoadHarness.Proofs.Lifecycle.Sound

/-!
# The books of a run

The backend counts calls, and the timers count what workers conclude; neither knows of the other.
`books_agree` compares the two sets of figures with each other and with the ledger of the pool,
while it runs and when all of its workers have finished.
-/

namespace LoadHarness

variable {κ : Type}

/-- Something breaks off, which here can only be the workload. -/
def ServedEvent.breaksOff (e : ServedEvent κ) : Bool :=
  match e.move with
  | .pool m => m.breaksOff
  | .arm _ _ => false

namespace Pool

variable {plan : PoolPlan κ} {p : Pool κ}

theorem unfinished_eq_zero (all : ∀ w ∈ p.workers, w.isFinished = true) : p.unfinished = 0 :=
  List.countP_eq_zero.2 fun w member => by simp [all w member]

/-- As long as the unfinished workers are of one generation there are no more than the plan says. -/
theorem unfinished_le_threads (sound : p.standing.Sound plan) {g : Nat}
    (bound : p.remainingOf g ≤ plan.threads)
    (one : ∀ w ∈ p.workers, w.isFinished = false → w.generation = g) :
    p.unfinished ≤ plan.threads := by
  have counted : p.remainingOf g = Badge.unfinishedIn p.standing.crew g + p.standing.waitingIn g :=
    sound.counted g
  have same : Badge.unfinishedIn p.standing.crew g = p.unfinished := by
    unfold Badge.unfinishedIn standing unfinished
    rw [List.countP_map]
    refine List.countP_congr fun w member => ?_
    have own := one w member
    cases done : w.isFinished <;> simp_all [Worker.badge]
  omega

end Pool

/-- Counters that have not turned over compare as their counts do. -/
theorem between_of_counts {low high : UInt64} {m n k : Nat} (lower : low = .ofNat m)
    (upper : high = .ofNat n) (least : m ≤ n) (most : n ≤ m + k) (fits : n < UInt64.size) :
    low ≤ high ∧ high.toNat ≤ low.toNat + k := by
  have low_eq : low.toNat = m := by
    rw [lower, UInt64.toNat_ofNat_of_lt' (Nat.lt_of_le_of_lt least fits)]
  have high_eq : high.toNat = n := by rw [upper, UInt64.toNat_ofNat_of_lt' fits]
  exact ⟨UInt64.le_iff_toNat_le.2 (by omega), by omega⟩

namespace Served

/-- **The books agree.** Whatever pool, classes of failures and operations, as long as these neither
break off nor use a handle but to arm it, and whatever happens when: while the pool runs the timers
are behind the backend by no more operations than there are unfinished workers, and when all have
finished the figures of the timers, of the backend and of the ledger are the same. -/
theorem books_agree (plan : PoolPlan κ) (tags : List String) (refusals : UInt64)
    {es : List (ServedEvent κ)} {s : Served κ} (calm : ∀ e ∈ es, e.breaksOff = false)
    (ran : run plan (fresh plan tags refusals) es = some s) :
    let log := (fresh plan tags refusals).record plan es
    let stats := s.provider.stats
    let timers := s.pool.timers
    (∃ noted saved : Nat, timers.total = .ofNat noted ∧ stats.committed = .ofNat saved ∧
      saved = (callsIn log).countP (·.entry.isCommitted) ∧
      noted ≤ saved ∧ saved ≤ noted + s.pool.unfinished ∧
      (saved < UInt64.size → timers.total ≤ stats.committed ∧
        stats.committed.toNat ≤ timers.total.toNat + s.pool.unfinished)) ∧
    (∀ g, (∀ w ∈ s.pool.workers, w.isFinished = false → w.generation = g) →
      s.pool.unfinished ≤ plan.threads) ∧
    ((∀ w ∈ s.pool.workers, w.isFinished = true) →
      (∀ tag,
        (timers.timer tag).latency.count =
          .ofNat ((callsIn log).countP fun c => c.entry.isCommitted && c.tag == tag) ∧
        ((callsIn log).countP fun c => c.entry.isCommitted && c.tag == tag) =
          ((endsIn log).countP fun o => o.isGood && o.tag == tag) ∧
        (timers.timer tag).failures =
          .ofNat ((endsIn log).countP fun o => o.isFailure && o.tag == tag)) ∧
      timers.total = stats.committed ∧
      stats.acquired = stats.closed ∧
      stats.closed = stats.committed + stats.rolledBack +
        .ofNat ((callsIn log).countP (·.entry.isBroken plan.policy))) := by
  intro log stats timers
  have steps := pool_of_run ran
  have quiet : ∀ e ∈ es.filterMap (·.pool?), e.move.breaksOff = false := by
    intro e member
    obtain ⟨⟨now, move⟩, among, seen⟩ := List.mem_filterMap.1 member
    cases move with
    | pool m => cases seen; exact calm _ among
    | arm => cases seen
  have nobody : (fresh plan tags refusals).pool.workers = [] := rfl
  have counts : stats.Counts (callsIn log) := counts_of_run (counts_fresh plan tags refusals) ran
  have tallies : timers.Tallies (concludedIn log) :=
    Pool.tallies_of_run (Timers.tallies_ofTags tags) steps
  have held (S : String → Action Unit → Bool) : s.pool.inHand S ≤ s.pool.unfinished :=
    Pool.inHand_le_unfinished S s.pool
  refine ⟨?_, fun g one => ?_, fun all => ?_⟩
  · have goods :
        (callsIn log).countP (·.entry.isCommitted) = (concludedIn log).countP (·.isGood) + _ :=
      Pool.goods_balance nobody quiet steps
    have few := held fun _ a => a.hasEndedWell || a.hasSaved
    refine ⟨_, _, tallies.total, counts.committed, rfl, by omega, by omega, fun fits => ?_⟩
    exact between_of_counts tallies.total counts.committed (by omega) (by omega) fits
  · have sound : (fresh plan tags refusals).pool.standing.Sound plan := Pool.sound_fresh
    have none (g : Nat) : (fresh plan tags refusals).pool.remainingOf g ≤ plan.threads :=
      Nat.le_trans (Nat.le_of_eq (Pool.remainingOf_fresh plan g)) (Nat.zero_le _)
    exact Pool.unfinished_le_threads (Pool.sound_of_continuation sound steps)
      (Pool.remainingOf_le_threads none steps g) one
  · have idle (S : String → Action Unit → Bool) : s.pool.inHand S = 0 :=
      Nat.le_zero.1 (Pool.unfinished_eq_zero all ▸ held S)
    have settled {a b : Nat} {S : String → Action Unit → Bool} (balance : a = b + s.pool.inHand S) :
        a = b := by rw [balance, idle, Nat.add_zero]
    have ends (P : ActionEnd → Bool) : (endsIn log).countP P = (concludedIn log).countP P :=
      settled (Pool.ends_balance P nobody quiet steps)
    have saved (of : String → Bool) :
        (callsIn log).countP (fun c => c.entry.isCommitted && of c.tag) =
          (endsIn log).countP fun o => o.isGood && of o.tag :=
      settled (Pool.saved_balance of nobody quiet steps)
    refine ⟨fun tag => ⟨?_, saved (· == tag), ?_⟩, ?_, ?_, ?_⟩
    · rw [tallies.counts, saved (· == tag), ends]
    · rw [tallies.failures, ends]
    · rw [tallies.total, counts.committed]
      exact congrArg _ (settled (Pool.goods_balance nobody quiet steps)).symm
    · rw [counts.acquired, counts.closed]
      exact congrArg _ (settled (Pool.handles_balance nobody quiet steps))
    · rw [counts.closed, counts.committed, counts.rolledBack, ← UInt64.ofNat_add,
        ← UInt64.ofNat_add]
      exact congrArg _ (settled (Pool.closes_balance nobody quiet steps)).symm

/-- Two workers that try everything once and take every failure for final. -/
def stubborn : PoolPlan Unit :=
  { Pool.pair with policy := ⟨.noRetry, fun _ => .nonTransient⟩ }

/-- One worker saves its first piece of work, arms its second handle, and gives the second one up;
then both are stopped. -/
def savedAndLost : List (ServedEvent Unit) :=
  ([.call .create, .prepared 0 (.ok ()), .call .start, .worker 0 (.pick 0 (some 2)),
      .worker 0 (.paced (.ok ())), .worker 0 .begin, .worker 0 (.act 0 (.answer .acquired)),
      .worker 0 (.act 0 (.answer (.returned ()))), .worker 0 (.act 0 (.answer .committed)),
      .worker 0 (.act 0 (.answer .closed)), .worker 0 .conclude, .worker 0 .begin,
      .worker 0 (.act 0 (.answer .acquired))].map fun m => ⟨1, .pool m⟩) ++
    [⟨2, .arm 0 (.connection "reset")⟩] ++
    ([.worker 0 (.act 0 (.answer (.returned ()))),
      .worker 0 (.act 0 (.answer (.commitFailed (.connection "reset")))),
      .worker 0 (.act 0 (.answer .rolledBack)), .worker 0 (.act 0 (.answer .closed)),
      .worker 0 .conclude, .call .stop, .worker 0 (.pick 0 (some 1)), .worker 0 .release,
      .worker 1 (.pick 0 (some 1)), .worker 1 .release].map fun m => ⟨3, .pool m⟩)

/-- Two handles, one piece of work saved and one failure counted, and all books say so. -/
theorem books_agree_saved_and_lost :
    ∃ s, run stubborn (fresh stubborn ["OP"] 0) savedAndLost = some s ∧
      (∀ e ∈ savedAndLost, e.breaksOff = false) ∧ s.pool.unfinished = 0 ∧
      s.provider.stats = ⟨2, 1, 1, 2, 0⟩ ∧ s.pool.timers.total = s.provider.stats.committed ∧
      (s.pool.timers.timer "OP").failures = 1 := by
  obtain ⟨s, ran⟩ : ∃ s, run stubborn (fresh stubborn ["OP"] 0) savedAndLost = some s := ⟨_, rfl⟩
  have calm : ∀ e ∈ savedAndLost, e.breaksOff = false := by decide
  have stats : s.provider.stats = ⟨2, 1, 1, 2, 0⟩ := by cases ran; rfl
  have idle : s.pool.workers.all (·.isFinished) = true := by cases ran; rfl
  have finished : ∀ w ∈ s.pool.workers, w.isFinished = true := List.all_eq_true.1 idle
  have lost : (endsIn ((fresh stubborn ["OP"] 0).record stubborn savedAndLost)).countP
      (fun o => o.isFailure && o.tag == "OP") = 1 := by rfl
  obtain ⟨-, -, agree⟩ := books_agree stubborn ["OP"] 0 calm ran
  obtain ⟨tagged, total, -, -⟩ := agree finished
  refine ⟨s, ran, calm, Pool.unfinished_eq_zero finished, stats, total, ?_⟩
  rw [(tagged "OP").2.2, lost]
  rfl

end Served

end LoadHarness
