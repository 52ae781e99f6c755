import LoadHarness.Proofs.Backend.Accounts
import LoadHarness.Proofs.Lifecycle.Upkeep

/-!
# Handles that are lost

The promise is that a pool which has been taken down leaves no handle of its backend open.
`closed_or_lost` says what becomes of it: once the workers have finished, the handles that are still
open are as many as the operations that broke off, each of which has left its own open. Without such
operations every handle has been closed exactly once.
-/

namespace LoadHarness

variable {κ : Type}

/-- The calls on a handle end with an operation that broke off, and none is a close. -/
def IsLost {ρ : Type} (calls : List (ActionEntry ρ)) : Prop :=
  calls.countP (·.isClose) = 0 ∧ ∃ text, calls.getLast? = some (.answered .run (.panicked text))

/-- Where only operations break off, a handle that was left open was lost. -/
theorem IsLeft.lost {log calls : List (ActionEntry Unit)} (among : calls ∈ callsByHandle log)
    (answered : ∀ x ∈ log, x.isBrokenOff = true → x.IsLoss) (left : IsLeft calls) :
    IsLost calls := by
  obtain ⟨opens, x, last, broken⟩ := left
  have member := mem_of_mem_callsByHandle among (List.mem_of_getLast? last)
  obtain ⟨text, rfl⟩ := answered x member broken
  exact ⟨opens, text, last⟩

/-- What the actions of a worker have waited for is in the ledger. -/
theorem mem_callsIn_of_partOf {log : List (WorkEntry κ)} {i : Nat} {x : ActionEntry Unit}
    (member : x ∈ entriesIn (partOf i log)) : ∃ c ∈ callsIn log, c.entry = x := by
  obtain ⟨c, called, rfl⟩ := List.mem_map.1 member
  obtain ⟨entry, part, calls⟩ := List.mem_flatMap.1 called
  exact ⟨c, List.mem_flatMap.2 ⟨entry, (mem_partOf_iff.1 part).1, calls⟩, rfl⟩

/-- Without operations that broke off nothing was lost. -/
theorem isClosed_of_none_brokenOff {ρ : Type} {log calls : List (ActionEntry ρ)}
    (none : ∀ x ∈ log, x.isBrokenOff = false) (among : calls ∈ callsByHandle log)
    (settled : IsClosed calls ∨ IsLost calls) : IsClosed calls := by
  rcases settled with closed | ⟨-, text, last⟩
  · exact closed
  · have member := mem_of_mem_callsByHandle among (List.mem_of_getLast? last)
    cases none _ member

/-- What is open is the difference of two counters, also where they have turned over. -/
theorem MemoryStats.opened_of_balance {stats : MemoryStats} {closes lost : Nat}
    (acquired : stats.acquired = .ofNat (closes + lost)) (closed : stats.closed = .ofNat closes) :
    stats.opened = .ofNat lost := by
  rw [MemoryStats.opened, acquired, closed, UInt64.ofNat_add, UInt64.add_comm,
    UInt64.add_sub_cancel]

namespace Served

/-- **Handles are closed or lost.** Whatever pool, classes of failures and operations, whether these
break off or not, and whatever happens when: every handle that a finished worker has had was closed
exactly once, as the last thing done with it, or the operation on it broke off and it was never
closed. When all workers have finished, so many handles are open as operations broke off, and none
if none did. -/
theorem closed_or_lost (plan : PoolPlan κ) (tags : List String) (refusals : UInt64)
    {es : List (ServedEvent κ)} {s : Served κ}
    (ran : run plan (fresh plan tags refusals) es = some s) :
    let log := (fresh plan tags refusals).record plan es
    (∀ i w, s.pool.workers[i]? = some w → w.isFinished = true →
      ∀ calls ∈ callsByHandle (entriesIn (partOf i log)), IsClosed calls ∨ IsLost calls) ∧
    ((∀ w ∈ s.pool.workers, w.isFinished = true) →
      s.provider.stats.opened = .ofNat ((callsIn log).countP (·.entry.isBrokenOff)) ∧
      ((∀ c ∈ callsIn log, c.entry.isBrokenOff = false) →
        s.provider.stats.opened = 0 ∧
        ∀ i w, s.pool.workers[i]? = some w →
          ∀ calls ∈ callsByHandle (entriesIn (partOf i log)), IsClosed calls)) := by
  intro log
  have steps := pool_of_run ran
  have nobody : (fresh plan tags refusals).pool.workers = [] := rfl
  have sound : (fresh plan tags refusals).pool.standing.Sound plan := Pool.sound_fresh
  have counts : s.provider.stats.Counts (callsIn log) := counts_of_run (counts_fresh plan tags refusals) ran
  have settled : ∀ i w, s.pool.workers[i]? = some w → w.isFinished = true →
      ∀ calls ∈ callsByHandle (entriesIn (partOf i log)), IsClosed calls ∨ IsLost calls := by
    intro i w here finished
    have course := Pool.course_induction (upkeep plan) sound nobody steps i w here
    unfold Worker.isFinished at finished
    split at finished
    · next gone =>
      rw [gone] at course
      intro calls among
      refine (course.handles calls among).imp_right fun left => left.lost among fun x member => ?_
      obtain ⟨c, called, rfl⟩ := mem_callsIn_of_partOf member
      exact counts.answered c called
    · cases finished
  refine ⟨settled, fun all => ?_⟩
  have idle : (s.pool.inHand fun _ a => a.hasHandle) = 0 := by
    have few := Pool.inHand_le_unfinished (fun _ a => a.hasHandle) s.pool
    rw [Pool.unfinished_eq_zero all] at few
    exact Nat.le_zero.1 few
  have account : (callsIn log).countP (·.entry.opensHandle) =
      (callsIn log).countP (·.entry.isClose) + (callsIn log).countP (·.entry.isBrokenOff) := by
    have whole := Pool.handles_account nobody steps
    rwa [idle, Nat.add_zero] at whole
  have opened : s.provider.stats.opened = .ofNat ((callsIn log).countP (·.entry.isBrokenOff)) :=
    MemoryStats.opened_of_balance (account ▸ counts.acquired) counts.closed
  refine ⟨opened, fun none => ⟨?_, fun i w here calls among => ?_⟩⟩
  · have nothing : (callsIn log).countP (·.entry.isBrokenOff) = 0 :=
      List.countP_eq_zero.2 fun c member => by simp [none c member]
    rw [opened, nothing]
    rfl
  · have own : ∀ x ∈ entriesIn (partOf i log), x.isBrokenOff = false := by
      intro x member
      obtain ⟨c, called, rfl⟩ := mem_callsIn_of_partOf member
      exact none c called
    have finished := all w (List.mem_of_getElem? here)
    exact isClosed_of_none_brokenOff own among (settled i w here finished calls among)

/-- A worker gets a handle, and its operation breaks off. -/
def brokenOff : List (ServedEvent Unit) :=
  [.call .create, .prepared 0 (.ok ()), .call .start, .worker 0 (.pick 0 (some 1)),
    .worker 0 (.paced (.ok ())), .worker 0 .begin, .worker 0 (.act 0 (.answer .acquired)),
    .worker 0 (.act 0 (.answer (.panicked "boom"))), .worker 0 .conclude,
    .worker 0 .fault].map fun m => ⟨1, .pool m⟩

/-- The pool is destroyed, and all of its workers finish before that returns. -/
def takenDown : List (ServedEvent Unit) :=
  [.call .destroy, .proceed 2, .worker 0 .release, .worker 1 (.pick 0 (some 1)),
    .worker 1 .release, .proceed 2, .proceed 2].map fun m => ⟨2, .pool m⟩

/-- A pool that has been destroyed leaves a handle open. -/
theorem left_open :
    ∃ s, run Pool.pair (fresh Pool.pair ["OP"] 0) (brokenOff ++ takenDown) = some s ∧
      s.pool.status = .destroyed ∧ s.pool.result? 2 = some (.ok ()) ∧ s.pool.unfinished = 0 ∧
      s.provider.stats.acquired = 1 ∧ s.provider.stats.closed = 0 ∧ s.provider.stats.opened ≠ 0 :=
  ⟨_, rfl, rfl, rfl, rfl, rfl, rfl, by decide⟩

/-- Both halves at once: one handle lost, and every other one closed. -/
theorem closed_or_lost_taken_down :
    ∃ s, run Pool.pair (fresh Pool.pair ["OP"] 0) (brokenOff ++ takenDown) = some s ∧
      (∀ w ∈ s.pool.workers, w.isFinished = true) ∧ s.provider.stats.opened = 1 ∧
      ∀ calls ∈ callsByHandle (entriesIn (partOf 0
        ((fresh Pool.pair ["OP"] 0).record Pool.pair (brokenOff ++ takenDown)))),
        IsClosed calls ∨ IsLost calls := by
  obtain ⟨s, ran⟩ : ∃ s, run Pool.pair (fresh Pool.pair ["OP"] 0) (brokenOff ++ takenDown) =
    some s := ⟨_, rfl⟩
  have finished : ∀ w ∈ s.pool.workers, w.isFinished = true := by cases ran; decide
  obtain ⟨w, here⟩ : ∃ w, s.pool.workers[0]? = some w := by cases ran; exact ⟨_, rfl⟩
  have once : (callsIn ((fresh Pool.pair ["OP"] 0).record Pool.pair
      (brokenOff ++ takenDown))).countP (·.entry.isBrokenOff) = 1 := by rfl
  obtain ⟨handles, whole⟩ := closed_or_lost Pool.pair ["OP"] 0 ran
  obtain ⟨opened, -⟩ := whole finished
  rw [once] at opened
  exact ⟨s, ran, finished, opened, handles 0 w here (finished w (List.mem_of_getElem? here))⟩

end Served

end LoadHarness
