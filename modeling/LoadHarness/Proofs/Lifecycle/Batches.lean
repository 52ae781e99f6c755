import LoadHarness.Proofs.Lifecycle.Course
import Mathlib.Algebra.BigOperators.Group.List.Basic

/-!
# Batches

A worker takes an operation, has its cost granted in tokens, and then owes as many actions of that
operation. It begins them one after the other, whatever becomes of each, unless it leaves its loop
in the middle and drops the rest. So what was granted has been begun, dropped, or is still owed, for
all workers together and for every batch of each.
-/

namespace LoadHarness

variable {κ : Type}

namespace WorkerPhase

/-- Actions of its batch that a worker in this phase has still to begin. -/
def owing : WorkerPhase → Nat
  | .between _ left => left.toNat
  | .acting _ left _ _ => left.toNat - 1
  | _ => 0

/-- The worker has left its loop. -/
def isOut : WorkerPhase → Bool
  | .failed _ => true
  | .leaving => true
  | .finished => true
  | _ => false

/-- Batches are not empty, and nor is what is left of one before an action. -/
def Positive : WorkerPhase → Prop
  | .pacing _ cost => cost ≠ 0
  | .between _ left => left ≠ 0
  | _ => True

theorem toNat_sub_one {left : UInt32} (more : ¬left ≤ 1) : (left - 1).toNat = left.toNat - 1 := by
  have many : ¬left.toNat ≤ 1 := more
  have one : (1 : UInt32) ≤ left := by
    show 1 ≤ left.toNat
    omega
  exact UInt32.toNat_sub_of_le left 1 one

/-- If a batch goes on after an action, something is left of it. -/
theorem positive_afterAction (operation : OperationType) (left : UInt32) :
    (Pool.afterAction operation left).Positive := by
  unfold Pool.afterAction
  split
  · trivial
  · next more =>
    intro none
    have many : ¬left.toNat ≤ 1 := more
    have rest := toNat_sub_one more
    rw [none] at rest
    have : (0 : UInt32).toNat = 0 := rfl
    omega

/-- After an action one less is owed than before it. -/
theorem owing_afterAction (operation : OperationType) (left : UInt32) :
    (Pool.afterAction operation left).owing = left.toNat - 1 := by
  unfold Pool.afterAction
  split
  · next last =>
    have few : left.toNat ≤ 1 := last
    show 0 = left.toNat - 1
    omega
  · next more => exact toNat_sub_one more

theorem isOut_afterAction (operation : OperationType) (left : UInt32) :
    (Pool.afterAction operation left).isOut = false := by
  unfold Pool.afterAction
  split <;> rfl

end WorkerPhase

namespace WorkEntry

/-- The limiter has granted the worker its batch. -/
def isGrant (x : WorkEntry κ) : Bool :=
  match x.move with
  | .paced (.ok ()) => true
  | _ => false

/-- Tokens that the limiter has granted to the worker. -/
def granted (x : WorkEntry κ) : Nat :=
  match x.before, x.move with
  | .pacing _ cost, .paced (.ok ()) => cost.toNat
  | _, _ => 0

/-- One for an action that the worker has begun. -/
def begun (x : WorkEntry κ) : Nat :=
  match x.move with
  | .begin => 1
  | _ => 0

/-- Actions of its batch that the worker drops when it leaves its loop. -/
def dropped (x : WorkEntry κ) : Nat := if x.after.isOut then x.before.owing else 0

end WorkEntry

/-- All tokens on record that were granted. -/
def grantedIn (log : List (WorkEntry κ)) : Nat := (log.map (·.granted)).sum

/-- All actions on record that were begun. -/
def begunIn (log : List (WorkEntry κ)) : Nat := (log.map (·.begun)).sum

/-- All actions on record that were dropped. -/
def droppedIn (log : List (WorkEntry κ)) : Nat := (log.map (·.dropped)).sum

namespace Pool

variable {plan : PoolPlan κ} {p q : Pool κ} {es : List (PoolEvent κ)}

/-- Actions that all workers have still to begin of their batches. -/
def owing (p : Pool κ) : Nat := stockOf (·.owing) p

/-- What a turn of a worker does to its tokens. -/
theorem tokens_of_turn {cancelled halted : Bool} {now number : Nat} {before after : WorkerPhase}
    {m : WorkerMove κ} (i : Nat) (positive : before.Positive)
    (turns : before.Turns plan cancelled halted now number m after) :
    after.Positive ∧ (WorkEntry.mk i before m after).granted + before.owing =
      (WorkEntry.mk i before m after).begun + (WorkEntry.mk i before m after).dropped +
        after.owing := by
  -- whatever an action has come to, the next one follows or nothing was left
  have goesOn (operation : OperationType) (left : UInt32) :
      (afterAction operation left).Positive ∧ 0 + (left.toNat - 1) =
        0 + (if (afterAction operation left).isOut then left.toNat - 1 else 0) +
          (afterAction operation left).owing := by
    rw [WorkerPhase.isOut_afterAction, WorkerPhase.owing_afterAction]
    exact ⟨WorkerPhase.positive_afterAction _ _, by simp⟩
  cases turns with
  | picks _ some => exact ⟨some, rfl⟩
  | @granted operation cost =>
    refine ⟨positive, ?_⟩
    show cost.toNat + 0 = 0 + 0 + cost.toNat
    omega
  | @begins operation left =>
    have some : left.toNat ≠ 0 := fun none => positive (UInt32.toNat_inj.1 none)
    refine ⟨trivial, ?_⟩
    show 0 + left.toNat = 1 + 0 + (left.toNat - 1)
    omega
  | succeeds => exact goesOn _ _
  | givesUp => exact goesOn _ _
  | _ => exact ⟨trivial, rfl⟩

/-- The run: what was granted, and what was owed at first, has been begun, dropped, or is still
owed. -/
theorem tokens_balance (positive : ∀ w ∈ p.workers, w.phase.Positive)
    (ran : run plan p es = some q) :
    grantedIn (record plan p es) + p.owing =
      begunIn (record plan p es) + droppedIn (record plan p es) + q.owing := by
  have all := balance_where (fun _ => True) WorkerPhase.Positive (·.granted)
    (fun x => x.begun + x.dropped) (·.owing) rfl trivial (fun i _ => tokens_of_turn i) positive
    (fun _ _ => trivial) ran
  rwa [List.sum_map_add] at all

end Pool

/-! ## Batch after batch -/

/-- A batch that a worker has taken, and what has become of it. -/
structure Batch where
  /-- The operation that was picked for it. -/
  operation : OperationType
  cost : UInt32
  /-- The limiter has granted the cost. -/
  granted : Bool
  /-- The operations of the actions begun so far. -/
  actions : List OperationType
  /-- Actions that its worker has dropped. -/
  dropped : Nat

namespace Batch

/-- All actions were of the operation picked, and so many more are still owed. -/
structure Owes (b : Batch) (owing : Nat) : Prop where
  granted : b.granted = true
  own : b.actions = List.replicate b.actions.length b.operation
  sum : b.actions.length + owing = b.cost.toNat
  undropped : b.dropped = 0

/-- All actions were of the operation picked, and no more are to come: of what was granted the rest
was dropped. -/
structure Ended (b : Batch) : Prop where
  own : b.actions = List.replicate b.actions.length b.operation
  sum : b.actions.length + b.dropped = if b.granted then b.cost.toNat else 0

end Batch

/-- The batches of a worker after another turn, the latest first. -/
def WorkEntry.batches (mix : Mix) (x : WorkEntry κ) (bs : List Batch) : List Batch :=
  match x.move, x.after, bs with
  | .pick quantum (some cost), .pacing _ _, bs => ⟨mix.pick quantum, cost, false, [], 0⟩ :: bs
  | .paced (.ok ()), _, b :: bs => { b with granted := true } :: bs
  | .begin, .acting operation _ _ _, b :: bs => { b with actions := b.actions ++ [operation] } :: bs
  | .conclude, _, b :: bs => { b with dropped := b.dropped + x.dropped } :: bs
  | .unnoted, _, b :: bs => { b with dropped := b.dropped + x.dropped } :: bs
  | _, _, bs => bs

/-- The batches that a worker has taken, the latest first. -/
def batchesOf (mix : Mix) (log : List (WorkEntry κ)) : List Batch :=
  log.foldl (fun bs x => x.batches mix bs) []

/-- Batches grow turn by turn. -/
theorem batchesOf_concat (mix : Mix) (log : List (WorkEntry κ)) (x : WorkEntry κ) :
    batchesOf mix (log ++ [x]) = x.batches mix (batchesOf mix log) := by
  simp [batchesOf]

/-- How the batches of a worker stand in each phase: only the latest is not complete. -/
inductive InBatch : List Batch → WorkerPhase → Prop where
  | looping {bs} (done : ∀ b ∈ bs, b.Owes 0) : InBatch bs .looping
  | pacing {bs operation cost} (done : ∀ b ∈ bs, b.Owes 0) (positive : cost ≠ 0) :
      InBatch (⟨operation, cost, false, [], 0⟩ :: bs) (.pacing operation cost)
  | between {b bs left} (done : ∀ b ∈ bs, b.Owes 0) (owes : b.Owes left.toNat)
      (positive : left ≠ 0) : InBatch (b :: bs) (.between b.operation left)
  | acting {b bs left since a} (done : ∀ b ∈ bs, b.Owes 0) (owes : b.Owes (left.toNat - 1)) :
      InBatch (b :: bs) (.acting b.operation left since a)
  | out {bs phase} (gone : phase.isOut = true) (done : ∀ b ∈ bs.tail, b.Owes 0)
      (last : ∀ b ∈ bs.head?, b.Ended) : InBatch bs phase

/-- What the batches of a worker, the latest first, come to in a phase: each granted batch has as
many actions as it cost, but the latest, of which the worker owes what its phase says, or has dropped
the rest when it left. -/
structure Accounted (bs : List Batch) (phase : WorkerPhase) : Prop where
  earlier : ∀ b ∈ bs.tail, b.Owes 0
  looping : phase = .looping → ∀ b ∈ bs, b.Owes 0
  current : phase.isOut = false → ∀ b ∈ bs.head?, b.granted = true → b.Owes phase.owing
  last : phase.isOut = true → ∀ b ∈ bs.head?, b.Ended

namespace Batch

/-- A batch of which nothing is owed has ended. -/
theorem Owes.ended {b : Batch} (h : b.Owes 0) : b.Ended := by
  refine ⟨h.own, ?_⟩
  rw [h.undropped, h.granted]
  exact h.sum

/-- A worker drops what it owes. -/
theorem Owes.drop {b : Batch} {n : Nat} (h : b.Owes n) : Ended { b with dropped := b.dropped + n } := by
  refine ⟨h.own, ?_⟩
  show b.actions.length + (b.dropped + n) = if b.granted then b.cost.toNat else 0
  rw [h.undropped, h.granted, Nat.zero_add]
  exact h.sum

/-- A worker begins one of the actions that it owes. -/
theorem Owes.begin {b : Batch} {n : Nat} (h : b.Owes n) (some : n ≠ 0) :
    Owes { b with actions := b.actions ++ [b.operation] } (n - 1) := by
  have sum := h.sum
  refine ⟨h.granted, ?_, ?_, h.undropped⟩
  · show b.actions ++ [b.operation] = List.replicate (b.actions ++ [b.operation]).length b.operation
    rw [List.length_append, List.length_singleton, List.replicate_succ', ← h.own]
  · show (b.actions ++ [b.operation]).length + (n - 1) = b.cost.toNat
    rw [List.length_append, List.length_singleton]
    omega

end Batch

namespace InBatch

variable {plan : PoolPlan κ} {bs : List Batch} {phase : WorkerPhase}

/-- Batches that are all complete are so for a worker that leaves. -/
theorem leaves (done : ∀ b ∈ bs, b.Owes 0) (gone : phase.isOut = true) : InBatch bs phase :=
  .out gone (fun b member => done b (List.mem_of_mem_tail member))
    fun b first => (done b (List.mem_of_mem_head? first)).ended

/-- After an action its worker takes the next one, or another batch. -/
theorem afterAction {b : Batch} {left : UInt32} (done : ∀ b ∈ bs, b.Owes 0)
    (owes : b.Owes (left.toNat - 1)) :
    InBatch (b :: bs) (Pool.afterAction b.operation left) := by
  unfold Pool.afterAction
  split
  · next last =>
    have few : left.toNat ≤ 1 := last
    have none : left.toNat - 1 = 0 := by omega
    rw [none] at owes
    exact .looping (List.forall_mem_cons.2 ⟨owes, done⟩)
  · next more =>
    have many : ¬left.toNat ≤ 1 := more
    have rest := WorkerPhase.toNat_sub_one more
    refine .between done (rest ▸ owes) fun none => ?_
    rw [none] at rest
    have : (0 : UInt32).toNat = 0 := rfl
    omega

/-- Between two batches all are complete. -/
theorem of_looping (h : InBatch bs .looping) : ∀ b ∈ bs, b.Owes 0 := by
  cases h with
  | looping done => exact done
  | out gone => cases gone

/-- A worker that waits for tokens has a batch that is not granted yet. -/
theorem of_pacing {operation : OperationType} {cost : UInt32} (h : InBatch bs (.pacing operation cost)) :
    cost ≠ 0 ∧ ∃ rest, bs = ⟨operation, cost, false, [], 0⟩ :: rest ∧ ∀ b ∈ rest, b.Owes 0 := by
  cases h with
  | pacing done positive => exact ⟨positive, _, rfl, done⟩
  | out gone => cases gone

/-- One that is about to begin an action owes it and those after it. -/
theorem of_between {operation : OperationType} {left : UInt32}
    (h : InBatch bs (.between operation left)) :
    left ≠ 0 ∧ ∃ b rest, bs = b :: rest ∧ b.operation = operation ∧ b.Owes left.toNat ∧
      ∀ b ∈ rest, b.Owes 0 := by
  cases h with
  | between done owes positive => exact ⟨positive, _, _, rfl, rfl, owes, done⟩
  | out gone => cases gone

/-- One in an action owes those after it. -/
theorem of_acting {operation : OperationType} {left : UInt32} {since : Nat} {a : Action Unit}
    (h : InBatch bs (.acting operation left since a)) :
    ∃ b rest, bs = b :: rest ∧ b.operation = operation ∧ b.Owes (left.toNat - 1) ∧
      ∀ b ∈ rest, b.Owes 0 := by
  cases h with
  | acting done owes => exact ⟨_, _, rfl, rfl, owes, done⟩
  | out gone => cases gone

/-- One that is out of its loop owes nothing. -/
theorem of_out (h : InBatch bs phase) (gone : phase.isOut = true) :
    (∀ b ∈ bs.tail, b.Owes 0) ∧ ∀ b ∈ bs.head?, b.Ended := by
  cases h with
  | out _ done last => exact ⟨done, last⟩
  | _ => cases gone

/-- A worker that does not get the tokens for a batch leaves. -/
theorem unpaid {operation : OperationType} {cost : UInt32} {rest : List Batch}
    (done : ∀ b ∈ rest, b.Owes 0) (gone : phase.isOut = true) :
    InBatch (⟨operation, cost, false, [], 0⟩ :: rest) phase := by
  refine .out gone done fun b first => ?_
  cases first
  exact ⟨rfl, rfl⟩

/-- A worker that leaves after an action drops the others. -/
theorem drops {b : Batch} {rest : List Batch} {n : Nat} (owes : b.Owes n)
    (done : ∀ b ∈ rest, b.Owes 0) (gone : phase.isOut = true) :
    InBatch ({ b with dropped := b.dropped + n } :: rest) phase := by
  refine .out gone done fun b' first => ?_
  cases first
  exact owes.drop

/-- The step: every turn of a worker leaves its batches as its phase has them. -/
theorem turn {cancelled halted : Bool} {now number : Nat} {before after : WorkerPhase}
    {m : WorkerMove κ} (h : InBatch bs before)
    (turns : before.Turns plan cancelled halted now number m after) (i : Nat) :
    InBatch ((WorkEntry.mk i before m after).batches plan.mix bs) after := by
  have goesOn {operation : OperationType} {left : UInt32} {since : Nat} {a : Action Unit}
      (h : InBatch bs (.acting operation left since a)) :
      InBatch ((WorkEntry.mk i (.acting operation left since a) (.conclude : WorkerMove κ)
        (Pool.afterAction operation left)).batches plan.mix bs) (Pool.afterAction operation left) := by
    obtain ⟨b, rest, rfl, rfl, owes, done⟩ := h.of_acting
    have none : (WorkEntry.mk i (.acting b.operation left since a) (.conclude : WorkerMove κ)
        (Pool.afterAction b.operation left)).dropped = 0 :=
      if_neg (by simp [WorkerPhase.isOut_afterAction])
    unfold WorkEntry.batches
    rw [none]
    exact afterAction done owes
  cases turns with
  | stays => exact .looping h.of_looping
  | @leaves quantum cost =>
    have done := h.of_looping
    cases cost <;> exact leaves done rfl
  | breaksOff => exact leaves h.of_looping rfl
  | picks _ positive => exact .pacing h.of_looping positive
  | quits =>
    obtain ⟨-, rest, rfl, done⟩ := h.of_pacing
    exact unpaid done rfl
  | @granted operation cost =>
    obtain ⟨positive, rest, rfl, done⟩ := h.of_pacing
    have paid : Batch.Owes ⟨operation, cost, true, [], 0⟩ cost.toNat :=
      ⟨rfl, rfl, Nat.zero_add _, rfl⟩
    exact .between done paid positive
  | refused | unpaced =>
    obtain ⟨-, rest, rfl, done⟩ := h.of_pacing
    exact unpaid done rfl
  | begins =>
    obtain ⟨positive, b, rest, rfl, rfl, owes, done⟩ := h.of_between
    exact .acting done (owes.begin fun none => positive (UInt32.toNat_inj.1 none))
  | touches =>
    obtain ⟨b, rest, rfl, rfl, owes, done⟩ := h.of_acting
    exact .acting done owes
  | acts =>
    obtain ⟨b, rest, rfl, rfl, owes, done⟩ := h.of_acting
    exact .acting done owes
  | succeeds => exact goesOn h
  | givesUp => exact goesOn h
  | obeys | fails | crashes | unnoted =>
    obtain ⟨b, rest, rfl, rfl, owes, done⟩ := h.of_acting
    exact drops owes done rfl
  | faults | releases =>
    obtain ⟨done, last⟩ := h.of_out rfl
    exact .out rfl done last

/-- What the batches of a worker come to. -/
theorem accounted (h : InBatch bs phase) : Accounted bs phase := by
  cases h with
  | looping done =>
    exact ⟨fun b later => done b (List.mem_of_mem_tail later), fun _ => done,
      fun _ b first _ => done b (List.mem_of_mem_head? first), nofun⟩
  | pacing done =>
    refine ⟨done, nofun, fun _ b first paid => ?_, nofun⟩
    cases first
    cases paid
  | between done owes =>
    refine ⟨done, nofun, fun _ b first _ => ?_, nofun⟩
    cases first
    exact owes
  | acting done owes =>
    refine ⟨done, nofun, fun _ b first _ => ?_, nofun⟩
    cases first
    exact owes
  | out gone done last =>
    refine ⟨done, ?_, fun staying => absurd (gone.symm.trans staying) nofun, fun _ => last⟩
    rintro rfl
    cases gone

theorem positive (h : InBatch bs phase) : phase.Positive := by
  cases phase with
  | pacing => exact h.of_pacing.1
  | between => exact h.of_between.1
  | _ => trivial

end InBatch

namespace Pool

variable {plan : PoolPlan κ} {p q : Pool κ} {es : List (PoolEvent κ)}

/-- The batches of a worker stand as its phase has them all its course. -/
theorem inBatch (plan : PoolPlan κ) :
    CourseInvariant plan fun log _ phase => InBatch (batchesOf plan.mix log) phase where
  launch := .looping nofun
  cancel := id
  turn {log _ _ _ _ i _ _ _} h turns _ := by
    rw [batchesOf_concat]
    exact h.turn turns i

/-- The run: so it is for every worker after every schedule. -/
theorem inBatch_of_run (ran : run plan (fresh plan) es = some p) {i : Nat} {w : Worker κ}
    (launched : p.workers[i]? = some w) :
    InBatch (batchesOf plan.mix (partOf i (record plan (fresh plan) es))) w.phase :=
  course_induction (inBatch plan) sound_fresh rfl ran i w launched

/-- No worker ever waits for nothing, or is about to begin nothing. -/
theorem positive_of_run (ran : run plan (fresh plan) es = some p) :
    ∀ w ∈ p.workers, w.phase.Positive := by
  intro w member
  obtain ⟨i, launched⟩ := List.getElem?_of_mem member
  exact (inBatch_of_run ran launched).positive

/-- The run: what was granted has been begun, dropped, or is still owed. -/
theorem granted_eq (ran : run plan (fresh plan) es = some p) :
    grantedIn (record plan (fresh plan) es) =
      begunIn (record plan (fresh plan) es) + droppedIn (record plan (fresh plan) es) + p.owing :=
  tokens_balance (fun w nobody => by cases nobody) ran

/-- Nothing is owed by workers that have finished. -/
theorem owing_eq_zero (finished : ∀ w ∈ p.workers, w.isFinished = true) : p.owing = 0 := by
  refine List.sum_eq_zero_iff_forall_eq_nat.2 fun n member => ?_
  obtain ⟨w, among, rfl⟩ := List.mem_map.1 member
  have done := finished w among
  unfold Worker.isFinished at done
  split at done
  · next gone => rw [gone]; rfl
  · cases done

end Pool

end LoadHarness
