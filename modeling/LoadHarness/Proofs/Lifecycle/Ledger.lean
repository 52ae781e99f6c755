import LoadHarness.Proofs.Latency.Tally
import LoadHarness.Proofs.Lifecycle.Work
import Mathlib.Algebra.BigOperators.Group.List.Basic

/-!
# The ledger of a pool

The record of a schedule is read here as a ledger: the calls that all actions have made, the ends
that they came to, and the ends that workers have concluded. What the accounts of a single action
say holds of the whole ledger, up to what the workers have in hand.
-/

namespace LoadHarness

variable {κ : Type}

/-- A call of an action under a tag, and what came of it. -/
structure WorkCall where
  tag : String
  entry : ActionEntry Unit

namespace WorkEntry

/-- The call whose answer, or whose abandonment, moves an action. -/
def calls (x : WorkEntry κ) : List WorkCall :=
  match x.before, x.move with
  | .acting operation _ _ a, .act _ m => (a.entries m).map (⟨operation.tag, ·⟩)
  | _, _ => []

/-- The end that an action comes to. -/
def ends (x : WorkEntry κ) : List ActionEnd :=
  match x.move, x.after with
  | .begin, .acting operation _ _ a => (a.end?.map (⟨operation.tag, ·⟩)).toList
  | .act _ _, .acting operation _ _ a => (a.end?.map (⟨operation.tag, ·⟩)).toList
  | _, _ => []

/-- The end that a worker concludes. -/
def concluded (x : WorkEntry κ) : List ActionEnd :=
  match x.before, x.move with
  | .acting operation _ _ a, .conclude => (a.end?.map (⟨operation.tag, ·⟩)).toList
  | _, _ => []

end WorkEntry

/-- All calls on record, in order. -/
def callsIn (log : List (WorkEntry κ)) : List WorkCall := log.flatMap (·.calls)

/-- All ends of actions on record. -/
def endsIn (log : List (WorkEntry κ)) : List ActionEnd := log.flatMap (·.ends)

/-- All ends on record that workers have concluded. -/
def concludedIn (log : List (WorkEntry κ)) : List ActionEnd := log.flatMap (·.concluded)

/-- What a worker in this phase has in hand, an action under a tag counting as one where `S` holds
of it. -/
def WorkerPhase.inHand (S : String → Action Unit → Bool) : WorkerPhase → Nat
  | .acting operation _ _ a => (S operation.tag a).toNat
  | _ => 0

/-- A worker has at most one action in hand. -/
theorem WorkerPhase.inHand_le (S : String → Action Unit → Bool) (phase : WorkerPhase) :
    phase.inHand S ≤ 1 := by
  cases phase with
  | acting => exact Bool.toNat_le _
  | _ => exact Nat.zero_le 1

theorem WorkerPhase.inHand_afterAction (S : String → Action Unit → Bool) (operation : OperationType)
    (left : UInt32) : (Pool.afterAction operation left).inHand S = 0 := by
  unfold Pool.afterAction
  split <;> rfl

namespace Pool

variable {plan : PoolPlan κ} {p q : Pool κ} {es : List (PoolEvent κ)}

/-- What all workers have in hand. -/
def inHand (S : String → Action Unit → Bool) (p : Pool κ) : Nat :=
  (p.workers.map fun w => w.phase.inHand S).sum

/-- Workers that have not finished. -/
def unfinished (p : Pool κ) : Nat := p.workers.countP (!·.isFinished)

/-- Only workers that have not finished have anything in hand. -/
theorem inHand_le_unfinished (S : String → Action Unit → Bool) (p : Pool κ) :
    p.inHand S ≤ p.unfinished := by
  unfold inHand unfinished
  induction p.workers with
  | nil => exact Nat.le_refl _
  | cons w rest ih =>
    rw [List.map_cons, List.sum_cons, List.countP_cons]
    have one : w.phase.inHand S ≤ if !w.isFinished then 1 else 0 := by
      cases done : w.isFinished with
      | false => exact w.phase.inHand_le S
      | true =>
        unfold Worker.isFinished at done
        split at done
        · next gone => rw [gone]; exact Nat.zero_le _
        · cases done
    omega

theorem stockOf_nobody (stock : WorkerPhase → Nat) (nobody : p.workers = []) :
    stockOf stock p = 0 := by
  rw [stockOf, nobody]
  rfl

/-- The balance of a ledger that begins with the pool and in which nothing breaks off, given that of
every turn. -/
theorem ledger_balance {gain loss : WorkEntry κ → Nat} {S : String → Action Unit → Bool}
    (turn : ∀ {cancelled halted now number before} {m : WorkerMove κ} {after} (i : Nat),
      m.breaksOff = false → before.Turns plan cancelled halted now number m after →
      gain ⟨i, before, m, after⟩ + before.inHand S = loss ⟨i, before, m, after⟩ + after.inHand S)
    (nobody : p.workers = []) (calm : ∀ e ∈ es, e.move.breaksOff = false)
    (ran : run plan p es = some q) :
    ((record plan p es).map gain).sum = ((record plan p es).map loss).sum + q.inHand S := by
  have all := balance_where (·.breaksOff = false) (fun _ => True) gain loss (·.inHand S) rfl trivial
    (fun i calm _ turns => ⟨trivial, turn i calm turns⟩) (fun _ _ => trivial) calm ran
  rwa [stockOf_nobody _ nobody] at all

/-- The calls of a turn are what its action has waited for. -/
theorem countP_calls (P : WorkCall → Bool) (i : Nat) (operation : OperationType) (left : UInt32)
    (since slot : Nat) (a : Action Unit) (m : ActionMove Unit) (after : WorkerPhase) :
    (WorkEntry.mk i (.acting operation left since a) (.act slot m : WorkerMove κ) after).calls.countP
      P = (a.entries m).countP fun x => P ⟨operation.tag, x⟩ := List.countP_map

/-- The end of an action counts as one. -/
theorem countP_end (P : ActionEnd → Bool) (tag : String) (a : Action Unit) :
    ((a.end?.map (ActionEnd.mk tag)).toList).countP P =
      (a.end?.any fun r => P ⟨tag, r⟩).toNat := by
  cases a.end? with
  | none => rfl
  | some r =>
    rw [Option.map_some, Option.toList_some, List.countP_singleton, Option.any_some]
    cases P ⟨tag, r⟩ <;> rfl

theorem any_isOk (a : Action Unit) (c : Bool) :
    (a.end?.any fun r => r.isOk && c) = (a.hasEndedWell && c) := by
  unfold Action.hasEndedWell
  cases a.end? <;> rfl

/-- A new action has nothing in hand. -/
theorem begin_inHand {S : String → Action Unit → Bool}
    (idle : ∀ tag a, Action.isIdle a = true → S tag a = false) (policy : RetryPolicy)
    (cancelled : Bool) (operation : OperationType) (left : UInt32) (since : Nat) :
    (WorkerPhase.acting operation left since (policy.begin cancelled)).inHand S = 0 := by
  have none := idle operation.tag _ (policy.isIdle_approach cancelled 0 0)
  exact congrArg Bool.toNat none

/-- Handles that were opened have been closed, are in hand, or were lost with a call on them that
broke off. -/
theorem handles_account (nobody : p.workers = []) (ran : run plan p es = some q) :
    (callsIn (record plan p es)).countP (·.entry.opensHandle) =
      (callsIn (record plan p es)).countP (·.entry.isClose) +
        (callsIn (record plan p es)).countP (·.entry.isBrokenOff) +
        q.inHand fun _ a => a.hasHandle := by
  simp only [callsIn, List.countP_flatMap, Function.comp_def, ← List.sum_map_add]
  have all := balance (fun x => x.calls.countP (·.entry.opensHandle))
    (fun x => x.calls.countP (·.entry.isClose) + x.calls.countP (·.entry.isBrokenOff))
    (·.inHand fun _ a => a.hasHandle) rfl ?_ ran
  · rwa [stockOf_nobody _ nobody] at all
  intro cancelled halted now number before m after i turns
  cases turns with
  | acts moved =>
    rw [countP_calls, countP_calls, countP_calls]
    exact RetryPolicy.handle_flow moved
  | begins => rw [begin_inHand fun _ _ => Action.hasHandle_of_isIdle]; rfl
  | succeeds => rw [WorkerPhase.inHand_afterAction]; rfl
  | givesUp => rw [WorkerPhase.inHand_afterAction]; rfl
  | _ => rfl

/-- No call on a handle has broken off where nothing does. -/
theorem brokenOff_eq_zero (calm : ∀ e ∈ es, e.move.breaksOff = false)
    (ran : run plan p es = some q) :
    (callsIn (record plan p es)).countP (·.entry.isBrokenOff) = 0 := by
  simp only [callsIn, List.countP_flatMap, Function.comp_def]
  have all := balance_where (·.breaksOff = false) (fun _ => True)
    (fun x => x.calls.countP (·.entry.isBrokenOff)) (fun _ => 0) (fun _ => 0) rfl trivial ?_
    (fun _ _ => trivial) calm ran
  · simpa [stockOf] using all
  intro cancelled halted now number before m after i calm _ turns
  cases turns with
  | acts moved =>
    rw [countP_calls]
    exact ⟨trivial, RetryPolicy.not_brokenOff calm⟩
  | _ => exact ⟨trivial, rfl⟩

/-- Handles that were opened have been closed or are in hand, where nothing breaks off. -/
theorem handles_balance (nobody : p.workers = []) (calm : ∀ e ∈ es, e.move.breaksOff = false)
    (ran : run plan p es = some q) :
    (callsIn (record plan p es)).countP (·.entry.opensHandle) =
      (callsIn (record plan p es)).countP (·.entry.isClose) + q.inHand fun _ a => a.hasHandle := by
  rw [handles_account nobody ran, brokenOff_eq_zero calm ran, Nat.add_zero]

/-- Every close has a reason: a commit, a rollback or a broken connection. -/
theorem closes_balance (nobody : p.workers = []) (calm : ∀ e ∈ es, e.move.breaksOff = false)
    (ran : run plan p es = some q) :
    (callsIn (record plan p es)).countP (·.entry.isCommitted) +
        (callsIn (record plan p es)).countP (·.entry.isRollback) +
        (callsIn (record plan p es)).countP (·.entry.isBroken plan.policy) =
      (callsIn (record plan p es)).countP (·.entry.isClose) + q.inHand fun _ a => a.isClosing := by
  simp only [callsIn, List.countP_flatMap, Function.comp_def, ← List.sum_map_add]
  refine ledger_balance ?_ nobody calm ran
  intro cancelled halted now number before m after i calm turns
  cases turns with
  | acts moved =>
    rw [countP_calls, countP_calls, countP_calls, countP_calls]
    exact RetryPolicy.close_flow calm moved
  | begins => rw [begin_inHand fun _ _ => Action.isClosing_of_isIdle]; rfl
  | succeeds => rw [WorkerPhase.inHand_afterAction]; rfl
  | givesUp => rw [WorkerPhase.inHand_afterAction]; rfl
  | _ => rfl

/-- Ends that actions have come to have been concluded or are in hand. -/
theorem ends_balance (P : ActionEnd → Bool) (nobody : p.workers = [])
    (calm : ∀ e ∈ es, e.move.breaksOff = false) (ran : run plan p es = some q) :
    (endsIn (record plan p es)).countP P =
      (concludedIn (record plan p es)).countP P +
        q.inHand fun tag a => a.end?.any fun r => P ⟨tag, r⟩ := by
  simp only [endsIn, concludedIn, List.countP_flatMap, Function.comp_def]
  refine ledger_balance ?_ nobody calm ran
  intro cancelled halted now number before m after i calm turns
  have comes (operation : OperationType) (a : Action Unit) :
      ((a.end?.map (ActionEnd.mk operation.tag)).toList).countP P + 0 =
        0 + (a.end?.any fun r => P ⟨operation.tag, r⟩).toNat := by
    rw [countP_end, Nat.add_comm]
  have goes (operation : OperationType) (a : Action Unit) :
      0 + (a.end?.any fun r => P ⟨operation.tag, r⟩).toNat =
        ((a.end?.map (ActionEnd.mk operation.tag)).toList).countP P + 0 := by
    rw [countP_end, Nat.add_comm]
  cases turns with
  | acts moved =>
    rw [WorkerPhase.inHand, RetryPolicy.end?_of_moves moved]
    exact comes _ _
  | begins => exact comes _ _
  | succeeds => rw [WorkerPhase.inHand_afterAction]; exact goes _ (.ended (.ok ()))
  | @givesUp _ _ _ e => rw [WorkerPhase.inHand_afterAction]; exact goes _ (.ended (.error e))
  | obeys => exact goes _ (.ended (.error .cancelled))
  | @fails _ _ _ e => exact goes _ (.ended (.error e))
  | unnoted => cases calm
  | _ => rfl

/-- Work that was committed under some tags has come to a good end or is in hand. -/
theorem saved_balance (of : String → Bool) (nobody : p.workers = [])
    (calm : ∀ e ∈ es, e.move.breaksOff = false) (ran : run plan p es = some q) :
    (callsIn (record plan p es)).countP (fun c => c.entry.isCommitted && of c.tag) =
      (endsIn (record plan p es)).countP (fun o => o.isGood && of o.tag) +
        q.inHand fun tag a => a.hasSaved && of tag := by
  simp only [endsIn, callsIn, List.countP_flatMap, Function.comp_def]
  refine ledger_balance ?_ nobody calm ran
  intro cancelled halted now number before m after i calm turns
  have comes (operation : OperationType) (a : Action Unit) :
      ((a.end?.map (ActionEnd.mk operation.tag)).toList).countP (fun o => o.isGood && of o.tag) =
        (a.hasEndedWell && of operation.tag).toNat := by
    rw [countP_end]
    exact congrArg _ (any_isOk a (of operation.tag))
  cases turns with
  | @acts operation _ _ a b _ m moved =>
    have flow := RetryPolicy.saved_flow calm moved
    rw [countP_calls]
    refine Eq.trans ?_ (congrArg (· + _) (comes operation b)).symm
    simp only [WorkerPhase.inHand]
    cases of operation.tag with
    | true => simpa only [Bool.and_true] using flow
    | false => simp
  | @begins operation =>
    have idle := plan.policy.isIdle_approach (ρ := Unit) cancelled 0 0
    refine Eq.trans ?_ (congrArg (· + _) (comes operation (plan.policy.begin cancelled))).symm
    rw [begin_inHand (S := fun tag a => a.hasSaved && of tag)
      fun _ _ idle => by rw [Action.hasSaved_of_isIdle idle, Bool.false_and],
      show (plan.policy.begin cancelled).hasEndedWell = false from
        Action.hasEndedWell_of_isIdle idle]
    rfl
  | succeeds => rw [WorkerPhase.inHand_afterAction]; rfl
  | givesUp => rw [WorkerPhase.inHand_afterAction]; rfl
  | _ => rfl

/-- What no action is both of can be counted together. -/
theorem inHand_or {S T : String → Action Unit → Bool}
    (apart : ∀ tag a, S tag a = true → T tag a = false) (p : Pool κ) :
    p.inHand S + p.inHand T = p.inHand fun tag a => S tag a || T tag a := by
  unfold inHand
  rw [← List.sum_map_add]
  congr 1
  refine List.map_congr_left fun w _ => ?_
  cases w.phase with
  | acting operation _ _ a =>
    simp only [WorkerPhase.inHand]
    cases here : S operation.tag a with
    | true => rw [apart _ _ here]; rfl
    | false => exact Nat.zero_add _
  | _ => rfl

/-- Work that was committed has been concluded as good or is in hand. -/
theorem goods_balance (nobody : p.workers = []) (calm : ∀ e ∈ es, e.move.breaksOff = false)
    (ran : run plan p es = some q) :
    (callsIn (record plan p es)).countP (·.entry.isCommitted) =
      (concludedIn (record plan p es)).countP (·.isGood) +
        q.inHand fun _ a => a.hasEndedWell || a.hasSaved := by
  have saved := saved_balance (fun _ => true) nobody calm ran
  have ends := ends_balance (·.isGood) nobody calm ran
  simp only [Bool.and_true] at saved
  have together := inHand_or (S := fun _ a => a.hasEndedWell) (T := fun _ a => a.hasSaved)
    (fun _ a well => by cases a <;> first | rfl | cases well) q
  rw [saved, ends, Nat.add_assoc]
  exact congrArg _ together

/-! ## Timers -/

/-- The step: what a turn notes is what it concludes. -/
theorem tallies_note {ends : List ActionEnd} {ts : Timers} (h : ts.Tallies ends) (now i : Nat)
    (before : WorkerPhase) (m : WorkerMove κ) (after : WorkerPhase) :
    (before.note now ts m).Tallies (ends ++ (WorkEntry.mk i before m after).concluded) := by
  have same : ts.Tallies (ends ++ []) := by rwa [List.append_nil]
  cases m with
  | conclude => cases before with
    | acting operation left since a => cases a with
      | ended result =>
        have noted : (WorkerPhase.acting operation left since (.ended result)).note now ts
            (.conclude : WorkerMove κ) =
              ts.noted ⟨operation.tag, result⟩ (.ofNanos (now - since)) := by
          cases result <;> rfl
        rw [noted]
        exact h.step ⟨operation.tag, result⟩ _
      | _ => exact same
    | _ => exact same
  | _ => cases before <;> exact same

/-- The run: the timers show what workers have concluded. -/
theorem tallies_of_run (start : p.timers.Tallies []) (ran : run plan p es = some q) :
    q.timers.Tallies (concludedIn (record plan p es)) := by
  refine run_induction (fun es q => q.timers.Tallies (concludedIn (record plan p es))) start ?_ ran
  intro es q e r ran h made
  have works := works_of_after made
  obtain ⟨now, move⟩ := e
  rw [record_concat ran made, concludedIn, List.flatMap_append]
  cases works with
  | @turned i w w' m _ launched turned =>
    rw [turned.entries_eq launched, turned.timers, List.flatMap_singleton]
    exact tallies_note h now i w.phase m w'.phase
  | joined _ _ _ timers other =>
    rw [entries_of_other other, timers, List.flatMap_nil, List.append_nil]
    exact h

end Pool

end LoadHarness
