import LoadHarness.Proofs.Retry.History
import LoadHarness.Proofs.Retry.Steps

/-!
# What flows through an action

Three accounts of an action are in balance at every step: handles come in and are closed, unless the
action breaks off over a call on them; and as long as it does not, every close has one reason, and
saved work leads to a good end.
-/

namespace LoadHarness

variable {ρ : Type}

namespace ActionEntry

/-- A rollback that has been answered. -/
def isRollback (x : ActionEntry ρ) : Bool :=
  match x.wait with
  | .call .rollback => !x.came.breaksOff
  | _ => false

/-- Work on a handle that came to grief over a broken connection, as the policy sees it. -/
def isBroken (p : RetryPolicy) (x : ActionEntry ρ) : Bool :=
  match x.wait, x.came with
  | .call .run, .abandon => (p.classify .cancelled).isConnection
  | .call .run, .answer (.failed e) => (p.classify e).isConnection
  | .call .commit, .answer (.commitFailed e) => (p.classify e).isConnection
  | _, _ => false

end ActionEntry

namespace Action

/-- An action in this phase has an open handle. -/
def hasHandle : Action ρ → Bool
  | running _ => true
  | committing _ _ => true
  | rollingBack _ _ => true
  | closing _ _ => true
  | _ => false

/-- An action in this phase is giving its handle back. -/
def isClosing : Action ρ → Bool
  | closing _ _ => true
  | _ => false

/-- An action in this phase has saved its work and still has the handle. -/
def hasSaved : Action ρ → Bool
  | closing _ (.ok _) => true
  | _ => false

/-- How an action in this phase has ended, if it has. -/
def end? : Action ρ → Option (Except RetryError ρ)
  | ended r => some r
  | _ => none

/-- It ended well. -/
def hasEndedWell (a : Action ρ) : Bool := a.end?.any (·.isOk)

/-- Nothing is in hand: an action in this phase has no handle and no good end. -/
def isIdle : Action ρ → Bool
  | backingOff _ _ => true
  | acquiring _ => true
  | ended (.error _) => true
  | crashed _ => true
  | _ => false

variable {a : Action ρ}

theorem hasHandle_of_isIdle (idle : a.isIdle = true) : a.hasHandle = false := by
  cases a <;> first | rfl | cases idle

theorem isClosing_of_isIdle (idle : a.isIdle = true) : a.isClosing = false := by
  cases a <;> first | rfl | cases idle

theorem hasSaved_of_isIdle (idle : a.isIdle = true) : a.hasSaved = false := by
  cases a <;> first | rfl | cases idle

theorem hasEndedWell_of_isIdle (idle : a.isIdle = true) : a.hasEndedWell = false := by
  cases a with
  | ended r => cases r with
    | ok => cases idle
    | error => rfl
  | _ => rfl

end Action

namespace RetryPolicy

open LoadHarness.Action

variable {p : RetryPolicy} {cancelled : Bool} {slot : Nat} {a b : Action ρ} {m : ActionMove ρ}

theorem isIdle_approach (p : RetryPolicy) (cancelled : Bool) (slot : Nat) (made : UInt32) :
    (p.approach cancelled slot made : Action ρ).isIdle = true := by
  unfold approach
  split
  · rfl
  · split
    · split <;> rfl
    · rfl

theorem isIdle_afterFailure (p : RetryPolicy) (cancelled : Bool) (slot : Nat) (n : UInt32)
    (f : Failure) : (p.afterFailure cancelled slot n f : Action ρ).isIdle = true := by
  unfold afterFailure
  split
  · rfl
  · rfl
  · split
    · exact p.isIdle_approach cancelled slot n
    · rfl

/-- A handle is closed at once when its connection is broken, and else rolled back. -/
theorem giveBack_eq (p : RetryPolicy) (n : UInt32) (e : OperationError) :
    (p.giveBack n e : Action ρ) =
      if (p.classify e).isConnection then closing n (.error (p.judge e))
      else rollingBack n (p.judge e) := rfl

theorem hasHandle_giveBack (p : RetryPolicy) (n : UInt32) (e : OperationError) :
    (p.giveBack n e : Action ρ).hasHandle = true := by
  rw [giveBack_eq]
  split <;> rfl

theorem isClosing_giveBack (p : RetryPolicy) (n : UInt32) (e : OperationError) :
    (p.giveBack n e : Action ρ).isClosing = (p.classify e).isConnection := by
  rw [giveBack_eq]
  cases (p.classify e).isConnection <;> rfl

theorem hasSaved_giveBack (p : RetryPolicy) (n : UInt32) (e : OperationError) :
    (p.giveBack n e : Action ρ).hasSaved = false := by
  rw [giveBack_eq]
  split <;> rfl

theorem hasEndedWell_giveBack (p : RetryPolicy) (n : UInt32) (e : OperationError) :
    (p.giveBack n e : Action ρ).hasEndedWell = false := by
  rw [giveBack_eq]
  split <;> rfl

/-- An action that is over does not move. -/
theorem isOver_of_moves (moved : p.Moves cancelled slot a m b) : a.isOver = false := by
  cases moved with
  | breaksOff calling => cases a <;> first | rfl | cases calling
  | misjudges _ attempting => cases a <;> first | rfl | cases attempting
  | _ => rfl

theorem end?_of_moves (moved : p.Moves cancelled slot a m b) : a.end? = none := by
  have going := isOver_of_moves moved
  cases a <;> first | rfl | cases going

/-- An action that breaks off had made a call, and is over. -/
theorem over_call (moved : p.Moves cancelled slot a m b) (broken : m.breaksOff = true) :
    ∃ c text, a.call? = some c ∧ b = crashed text := by
  cases moved with
  | breaksOff calling => exact ⟨_, _, calling, rfl⟩
  | misjudges _ attempting =>
    obtain ⟨c, calling⟩ := calls_of_attempting attempting
    exact ⟨c, _, calling, rfl⟩
  | _ => cases broken

/-- Handles come in by acquisitions, and go by closes or with a call that breaks off. -/
theorem handle_flow (moved : p.Moves cancelled slot a m b) :
    (a.entries m).countP (·.opensHandle) + a.hasHandle.toNat =
      (a.entries m).countP (·.isClose) + (a.entries m).countP (·.isBrokenOff) +
        b.hasHandle.toNat := by
  cases moved with
  | leaveAcquire => rw [hasHandle_of_isIdle (p.isIdle_afterFailure _ _ _ _)]; rfl
  | leaveRun => rw [hasHandle_giveBack]; rfl
  | refused => rw [hasHandle_of_isIdle (p.isIdle_afterFailure _ _ _ _)]; rfl
  | failed => rw [hasHandle_giveBack]; rfl
  | commitFailed => rw [hasHandle_giveBack]; rfl
  | closedBadly => rw [hasHandle_of_isIdle (p.isIdle_afterFailure _ _ _ _)]; rfl
  | breaksOff => cases a <;> rfl
  | misjudges => cases a <;> rfl
  | _ => rfl

/-- Only the moves that say so leave a handle in the middle of a call. -/
theorem not_brokenOff (calm : m.breaksOff = false) : (a.entries m).countP (·.isBrokenOff) = 0 := by
  refine List.countP_eq_zero.2 fun x member => ?_
  obtain ⟨w, -, rfl⟩ := Option.map_eq_some_iff.1 (Option.mem_toList.1 member)
  rw [ActionEntry.isBrokenOff, calm, Bool.and_false]
  exact Bool.false_ne_true

/-- A handle is closed after a commit, after a rollback or over a broken connection. -/
theorem close_flow (calm : m.breaksOff = false) (moved : p.Moves cancelled slot a m b) :
    (a.entries m).countP (·.isCommitted) + (a.entries m).countP (·.isRollback) +
        (a.entries m).countP (·.isBroken p) + a.isClosing.toNat =
      (a.entries m).countP (·.isClose) + b.isClosing.toNat := by
  have broken (x : ActionEntry ρ) :
      0 + 0 + [x].countP (·.isBroken p) + 0 = 0 + (x.isBroken p).toNat := by
    rw [List.countP_singleton]
    cases x.isBroken p <;> rfl
  cases moved with
  | leaveAcquire => rw [isClosing_of_isIdle (p.isIdle_afterFailure _ _ _ _)]; rfl
  | @leaveRun n => rw [isClosing_giveBack]; exact broken ⟨.call .run, .abandon⟩
  | refused => rw [isClosing_of_isIdle (p.isIdle_afterFailure _ _ _ _)]; rfl
  | @failed n e => rw [isClosing_giveBack]; exact broken ⟨.call .run, .answer (.failed e)⟩
  | @commitFailed n r e =>
    rw [isClosing_giveBack]; exact broken ⟨.call .commit, .answer (.commitFailed e)⟩
  | closedBadly => rw [isClosing_of_isIdle (p.isIdle_afterFailure _ _ _ _)]; rfl
  | breaksOff => cases calm
  | misjudges => cases calm
  | _ => rfl

/-- Work that is saved leads to a good end, and nothing else does. -/
theorem saved_flow (calm : m.breaksOff = false) (moved : p.Moves cancelled slot a m b) :
    (a.entries m).countP (·.isCommitted) + a.hasSaved.toNat =
      b.hasEndedWell.toNat + b.hasSaved.toNat := by
  have idle (c : Action ρ) (h : c.isIdle = true) :
      0 = c.hasEndedWell.toNat + c.hasSaved.toNat := by
    rw [hasEndedWell_of_isIdle h, hasSaved_of_isIdle h]
    rfl
  have givesBack (n : UInt32) (e : OperationError) :
      0 = (p.giveBack n e : Action ρ).hasEndedWell.toNat +
        (p.giveBack n e : Action ρ).hasSaved.toNat := by
    rw [hasEndedWell_giveBack, hasSaved_giveBack]
    rfl
  cases moved with
  | leaveAcquire => exact idle _ (p.isIdle_afterFailure _ _ _ _)
  | leaveRun => exact givesBack _ _
  | refused => exact idle _ (p.isIdle_afterFailure _ _ _ _)
  | failed => exact givesBack _ _
  | commitFailed => exact givesBack _ _
  | closedBadly => exact idle _ (p.isIdle_afterFailure _ _ _ _)
  | breaksOff => cases calm
  | misjudges => cases calm
  | _ => rfl

end RetryPolicy

end LoadHarness
