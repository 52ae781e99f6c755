import LoadHarness.Retry.Action

/-!
# The steps of an action

Each case below is one way in which an action goes on, with what it needs for that. Whatever an
action keeps in each of them it keeps in every step.
-/

namespace LoadHarness.RetryPolicy

variable {ρ : Type}

open LoadHarness.Action

/-- The steps that an action can take, `slot` being drawn if one is needed. -/
inductive Moves (p : RetryPolicy) (cancelled : Bool) (slot : Nat) :
    Action ρ → ActionMove ρ → Action ρ → Prop where
  | leaveDelay {made d} (now : cancelled = true) :
      p.Moves cancelled slot (backingOff made d) .abandon (ended (.error .cancelled))
  | leaveAcquire {n} (now : cancelled = true) :
      p.Moves cancelled slot (acquiring n) .abandon
        (p.afterFailure true slot n (p.judge .cancelled))
  | leaveRun {n} (now : cancelled = true) :
      p.Moves cancelled slot (running n) .abandon (p.giveBack n .cancelled)
  | slept {made d} (calm : cancelled = false) :
      p.Moves cancelled slot (backingOff made d) (.answer .slept) (acquiring (made + 1))
  | acquired {n} (calm : cancelled = false) :
      p.Moves cancelled slot (acquiring n) (.answer .acquired) (running n)
  | refused {n e} (calm : cancelled = false) :
      p.Moves cancelled slot (acquiring n) (.answer (.acquireFailed e))
        (p.afterFailure false slot n (p.judge e))
  | returned {n r} (calm : cancelled = false) :
      p.Moves cancelled slot (running n) (.answer (.returned r)) (committing n r)
  | failed {n e} (calm : cancelled = false) :
      p.Moves cancelled slot (running n) (.answer (.failed e)) (p.giveBack n e)
  | committed {n r} :
      p.Moves cancelled slot (committing n r) (.answer .committed) (closing n (.ok r))
  | commitFailed {n r e} :
      p.Moves cancelled slot (committing n r) (.answer (.commitFailed e)) (p.giveBack n e)
  | rolledBack {n f} :
      p.Moves cancelled slot (rollingBack n f) (.answer .rolledBack) (closing n (.error f))
  | rollbackFailed {n f e} :
      p.Moves cancelled slot (rollingBack n f) (.answer (.rollbackFailed e)) (closing n (.error f))
  | closedWell {n r} :
      p.Moves cancelled slot (closing n (.ok r)) (.answer .closed) (ended (.ok r))
  | closedBadly {n f} :
      p.Moves cancelled slot (closing n (.error f)) (.answer .closed)
        (p.afterFailure cancelled slot n f)
  | breaksOff {a c text} (calling : a.call? = some c)
      (heeded : (cancelled && a.isCancellable) = false) :
      p.Moves cancelled slot a (.answer (.panicked text)) (crashed text)
  | misjudges {a n text} (now : cancelled = true) (attempting : a.attempting? = some n) :
      p.Moves cancelled slot a (.misjudge text) (crashed text)

theorem moves_of_abandon {p : RetryPolicy} {slot : Nat} {a b : Action ρ}
    (left : p.abandon slot a = some b) : p.Moves true slot a .abandon b := by
  unfold abandon at left
  split at left <;> cases left
  · exact .leaveDelay rfl
  · exact .leaveAcquire rfl
  · exact .leaveRun rfl

/-- Answers are heard in these ways alone. -/
theorem moves_of_answer {p : RetryPolicy} {cancelled : Bool} {slot : Nat} {a b : Action ρ}
    {x : Answer ρ} (heard : p.answer cancelled slot a x = some b) :
    p.Moves cancelled slot a (.answer x) b := by
  have calm {c : Action ρ} (h : (if cancelled = true then none else some c) = some b) :
      cancelled = false ∧ c = b := by
    cases cancelled
    · exact ⟨rfl, Option.some.inj h⟩
    · cases h
  unfold answer at heard
  split at heard
  · split at heard
    · cases heard
    · next heeded =>
      obtain ⟨c, calling, rfl⟩ := Option.map_eq_some_iff.1 heard
      exact .breaksOff calling (Bool.eq_false_iff.2 heeded)
  · obtain ⟨rfl, rfl⟩ := calm heard; exact .slept rfl
  · obtain ⟨rfl, rfl⟩ := calm heard; exact .acquired rfl
  · obtain ⟨rfl, rfl⟩ := calm heard; exact .refused rfl
  · obtain ⟨rfl, rfl⟩ := calm heard; exact .returned rfl
  · obtain ⟨rfl, rfl⟩ := calm heard; exact .failed rfl
  · cases heard; exact .committed
  · cases heard; exact .commitFailed
  · cases heard; exact .rolledBack
  · cases heard; exact .rollbackFailed
  · split at heard <;> cases heard
    · exact .closedWell
    · exact .closedBadly
  · cases heard

/-- An action takes these steps and no others. -/
theorem step_iff_moves {p : RetryPolicy} {cancelled : Bool} {slot : Nat} {a b : Action ρ}
    {m : ActionMove ρ} : p.step cancelled slot a m = some b ↔ p.Moves cancelled slot a m b := by
  constructor
  · intro stepped
    cases m with
    | abandon =>
      cases cancelled
      · cases stepped
      · exact moves_of_abandon stepped
    | misjudge text =>
      cases cancelled
      · cases stepped
      · obtain ⟨n, attempting, rfl⟩ := Option.map_eq_some_iff.1 stepped
        exact .misjudges rfl attempting
    | answer x => exact moves_of_answer stepped
  · intro moved
    cases moved <;> simp_all [step, abandon, answer]

end LoadHarness.RetryPolicy
