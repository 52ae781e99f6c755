import LoadHarness.Proofs.Retry.History
import LoadHarness.Proofs.Retry.Steps

/-!
# How handles are given back

Every attempt that gets a handle makes the same few calls on it. Either the work is saved, or it
comes to grief and is undone, unless the connection is broken; whatever happened, the handle is
closed last. `handles_given_back` says so of every action, whoever answers it and whenever it is
cancelled.
-/

namespace LoadHarness

variable {ρ : Type}

/-- How the work on a handle comes to grief. -/
inductive Mishap (ρ : Type) where
  /-- It was done, but the commit failed. -/
  | unsaved (result : ρ) (e : OperationError)
  | failed (e : OperationError)
  | abandoned

namespace Mishap

/-- What is held against the attempt. -/
def error : Mishap ρ → OperationError
  | unsaved _ e => e
  | failed e => e
  | abandoned => .cancelled

/-- The calls up to the mishap. -/
def calls : Mishap ρ → List (ActionEntry ρ)
  | unsaved r e => [.answered .run (.returned r), .answered .commit (.commitFailed e)]
  | failed e => [.answered .run (.failed e)]
  | abandoned => [⟨.call .run, .abandon⟩]

end Mishap

/-- What is done with a handle from its acquisition to its close. -/
inductive Handling (ρ : Type) where
  | saved (result : ρ)
  | lost (m : Mishap ρ) (undo : Except OperationError Unit)

/-- The answer to a rollback. -/
def Answer.ofRollback : Except OperationError Unit → Answer ρ
  | .ok () => .rolledBack
  | .error e => .rollbackFailed e

/-- The rollback that goes with an error: none when its class is that of a broken connection. -/
def RetryPolicy.undoing (p : RetryPolicy) (e : OperationError) (undo : Except OperationError Unit) :
    List (ActionEntry ρ) :=
  if (p.classify e).isConnection then [] else [.answered .rollback (.ofRollback undo)]

/-- The calls on a handle. -/
def Handling.calls (p : RetryPolicy) : Handling ρ → List (ActionEntry ρ)
  | saved r =>
    [.answered .run (.returned r), .answered .commit .committed, .answered .close .closed]
  | lost m undo => m.calls ++ p.undoing m.error undo ++ [.answered .close .closed]

/-- What an action passes through: a delay, an acquisition without a handle, or a handle. -/
inductive Spell (ρ : Type) where
  /-- A delay that passed, or during which the action was cancelled. -/
  | delay (made : UInt32) (span : Duration) (passed : Bool)
  /-- An acquisition that failed, or during which the action was cancelled. -/
  | refused (e : Option OperationError)
  /-- An acquisition over which the action broke off. -/
  | unanswered (m : ActionMove ρ) (broken : m.breaksOff = true)
  | held (h : Handling ρ)

namespace Spell

/-- The part of a history that belongs to a spell. -/
def entries (p : RetryPolicy) : Spell ρ → List (ActionEntry ρ)
  | delay made d passed => [⟨.delay made d, if passed then .answer .slept else .abandon⟩]
  | refused (some e) => [.answered .acquire (.acquireFailed e)]
  | refused none => [⟨.call .acquire, .abandon⟩]
  | unanswered m _ => [⟨.call .acquire, m⟩]
  | held h => .answered .acquire .acquired :: h.calls p

/-- What was done with the handle, if there was one. -/
def handling? : Spell ρ → Option (Handling ρ)
  | held h => some h
  | _ => none

/-- Its work was saved. -/
def isSaved : Spell ρ → Bool
  | held (.saved _) => true
  | _ => false

end Spell

/-! ## Reading a history spell by spell -/

/-- Between two acquisitions no call is made on a handle that has been closed. -/
theorem onHandle_takeWhile_spells (p : RetryPolicy) (spells : List (Spell ρ)) :
    ((spells.flatMap (·.entries p)).takeWhile (!·.isAcquire)).filter (·.isOnHandle) = [] := by
  induction spells with
  | nil => rfl
  | cons s rest ih =>
    match s with
    | .delay made d passed => simpa [Spell.entries, ActionEntry.isAcquire, ActionEntry.isOnHandle]
        using ih
    | .refused (some e) => rfl
    | .refused none => rfl
    | .unanswered m broken => rfl
    | .held h => rfl

namespace Handling

/-- The calls on a handle are calls on handles, and none of them is an acquisition. -/
theorem calls_onHandle (p : RetryPolicy) (h : Handling ρ) :
    ∀ x ∈ h.calls p, x.isOnHandle = true ∧ x.isAcquire = false := by
  have all : (h.calls p).all (fun x => x.isOnHandle && !x.isAcquire) = true := by
    cases h with
    | saved r => rfl
    | lost m undo =>
      cases m <;> simp only [calls, Mishap.calls, RetryPolicy.undoing] <;> split <;> rfl
  simpa using all

/-- A handle is closed once, and nothing comes after that. -/
theorem closed_once_and_last (p : RetryPolicy) (h : Handling ρ) :
    (h.calls p).countP (·.isClose) = 1 ∧
      (h.calls p).getLast? = some (.answered .close .closed) := by
  cases h with
  | saved r => exact ⟨rfl, rfl⟩
  | lost m undo =>
    refine ⟨?_, by simp [calls]⟩
    cases m <;> simp only [calls, Mishap.calls, RetryPolicy.undoing] <;> split <;> rfl

/-- Lost work has never been committed. -/
theorem not_committed_of_lost (p : RetryPolicy) (m : Mishap ρ) (undo : Except OperationError Unit) :
    ((lost m undo).calls p).countP (·.isCommitted) = 0 := by
  cases m <;> cases undo <;> simp only [calls, Mishap.calls, RetryPolicy.undoing] <;> split <;> rfl

end Handling

/-- In a spell without saved work no commit went through. -/
theorem Spell.not_committed (p : RetryPolicy) {s : Spell ρ} (vain : s.isSaved = false) :
    (s.entries p).countP (·.isCommitted) = 0 := by
  match s with
  | .delay made d passed => cases passed <;> rfl
  | .refused (some e) => rfl
  | .refused none => rfl
  | .unanswered m broken => rfl
  | .held (.saved r) => cases vain
  | .held (.lost m undo) => exact Handling.not_committed_of_lost p m undo

theorem callsByHandle_append_of_onHandle {calls rest : List (ActionEntry ρ)}
    (on : ∀ x ∈ calls, x.isOnHandle = true ∧ x.isAcquire = false) :
    callsByHandle (calls ++ rest) = callsByHandle rest := by
  induction calls with
  | nil => rfl
  | cons x calls ih =>
    have closed : x.opensHandle = false := by
      have := (on x List.mem_cons_self).2
      unfold ActionEntry.isAcquire at this
      unfold ActionEntry.opensHandle
      split at this <;> simp_all
    simp only [List.cons_append, callsByHandle, closed, Bool.false_eq_true, if_false]
    exact ih fun y hy => on y (List.mem_cons_of_mem _ hy)

/-- The calls on a handle from its acquisition to the next. -/
theorem callsByHandle_acquired {calls rest : List (ActionEntry ρ)}
    (on : ∀ x ∈ calls, x.isOnHandle = true ∧ x.isAcquire = false)
    (opening : (rest.takeWhile (!·.isAcquire)).filter (·.isOnHandle) = []) :
    callsByHandle (.answered .acquire .acquired :: (calls ++ rest)) =
      calls :: callsByHandle rest := by
  have own : ((calls ++ rest).takeWhile (!·.isAcquire)).filter (·.isOnHandle) = calls := by
    rw [List.takeWhile_append_of_pos fun x hx => by simp [(on x hx).2], List.filter_append, opening,
      List.append_nil]
    exact List.filter_eq_self.2 fun x hx => (on x hx).1
  have opens : (ActionEntry.answered (ρ := ρ) .acquire .acquired).opensHandle = true := rfl
  rw [callsByHandle, if_pos opens, own, callsByHandle_append_of_onHandle on]

/-- The calls on each handle are those of the spells in which there was one. -/
theorem callsByHandle_spells (p : RetryPolicy) (spells : List (Spell ρ)) :
    callsByHandle (spells.flatMap (·.entries p)) =
      (spells.filterMap Spell.handling?).map (·.calls p) := by
  induction spells with
  | nil => rfl
  | cons s rest ih =>
    match s with
    | .delay made d passed => exact ih
    | .refused (some e) => exact ih
    | .refused none => exact ih
    | .unanswered (.misjudge _) _ => exact ih
    | .unanswered (.answer (.panicked _)) _ => exact ih
    | .held h =>
      rw [List.flatMap_cons, Spell.entries, List.cons_append,
        callsByHandle_acquired (h.calls_onHandle p) (onHandle_takeWhile_spells p rest), ih]
      rfl

/-! ## What holds in every phase -/

namespace RetryPolicy

/-- A history of spells that have come to nothing. -/
def Fruitless (p : RetryPolicy) (log : List (ActionEntry ρ)) : Prop :=
  ∃ spells : List (Spell ρ), (∀ s ∈ spells, s.isSaved = false) ∧ log = spells.flatMap (·.entries p)

theorem Fruitless.nil {p : RetryPolicy} : p.Fruitless ([] : List (ActionEntry ρ)) :=
  ⟨[], nofun, rfl⟩

theorem Fruitless.append {p : RetryPolicy} {log : List (ActionEntry ρ)} (past : p.Fruitless log)
    (s : Spell ρ) (vain : s.isSaved = false) : p.Fruitless (log ++ s.entries p) := by
  obtain ⟨spells, lost, rfl⟩ := past
  refine ⟨spells ++ [s], ?_, by simp⟩
  intro t member
  rcases List.mem_append.1 member with old | new
  · exact lost t old
  · cases List.mem_singleton.1 new; exact vain

/-- A history that ends with an acquired handle and the calls on it so far. -/
def Holding (p : RetryPolicy) (log calls : List (ActionEntry ρ)) : Prop :=
  ∃ past, p.Fruitless past ∧ log = past ++ .answered .acquire .acquired :: calls

theorem Holding.append {p : RetryPolicy} {log calls : List (ActionEntry ρ)}
    (h : p.Holding log calls) (more : List (ActionEntry ρ)) :
    p.Holding (log ++ more) (calls ++ more) := by
  obtain ⟨past, fruitless, rfl⟩ := h
  exact ⟨past, fruitless, by simp⟩

/-- With its close a mishandled handle is behind the action. -/
theorem Holding.close {p : RetryPolicy} {log : List (ActionEntry ρ)} {m : Mishap ρ}
    {undo : Except OperationError Unit} (h : p.Holding log (m.calls ++ p.undoing m.error undo)) :
    p.Fruitless (log ++ [.answered .close .closed]) := by
  obtain ⟨past, fruitless, rfl⟩ := h
  simpa [Spell.entries, Handling.calls] using fruitless.append (.held (.lost m undo)) rfl

/-- What the history of an action in each phase looks like. -/
def Tidy (p : RetryPolicy) (log : List (ActionEntry ρ)) : Action ρ → Prop
  | .backingOff _ _ => p.Fruitless log
  | .acquiring _ => p.Fruitless log
  | .running _ => p.Holding log []
  | .committing _ r => p.Holding log [.answered .run (.returned r)]
  | .rollingBack _ f => ∃ m : Mishap ρ, p.Holding log m.calls ∧ f = p.judge m.error ∧
      f.verdict.isConnection = false
  | .closing _ (.ok r) =>
    p.Holding log [.answered .run (.returned r), .answered .commit .committed]
  | .closing _ (.error f) => ∃ (m : Mishap ρ) (undo : Except OperationError Unit),
      p.Holding log (m.calls ++ p.undoing m.error undo) ∧ f = p.judge m.error
  | .ended (.ok r) => ∃ past, p.Fruitless past ∧ log = past ++ (Spell.held (.saved r)).entries p
  | .ended (.error _) => p.Fruitless log
  | .crashed _ => p.Fruitless log

variable {p : RetryPolicy} {log : List (ActionEntry ρ)}

theorem tidy_approach (past : p.Fruitless log) (cancelled : Bool) (slot : Nat) (made : UInt32) :
    p.Tidy log (p.approach cancelled slot made : Action ρ) := by
  unfold approach
  split
  · exact past
  · split
    · cases cancelled <;> exact past
    · exact past

theorem tidy_afterFailure (past : p.Fruitless log) (cancelled : Bool) (slot : Nat)
    (attempt : UInt32) (f : Failure) :
    p.Tidy log (p.afterFailure cancelled slot attempt f : Action ρ) := by
  unfold afterFailure
  split
  · exact past
  · exact past
  · split
    · exact tidy_approach past _ _ _
    · exact past

theorem tidy_giveBack {m : Mishap ρ} (held : p.Holding log m.calls) (attempt : UInt32) :
    p.Tidy log (p.giveBack attempt m.error : Action ρ) := by
  simp only [giveBack]
  split
  · next broken =>
    refine ⟨m, .ok (), ?_, rfl⟩
    have none : p.undoing (ρ := ρ) m.error (.ok ()) = [] := if_pos broken
    rwa [none, List.append_nil]
  · next sound => exact ⟨m, held, rfl, by simpa using sound⟩

/-- A rollback that was made is the one that goes with the error. -/
theorem undoing_of_sound {e : OperationError} (sound : (p.judge e).verdict.isConnection = false)
    (undo : Except OperationError Unit) :
    p.undoing (ρ := ρ) e undo = [.answered .rollback (.ofRollback undo)] :=
  if_neg (Bool.eq_false_iff.1 sound)

/-- An action that breaks off without leaving a handle open was acquiring one. -/
theorem Tidy.break_off {a : Action ρ} {c : ActionCall} {m : ActionMove ρ} (h : p.Tidy log a)
    (calling : a.call? = some c) (broken : m.breaksOff = true)
    (calm : ∀ x ∈ a.entries m, x.isBrokenOff = false) : p.Fruitless (log ++ a.entries m) := by
  rw [Action.entries_of_call calling] at calm ⊢
  have off := calm _ (List.mem_singleton_self _)
  rw [ActionEntry.isBrokenOff, broken] at off
  cases a <;> cases calling <;> first | exact h.append (.unanswered m broken) rfl | cases off

/-- The step: what an action waited for extends its history as its next phase has it. -/
theorem Tidy.step {cancelled : Bool} {slot : Nat} {a b : Action ρ} {m : ActionMove ρ}
    (calm : ∀ x ∈ a.entries m, x.isBrokenOff = false) (h : p.Tidy log a)
    (moved : p.Moves cancelled slot a m b) : p.Tidy (log ++ a.entries m) b := by
  cases moved with
  | leaveDelay => exact h.append (.delay _ _ false) rfl
  | leaveAcquire => exact tidy_afterFailure (h.append (.refused none) rfl) _ _ _ _
  | leaveRun => exact tidy_giveBack (m := .abandoned) (h.append _) _
  | slept => exact h.append (.delay _ _ true) rfl
  | acquired => exact ⟨log, h, rfl⟩
  | refused => exact tidy_afterFailure (h.append (.refused (some _)) rfl) _ _ _ _
  | returned => exact h.append _
  | failed => exact tidy_giveBack (m := .failed _) (h.append _) _
  | committed => exact h.append _
  | commitFailed => exact tidy_giveBack (m := .unsaved _ _) (h.append _) _
  | rolledBack =>
    obtain ⟨m, held, rfl, sound⟩ := h
    exact ⟨m, .ok (), by rw [undoing_of_sound sound]; exact held.append _, rfl⟩
  | @rollbackFailed n f e =>
    obtain ⟨m, held, rfl, sound⟩ := h
    exact ⟨m, .error e, by rw [undoing_of_sound sound]; exact held.append _, rfl⟩
  | closedWell =>
    obtain ⟨past, fruitless, rfl⟩ := h
    exact ⟨past, fruitless, List.append_assoc _ _ _⟩
  | closedBadly =>
    obtain ⟨m, undo, held, judged⟩ := h
    exact tidy_afterFailure held.close _ _ _ _
  | breaksOff calling => exact h.break_off calling rfl calm
  | misjudges _ attempting =>
    obtain ⟨c, calling⟩ := Action.calls_of_attempting attempting
    exact h.break_off calling rfl calm

/-- The run: an action's history is that of its phase whatever happened to it. -/
theorem tidy_of_run {cancelled : Bool} {es : List (ActionEvent ρ)} {b : Action ρ}
    (calm : ∀ x ∈ p.history (p.begin cancelled) es, x.isBrokenOff = false)
    (ran : p.run (p.begin cancelled) es = some b) :
    p.Tidy (p.history (p.begin cancelled) es) b := by
  refine run_invariant p.Tidy ?_ [] calm (tidy_approach .nil _ _ _) ran
  intro log a b e calm h stepped
  exact h.step calm (step_iff_moves.1 stepped)

/-! ## Actions that are over -/

theorem Fruitless.not_committed (h : p.Fruitless log) : log.countP (·.isCommitted) = 0 := by
  obtain ⟨spells, vain, rfl⟩ := h
  refine List.countP_eq_zero.2 fun x member => ?_
  obtain ⟨s, among, part⟩ := List.mem_flatMap.1 member
  exact List.countP_eq_zero.1 (Spell.not_committed p (vain s among)) x part

/-- An action that is over has saved the work on its last handle, or none at all. -/
theorem Tidy.of_isOver {b : Action ρ} (h : p.Tidy log b) (gone : b.isOver = true) :
    (∃ r past, b = .ended (.ok r) ∧ p.Fruitless past ∧
      log = past ++ (Spell.held (.saved r)).entries p) ∨
    ((∀ r, b ≠ .ended (.ok r)) ∧ p.Fruitless log) := by
  cases b with
  | ended result =>
    cases result with
    | ok r =>
      obtain ⟨past, fruitless, whole⟩ := h
      exact .inl ⟨r, past, rfl, fruitless, whole⟩
    | error e => exact .inr ⟨nofun, h⟩
  | crashed text => exact .inr ⟨nofun, h⟩
  | _ => cases gone

/-- **Handles are given back.** Whoever answers an action and whenever it is cancelled, as long as
the operation and the calls on handles come to an answer: once the action is over its history is one
of spells. Every handle was handled in one of the known ways, it was closed once and last, and only
then did the next acquisition begin. Failing rollbacks make no difference, and the action ends well
exactly when a commit went through, which is that of the last handle. -/
theorem handles_given_back {cancelled : Bool} {es : List (ActionEvent ρ)} {b : Action ρ}
    (calm : ∀ x ∈ log, x.isBrokenOff = false) (ran : p.run (p.begin cancelled) es = some b)
    (gone : b.isOver = true) (told : p.history (p.begin cancelled) es = log) :
    (∃ spells : List (Spell ρ), log = spells.flatMap (·.entries p) ∧
      callsByHandle log = (spells.filterMap Spell.handling?).map (·.calls p)) ∧
    (∀ calls ∈ callsByHandle log, (∃ h : Handling ρ, calls = h.calls p) ∧
      calls.countP (·.isClose) = 1 ∧ calls.getLast? = some (.answered .close .closed)) ∧
    p.run (p.begin cancelled) (es.map .forgiven) = some b ∧
    ((∃ r, b = .ended (.ok r)) ↔ log.countP (·.isCommitted) = 1) ∧
    (∀ r, b = .ended (.ok r) →
      (callsByHandle log).getLast? = some ((Handling.saved r).calls p)) ∧
    (∀ e, b = .ended (.error e) → log.countP (·.isCommitted) = 0) := by
  subst told
  have tidy := tidy_of_run calm ran
  generalize p.history (p.begin cancelled) es = log at tidy ⊢
  have spelled : ∃ spells : List (Spell ρ), log = spells.flatMap (·.entries p) := by
    rcases tidy.of_isOver gone with ⟨r, past, -, ⟨spells, -, rfl⟩, rfl⟩ | ⟨-, spells, -, rfl⟩
    · exact ⟨spells ++ [.held (.saved r)], by simp⟩
    · exact ⟨spells, rfl⟩
  obtain ⟨spells, whole⟩ := spelled
  have byHandle : callsByHandle log = (spells.filterMap Spell.handling?).map (·.calls p) :=
    whole ▸ callsByHandle_spells p spells
  refine ⟨⟨spells, whole, byHandle⟩, ?_, ?_, ?_, ?_, ?_⟩
  · intro calls member
    rw [byHandle] at member
    obtain ⟨h, -, rfl⟩ := List.mem_map.1 member
    exact ⟨⟨h, rfl⟩, h.closed_once_and_last p⟩
  · rw [run_forgiven, ran]
  all_goals rcases tidy.of_isOver gone with ⟨r, past, rfl, fruitless, rfl⟩ | ⟨bad, fruitless⟩
  · refine ⟨fun _ => ?_, fun _ => ⟨r, rfl⟩⟩
    rw [List.countP_append, fruitless.not_committed]
    rfl
  · refine ⟨fun ⟨r, good⟩ => absurd good (bad r), fun once => ?_⟩
    rw [fruitless.not_committed] at once
    cases once
  · rintro r' ⟨⟩
    obtain ⟨vain, -, rfl⟩ := fruitless
    rw [← List.flatMap_singleton (Spell.entries p) (.held _), ← List.flatMap_append,
      callsByHandle_spells]
    simp [Spell.handling?]
  · exact fun r good => absurd good (bad r)
  · nofun
  · exact fun _ _ => fruitless.not_committed

/-- A cancellation is final, and everything else may pass. -/
def patient : RetryPolicy where
  config := .fixed .zero 3
  classify e := if e.isCancelled then .cancelled else .rollback

/-- The first handle is lost at its commit and cannot be rolled back, the second is abandoned. -/
def twoHandles : List (ActionEvent Nat) :=
  [⟨false, 0, .answer .acquired⟩, ⟨false, 0, .answer (.returned 7)⟩,
    ⟨false, 0, .answer (.commitFailed (.backend "40001" "conflict"))⟩,
    ⟨false, 0, .answer (.rollbackFailed (.connection "gone"))⟩, ⟨false, 0, .answer .closed⟩,
    ⟨false, 0, .answer .acquired⟩, ⟨true, 0, .abandon⟩, ⟨true, 0, .answer .rolledBack⟩,
    ⟨true, 0, .answer .closed⟩]

theorem handles_given_back_twice :
    patient.run (patient.begin false) twoHandles = some (.ended (.error .cancelled)) ∧
      (callsByHandle (patient.history (patient.begin false) twoHandles)).length = 2 ∧
      ∀ calls ∈ callsByHandle (patient.history (patient.begin false) twoHandles),
        (∃ h : Handling Nat, calls = h.calls patient) ∧
          calls.countP (·.isClose) = 1 ∧ calls.getLast? = some (.answered .close .closed) :=
  ⟨rfl, rfl, (handles_given_back (by decide) (b := .ended (.error .cancelled)) rfl rfl rfl).2.1⟩

end RetryPolicy

end LoadHarness
