import LoadHarness.Proofs.Retry.Release
import Mathlib.Logic.Function.Iterate

/-!
# How often an action is tried

An action that is never cancelled meets a fate: an end for each of its attempts, an outcome for
each rollback and a slot for each delay. `tried_until_settled` says what becomes of it under every
fate: it is tried until an attempt settles the matter or no attempt is left.
-/

namespace LoadHarness

variable {ρ : Type}

/-- How an attempt ends. -/
inductive AttemptEnd (ρ : Type) where
  /-- There was no handle. -/
  | refused (e : OperationError)
  | failed (e : OperationError)
  | unsaved (result : ρ) (e : OperationError)
  | done (result : ρ)

/-- The error of an attempt that did not end well. -/
def AttemptEnd.error? : AttemptEnd ρ → Option OperationError
  | refused e => some e
  | failed e => some e
  | unsaved _ e => some e
  | done _ => none

/-- The result of an attempt whose operation returned one. -/
def AttemptEnd.result? : AttemptEnd ρ → Option ρ
  | refused _ => none
  | failed _ => none
  | unsaved r _ => some r
  | done r => some r

/-- The acquisition gave a handle. -/
def AttemptEnd.hasHandle : AttemptEnd ρ → Bool
  | refused _ => false
  | _ => true

/-- What an action is going to meet. Attempts are counted from one, and a slot goes with the number
of attempts made before it is drawn. -/
structure Fate (ρ : Type) where
  ending : Nat → AttemptEnd ρ
  undo : Nat → Except OperationError Unit
  slot : Nat → Nat

/-- An action under way, with the number of attempts begun and its history. -/
structure Course (ρ : Type) where
  begun : Nat
  action : Action ρ
  log : List (ActionEntry ρ)

/-- The course of an action that enters a phase: an acquisition begins another attempt. -/
def Course.entering (begun : Nat) (log : List (ActionEntry ρ)) (a : Action ρ) : Course ρ :=
  ⟨if a.call? = some .acquire then begun + 1 else begun, a, log⟩

/-- The number of attempts that an action may be tried. -/
def RetryPolicy.bound (p : RetryPolicy) : Nat := max 1 p.config.maxAttempts.toNat

/-- What an error in attempt `j` settles: nothing when it may pass. -/
def RetryPolicy.verdict? (p : RetryPolicy) (j : Nat) (e : OperationError) :
    Option (Except RetryError ρ) :=
  match p.classify e with
  | .cancelled => some (.error .cancelled)
  | .nonTransient => some (.error (.nonTransient (.ofNat j) e))
  | _ => none

namespace Fate

/-- What the action hears in attempt `j`. -/
def answer (f : Fate ρ) (j : Nat) : Action ρ → Answer ρ
  | .backingOff _ _ => .slept
  | .acquiring _ =>
    match f.ending j with
    | .refused e => .acquireFailed e
    | _ => .acquired
  | .running _ =>
    match f.ending j with
    | .refused e => .failed e
    | .failed e => .failed e
    | .unsaved r _ => .returned r
    | .done r => .returned r
  | .committing _ _ =>
    match f.ending j with
    | .unsaved _ e => .commitFailed e
    | _ => .committed
  | .rollingBack _ _ => .ofRollback (f.undo j)
  | _ => .closed

variable (f : Fate ρ) (p : RetryPolicy)

/-- The next step, or none when the action is over. -/
def advance (c : Course ρ) : Course ρ :=
  let m : ActionMove ρ := .answer (f.answer c.begun c.action)
  match p.step false (f.slot c.begun) c.action m with
  | some a => .entering c.begun (c.log ++ c.action.entries m) a
  | none => c

/-- The course of an action after `n` steps. -/
def course (n : Nat) : Course ρ := (f.advance p)^[n] (.entering 0 [] (p.begin false))

/-- What attempt `j` settles. -/
def verdict? (j : Nat) : Option (Except RetryError ρ) :=
  match f.ending j with
  | .done r => some (.ok r)
  | .refused e => p.verdict? j e
  | .failed e => p.verdict? j e
  | .unsaved _ e => p.verdict? j e

/-- The delay after so many attempts; none when it has no length. -/
def pause (made : Nat) : List (Spell ρ) :=
  match p.config.delay? (.ofNat made) (f.slot made) with
  | some d => if d.isZero then [] else [.delay (.ofNat made) d true]
  | none => []

/-- Attempt `j`. -/
def attempt (j : Nat) : Spell ρ :=
  match f.ending j with
  | .refused e => .refused (some e)
  | .failed e => .held (.lost (.failed e) (f.undo j))
  | .unsaved r e => .held (.lost (.unsaved r e) (f.undo j))
  | .done r => .held (.saved r)

/-- The first `k` attempts, each after the delay that goes with the attempts before it. -/
def spells (k : Nat) : List (Spell ρ) :=
  (List.range k).flatMap fun i => f.pause p i ++ [f.attempt (i + 1)]

/-- The history of the first `k` attempts. -/
def history (k : Nat) : List (ActionEntry ρ) := (f.spells p k).flatMap (·.entries p)

/-- One course leads to another. -/
def Leads (c d : Course ρ) : Prop := ∃ n, (f.advance p)^[n] c = d

/-! ## One attempt -/

variable {f : Fate ρ} {p : RetryPolicy} {c d e : Course ρ}

theorem Leads.refl : f.Leads p c c := ⟨0, rfl⟩

theorem Leads.trans (first : f.Leads p c d) (second : f.Leads p d e) : f.Leads p c e := by
  obtain ⟨m, rfl⟩ := first
  obtain ⟨n, rfl⟩ := second
  exact ⟨n + m, Function.iterate_add_apply _ _ _ _⟩

/-- The step that goes with what the action hears. -/
theorem leads_step {j : Nat} {a b : Action ρ} (log : List (ActionEntry ρ)) (x : Answer ρ)
    (heard : f.answer j a = x) (moved : p.Moves false (f.slot j) a (.answer x) b) :
    f.Leads p ⟨j, a, log⟩ (.entering j (log ++ a.entries (.answer x)) b) := by
  subst heard
  have stepped := RetryPolicy.step_iff_moves.2 moved
  exact ⟨1, by simp only [Function.iterate_one, advance, stepped]⟩

/-- A step that does not begin another attempt. -/
theorem leads_within {j : Nat} {a b : Action ρ} (log : List (ActionEntry ρ)) (x : Answer ρ)
    (heard : f.answer j a = x) (moved : p.Moves false (f.slot j) a (.answer x) b)
    (within : b.call? ≠ some .acquire) :
    f.Leads p ⟨j, a, log⟩ ⟨j, b, log ++ a.entries (.answer x)⟩ := by
  have step := leads_step log x heard moved
  rwa [Course.entering, if_neg within] at step

/-- After a failure with an open handle: rollback where it belongs, and close. -/
theorem giveBack_leads (j : Nat) (log : List (ActionEntry ρ)) (n : UInt32) (e : OperationError) :
    f.Leads p ⟨j, p.giveBack n e, log⟩
      (.entering j (log ++ p.undoing e (f.undo j) ++ [.answered .close .closed])
        (p.afterFailure false (f.slot j) n (p.judge e))) := by
  have close (log : List (ActionEntry ρ)) :
      f.Leads p ⟨j, .closing n (.error (p.judge e)), log⟩
        (.entering j (log ++ [.answered .close .closed])
          (p.afterFailure false (f.slot j) n (p.judge e))) := leads_step log .closed rfl .closedBadly
  by_cases broken : (p.classify e).isConnection = true
  · have direct : (p.giveBack n e : Action ρ) = .closing n (.error (p.judge e)) := if_pos broken
    have none : p.undoing (ρ := ρ) e (f.undo j) = [] := if_pos broken
    rw [direct, none, List.append_nil]
    exact close log
  · have first : (p.giveBack n e : Action ρ) = .rollingBack n (p.judge e) := if_neg broken
    have one : p.undoing (ρ := ρ) e (f.undo j) = [.answered .rollback (.ofRollback (f.undo j))] :=
      if_neg broken
    have undone : p.Moves (ρ := ρ) false (f.slot j) (.rollingBack n (p.judge e))
        (.answer (.ofRollback (f.undo j))) (.closing n (.error (p.judge e))) := by
      cases f.undo j with
      | ok => exact .rolledBack
      | error => exact .rollbackFailed
    rw [first, one]
    exact (leads_within _ _ rfl undone nofun).trans (close _)

theorem giveBack_within (n : UInt32) (e : OperationError) :
    (p.giveBack n e : Action ρ).call? ≠ some .acquire := by
  intro again
  simp only [RetryPolicy.giveBack] at again
  split at again <;> cases again

/-- An attempt with a handle comes to run its operation. -/
theorem run_approached {j : Nat} (n : UInt32) (log : List (ActionEntry ρ))
    (granted : (f.ending j).hasHandle = true) :
    f.Leads p ⟨j, .acquiring n, log⟩ ⟨j, .running n, log ++ [.answered .acquire .acquired]⟩ := by
  refine leads_within log .acquired ?_ (.acquired rfl) nofun
  cases met : f.ending j with
  | refused e => simp [met, AttemptEnd.hasHandle] at granted
  | _ => simp [answer, met]

/-- An attempt whose operation returns comes to be committed. -/
theorem commit_approached {j : Nat} {r : ρ} (n : UInt32) (log : List (ActionEntry ρ))
    (returns : (f.ending j).result? = some r) :
    f.Leads p ⟨j, .acquiring n, log⟩ ⟨j, .committing n r,
      log ++ [.answered .acquire .acquired] ++ [.answered .run (.returned r)]⟩ := by
  have granted : (f.ending j).hasHandle = true := by
    cases met : f.ending j <;> simp_all [AttemptEnd.result?, AttemptEnd.hasHandle]
  refine (run_approached n log granted).trans (leads_within _ (.returned r) ?_ (.returned rfl) nofun)
  cases met : f.ending j <;> simp_all [AttemptEnd.result?, answer]

/-- An attempt that ends well ends the action. -/
theorem attempt_done {j : Nat} {n : UInt32} {log : List (ActionEntry ρ)} {r : ρ}
    (ends : f.ending j = .done r) :
    f.Leads p ⟨j, .acquiring n, log⟩ ⟨j, .ended (.ok r), log ++ (f.attempt j).entries p⟩ := by
  have returns : (f.ending j).result? = some r := by rw [ends]; rfl
  have whole : (f.attempt j).entries p = [.answered .acquire .acquired] ++
      [.answered .run (.returned r)] ++ [.answered .commit .committed] ++
      [.answered .close .closed] := by
    simp only [attempt, ends]
    rfl
  rw [whole]
  simp only [← List.append_assoc]
  refine (commit_approached n log returns).trans ?_
  refine (leads_within _ .committed ?_ .committed nofun).trans ?_
  · simp [answer, ends]
  · exact leads_within _ .closed rfl .closedWell nofun

/-- An attempt that fails leaves the matter to what comes after a failure. -/
theorem attempt_failed {j : Nat} {e : OperationError} (n : UInt32) (log : List (ActionEntry ρ))
    (ends : (f.ending j).error? = some e) :
    f.Leads p ⟨j, .acquiring n, log⟩
      (.entering j (log ++ (f.attempt j).entries p)
        (p.afterFailure false (f.slot j) n (p.judge e))) := by
  cases met : f.ending j with
  | done r => simp [met, AttemptEnd.error?] at ends
  | refused e' =>
    cases (by simpa [met, AttemptEnd.error?] using ends : e' = e)
    simp only [attempt, met]
    exact leads_step _ (.acquireFailed e) (by simp [answer, met]) (.refused rfl)
  | failed e' =>
    cases (by simpa [met, AttemptEnd.error?] using ends : e' = e)
    have granted : (f.ending j).hasHandle = true := by rw [met]; rfl
    have whole : (f.attempt j).entries p = [.answered .acquire .acquired] ++
        [.answered .run (.failed e)] ++ p.undoing e (f.undo j) ++ [.answered .close .closed] := by
      simp only [attempt, met]
      rfl
    rw [whole]
    simp only [← List.append_assoc]
    refine (run_approached n log granted).trans ?_
    refine (leads_within _ (.failed e) ?_ (.failed rfl) (giveBack_within n e)).trans ?_
    · simp [answer, met]
    · exact giveBack_leads j _ n e
  | unsaved r e' =>
    cases (by simpa [met, AttemptEnd.error?] using ends : e' = e)
    have returns : (f.ending j).result? = some r := by rw [met]; rfl
    have whole : (f.attempt j).entries p = [.answered .acquire .acquired] ++
        [.answered .run (.returned r)] ++ [.answered .commit (.commitFailed e)] ++
        p.undoing e (f.undo j) ++ [.answered .close .closed] := by
      simp only [attempt, met]
      rfl
    rw [whole]
    simp only [← List.append_assoc]
    refine (commit_approached n log returns).trans ?_
    refine (leads_within _ (.commitFailed e) ?_ .commitFailed (giveBack_within n e)).trans ?_
    · simp [answer, met]
    · exact giveBack_leads j _ n e

end Fate

/-! ## What a failure leads to -/

namespace RetryPolicy

variable {p : RetryPolicy}

theorem one_le_bound (p : RetryPolicy) : 1 ≤ p.bound := Nat.le_max_left _ _

theorem bound_lt (p : RetryPolicy) : p.bound < UInt32.size := by
  have := p.config.maxAttempts.toNat_lt_size
  simp only [bound, UInt32.size] at this ⊢
  omega

theorem toNat_attempt {j : Nat} (fits : j ≤ p.bound) : (UInt32.ofNat j).toNat = j :=
  UInt32.toNat_ofNat_of_lt' (Nat.lt_of_le_of_lt fits p.bound_lt)

/-- Attempts remain below the bound, and from the bound on there are none. -/
theorem hasAttemptsRemaining_iff {j : Nat} (first : 0 < j) (fits : j ≤ p.bound) :
    p.config.hasAttemptsRemaining (.ofNat j) = true ↔ j < p.bound := by
  have exact := toNat_attempt fits
  simp only [RetryConfig.hasAttemptsRemaining, decide_eq_true_eq, UInt32.lt_iff_toNat_lt, exact,
    bound]
  omega

/-- After a failed attempt the matter is settled, or the next attempt is approached, or there is
none. -/
theorem afterFailure_eq {slot j : Nat} {e : OperationError} (first : 0 < j) (fits : j ≤ p.bound) :
    (p.afterFailure false slot (.ofNat j) (p.judge e) : Action ρ) =
      match p.verdict? j e with
      | some r => .ended r
      | none =>
        if j < p.bound then p.approach false slot (.ofNat j)
        else .ended (.error (.exhausted (.ofNat j) e)) := by
  have left := hasAttemptsRemaining_iff first fits
  cases verdict : p.classify e <;>
    simp only [afterFailure, judge, verdict?, verdict, left]

end RetryPolicy

namespace Fate

variable {f : Fate ρ} {p : RetryPolicy}

theorem verdict?_of_error {j : Nat} {e : OperationError} (ends : (f.ending j).error? = some e) :
    f.verdict? p j = p.verdict? j e := by
  cases met : f.ending j <;> simp_all [AttemptEnd.error?, verdict?]

/-- The action about to begin attempt `k + 1`. -/
def ready (f : Fate ρ) (p : RetryPolicy) (k : Nat) : Course ρ :=
  ⟨k + 1, .acquiring (.ofNat (k + 1)), (f.spells p k ++ f.pause p k).flatMap (·.entries p)⟩

theorem history_succ (k : Nat) :
    f.history p (k + 1) = (f.ready p k).log ++ (f.attempt (k + 1)).entries p := by
  simp [history, spells, ready, List.range_succ]

/-- After `k` attempts and the delay that goes with them comes the next attempt. -/
theorem approach_leads {k : Nat}
    (fits : (p.config.delay? (.ofNat k) (f.slot k)).isSome = true) :
    f.Leads p (.entering k (f.history p k) (p.approach false (f.slot k) (.ofNat k)))
      (f.ready p k) := by
  obtain ⟨d, drawn⟩ := Option.isSome_iff_exists.1 fits
  have next : UInt32.ofNat k + 1 = .ofNat (k + 1) := (UInt32.ofNat_add k 1).symm
  by_cases none : d.isZero = true
  · have direct : (p.approach false (f.slot k) (.ofNat k) : Action ρ) = .acquiring (.ofNat k + 1) := by
      simp [RetryPolicy.approach, drawn, none]
    have paused : f.pause p k = [] := by simp [pause, drawn, none]
    rw [direct, next, ready, paused, List.append_nil]
    exact .refl
  · have wait : (p.approach false (f.slot k) (.ofNat k) : Action ρ) = .backingOff (.ofNat k) d := by
      simp [RetryPolicy.approach, drawn, none]
    have paused : f.pause p k = [.delay (.ofNat k) d true] := by simp [pause, drawn, none]
    rw [wait, ready, paused, List.flatMap_append, ← next]
    exact leads_step _ .slept rfl (.slept rfl)

/-- What one attempt leads to. -/
theorem attempt_leads {k : Nat} (within : k < p.bound) :
    (∀ r, f.verdict? p (k + 1) = some r →
      f.Leads p (f.ready p k) ⟨k + 1, .ended r, f.history p (k + 1)⟩) ∧
    (f.verdict? p (k + 1) = none → k + 1 < p.bound →
      (p.config.delay? (.ofNat (k + 1)) (f.slot (k + 1))).isSome = true →
      f.Leads p (f.ready p k) (f.ready p (k + 1))) ∧
    (f.verdict? p (k + 1) = none → k + 1 = p.bound →
      ∃ e, (f.ending (k + 1)).error? = some e ∧
        f.Leads p (f.ready p k)
          ⟨k + 1, .ended (.error (.exhausted (.ofNat (k + 1)) e)), f.history p (k + 1)⟩) := by
  cases ends : (f.ending (k + 1)).error? with
  | none =>
    obtain ⟨r, done⟩ : ∃ r, f.ending (k + 1) = .done r := by
      cases met : f.ending (k + 1) <;> simp_all [AttemptEnd.error?]
    have settled : f.verdict? p (k + 1) = some (.ok r) := by simp [verdict?, done]
    refine ⟨fun r' said => ?_, fun unsettled => by simp [settled] at unsettled,
      fun unsettled => by simp [settled] at unsettled⟩
    rw [← Option.some.inj (settled.symm.trans said), history_succ]
    exact attempt_done done
  | some e =>
    have verdict := verdict?_of_error (p := p) ends
    have fails := attempt_failed (p := p) (.ofNat (k + 1)) (f.ready p k).log ends
    rw [RetryPolicy.afterFailure_eq k.succ_pos within, ← history_succ, ← verdict] at fails
    refine ⟨fun r said => ?_, fun unsettled more fits => ?_, fun unsettled last => ⟨e, rfl, ?_⟩⟩
    · rw [said] at fails
      exact fails
    · simp only [unsettled, if_pos more] at fails
      exact fails.trans (approach_leads fits)
    · have spent : ¬k + 1 < p.bound := by omega
      simp only [unsettled, if_neg spent] at fails
      exact fails

/-- As long as nothing is settled the next attempt comes. -/
theorem ready_leads
    (fits : ∀ j, 0 < j → j < p.bound → (p.config.delay? (.ofNat j) (f.slot j)).isSome = true)
    {k : Nat} (within : k < p.bound) (unsettled : ∀ j, 0 < j → j ≤ k → f.verdict? p j = none) :
    f.Leads p (.entering 0 [] (p.begin false)) (f.ready p k) := by
  induction k with
  | zero => exact .refl
  | succ k ih =>
    have before := ih (by omega) fun j first upto => unsettled j first (by omega)
    have here := attempt_leads (f := f) (p := p) (k := k) (by omega)
    exact before.trans (here.2.1 (unsettled _ k.succ_pos (Nat.le_refl _)) within
      (fits _ k.succ_pos within))

/-! ## Counting attempts -/

/-- The number that an action keeps of its attempts is their number, and there is room for one more
where another may follow. -/
def Counted (p : RetryPolicy) (c : Course ρ) : Prop :=
  c.begun ≤ p.bound ∧
    match c.action with
    | .backingOff made _ => made.toNat = c.begun ∧ c.begun < p.bound
    | .ended _ => True
    | .crashed _ => True
    | a => a.attempts.toNat = c.begun ∧ 0 < c.begun

/-- The next attempt still has a number. -/
theorem counted_next {j : Nat} {made : UInt32} {log : List (ActionEntry ρ)}
    (right : made.toNat = j) (more : j < p.bound) :
    Counted p (.entering j log (.acquiring (made + 1))) := by
  have room := p.bound_lt
  have next : (made + 1).toNat = j + 1 := by
    rw [UInt32.toNat_add, right]
    exact Nat.mod_eq_of_lt (Nat.lt_of_le_of_lt more room)
  exact ⟨more, next, j.succ_pos⟩

theorem counted_approach {j slot : Nat} {made : UInt32} {cancelled : Bool}
    {log : List (ActionEntry ρ)} (right : made.toNat = j) (more : j < p.bound) :
    Counted p (.entering j log (p.approach cancelled slot made)) := by
  unfold RetryPolicy.approach
  split
  · exact ⟨Nat.le_of_lt more, trivial⟩
  · split
    · cases cancelled
      · exact counted_next right more
      · exact ⟨Nat.le_of_lt more, trivial⟩
    · exact ⟨Nat.le_of_lt more, right, more⟩

theorem counted_afterFailure {j slot : Nat} {n : UInt32} {log : List (ActionEntry ρ)}
    {failure : Failure} (right : n.toNat = j) (first : 0 < j) (fits : j ≤ p.bound) :
    Counted p (.entering j log (p.afterFailure false slot n failure)) := by
  unfold RetryPolicy.afterFailure
  split
  · exact ⟨fits, trivial⟩
  · exact ⟨fits, trivial⟩
  · split
    · next left =>
      have : n = .ofNat j := by rw [← right, UInt32.ofNat_toNat]
      subst this
      exact counted_approach right ((RetryPolicy.hasAttemptsRemaining_iff first fits).1 left)
    · exact ⟨fits, trivial⟩

theorem counted_giveBack {j : Nat} {n : UInt32} {log : List (ActionEntry ρ)} {e : OperationError}
    (right : n.toNat = j) (first : 0 < j) (fits : j ≤ p.bound) :
    Counted p (.entering j log (p.giveBack n e)) := by
  simp only [RetryPolicy.giveBack]
  split <;> exact ⟨fits, right, first⟩

/-- The step: whatever an uncancelled action hears, its count stays right. -/
theorem counted_step {j slot : Nat} {a b : Action ρ} {m : ActionMove ρ}
    {log log' : List (ActionEntry ρ)} (h : Counted p ⟨j, a, log⟩)
    (moved : p.Moves false slot a m b) : Counted p (.entering j log' b) := by
  obtain ⟨fits, rest⟩ := h
  cases moved with
  | leaveDelay now => cases now
  | leaveAcquire now => cases now
  | leaveRun now => cases now
  | slept => exact counted_next rest.1 rest.2
  | acquired => exact ⟨fits, rest⟩
  | refused => exact counted_afterFailure rest.1 rest.2 fits
  | returned => exact ⟨fits, rest⟩
  | failed => exact counted_giveBack rest.1 rest.2 fits
  | committed => exact ⟨fits, rest⟩
  | commitFailed => exact counted_giveBack rest.1 rest.2 fits
  | rolledBack => exact ⟨fits, rest⟩
  | rollbackFailed => exact ⟨fits, rest⟩
  | closedWell => exact ⟨fits, trivial⟩
  | closedBadly => exact counted_afterFailure rest.1 rest.2 fits
  | breaksOff => exact ⟨fits, trivial⟩
  | misjudges now => cases now

/-- The run: the count is right at every point of a course. -/
theorem counted_course (f : Fate ρ) (p : RetryPolicy) (n : Nat) : Counted p (f.course p n) := by
  induction n with
  | zero => exact counted_approach rfl p.one_le_bound
  | succ n ih =>
    rw [course, Function.iterate_succ_apply']
    change Counted p (f.advance p (f.course p n))
    simp only [advance]
    split
    · next b stepped => exact counted_step ih (RetryPolicy.step_iff_moves.1 stepped)
    · exact ih

theorem Counted.attempts {c : Course ρ} (h : Counted p c) :
    c.action.isOver = true ∨ c.action.attempts.toNat = c.begun := by
  obtain ⟨j, a, log⟩ := c
  cases a with
  | backingOff => exact .inr h.2.1
  | ended => exact .inl rfl
  | crashed => exact .inl rfl
  | _ => exact .inr h.2.1

/-- A delay is neither an acquisition nor a run. -/
theorem count_pause (f : Fate ρ) (p : RetryPolicy) (made : Nat) :
    ((f.pause p made).flatMap (·.entries p)).countP (·.isAcquire) = 0 ∧
      ((f.pause p made).flatMap (·.entries p)).countP (·.isRun) = 0 := by
  simp only [pause]
  split
  · split <;> exact ⟨rfl, rfl⟩
  · exact ⟨rfl, rfl⟩

/-- An attempt makes one acquisition, and one run if that gave a handle. -/
theorem count_attempt (f : Fate ρ) (p : RetryPolicy) (j : Nat) :
    ((f.attempt j).entries p).countP (·.isAcquire) = 1 ∧
      ((f.attempt j).entries p).countP (·.isRun) = if (f.ending j).hasHandle then 1 else 0 := by
  simp only [attempt]
  cases f.ending j with
  | refused e => exact ⟨rfl, rfl⟩
  | done r => exact ⟨rfl, rfl⟩
  | _ =>
    simp only [Spell.entries, Handling.calls, RetryPolicy.undoing]
    split <;> exact ⟨rfl, rfl⟩

/-- In `k` attempts there are `k` acquisitions, and a run for each of them that gave a handle. -/
theorem count_history (f : Fate ρ) (p : RetryPolicy) (k : Nat) :
    (f.history p k).countP (·.isAcquire) = k ∧
      (f.history p k).countP (·.isRun) =
        (List.range k).countP fun i => (f.ending (i + 1)).hasHandle := by
  induction k with
  | zero => exact ⟨rfl, rfl⟩
  | succ k ih =>
    obtain ⟨acquired, run⟩ := ih
    have waited := f.count_pause p k
    have tried := f.count_attempt p (k + 1)
    have whole : f.history p (k + 1) = f.history p k ++ (f.pause p k).flatMap (·.entries p) ++
        (f.attempt (k + 1)).entries p := by
      rw [history_succ, ready, List.flatMap_append, history]
    constructor
    · rw [whole, List.countP_append, List.countP_append, acquired, waited.1, tried.1]
    · rw [whole, List.countP_append, List.countP_append, run, waited.2, tried.2, List.range_succ,
        List.countP_append, List.countP_singleton]
      rfl

/-- **An action is tried until the matter is settled.** The least attempt that settles it ends the
action with what it settles, if there are so many attempts; otherwise the action ends after the
last one with the error of that one. In both cases its history is that of its attempts, each after
its delay, and the number that it keeps of them never overflows. -/
theorem tried_until_settled (p : RetryPolicy) (f : Fate ρ)
    (fits : ∀ j, 0 < j → j < p.bound → (p.config.delay? (.ofNat j) (f.slot j)).isSome = true) :
    (∀ k r, 0 < k → k ≤ p.bound → (∀ j, 0 < j → j < k → f.verdict? p j = none) →
      f.verdict? p k = some r → ∃ n, f.course p n = ⟨k, .ended r, f.history p k⟩) ∧
    ((∀ j, 0 < j → j ≤ p.bound → f.verdict? p j = none) →
      ∃ n e, (f.ending p.bound).error? = some e ∧
        f.course p n =
          ⟨p.bound, .ended (.error (.exhausted (.ofNat p.bound) e)), f.history p p.bound⟩) ∧
    (∀ k, (f.history p k).countP (·.isAcquire) = k ∧
      (f.history p k).countP (·.isRun) =
        (List.range k).countP fun i => (f.ending (i + 1)).hasHandle) ∧
    (∀ n, (f.course p n).begun ≤ p.bound ∧ ((f.course p n).action.isOver = true ∨
      (f.course p n).action.attempts.toNat = (f.course p n).begun)) := by
  refine ⟨?_, ?_, f.count_history p, fun n =>
    ⟨(counted_course f p n).1, (counted_course f p n).attempts⟩⟩
  · rintro (_ | k) r first within unsettled settled
    · cases first
    · have ready := ready_leads fits within fun j first upto => unsettled j first (by omega)
      exact ready.trans ((attempt_leads within).1 r settled)
  · intro unsettled
    obtain ⟨k, last⟩ : ∃ k, k + 1 = p.bound := ⟨p.bound - 1, Nat.sub_add_cancel p.one_le_bound⟩
    have within : k < p.bound := by omega
    have ready := ready_leads fits within fun j first upto => unsettled j first (by omega)
    obtain ⟨e, ends, spent⟩ :=
      (attempt_leads within).2.2 (unsettled _ k.succ_pos (Nat.le_of_eq last)) last
    obtain ⟨n, arrived⟩ := ready.trans spent
    rw [last] at ends arrived
    exact ⟨n, e, ends, arrived⟩

/-- No handle, then work that is lost at its commit, then work that is saved. -/
def thirdTime : Fate Nat where
  ending
    | 1 => .refused (.connection "refused")
    | 2 => .unsaved 5 (.backend "40001" "conflict")
    | _ => .done 7
  undo _ := .ok ()
  slot _ := 1

/-- Three attempts, five milliseconds apart. -/
def hasty : RetryPolicy := { RetryPolicy.patient with config := .fixed (.ofMillis 5) 3 }

theorem tried_until_settled_thrice :
    (∀ j, 0 < j → j < hasty.bound →
      (hasty.config.delay? (.ofNat j) (thirdTime.slot j)).isSome = true) ∧
    (thirdTime.verdict? hasty 1 = none ∧ thirdTime.verdict? hasty 2 = none) ∧
    (∃ n, thirdTime.course hasty n = ⟨3, .ended (.ok 7), thirdTime.history hasty 3⟩) ∧
    (thirdTime.history hasty 3).countP (·.isRun) = 2 := by
  have fits : ∀ j, 0 < j → j < hasty.bound →
      (hasty.config.delay? (.ofNat j) (thirdTime.slot j)).isSome = true := by
    intro j first below
    have bounded : j < 3 := below
    obtain rfl | rfl : j = 1 ∨ j = 2 := by omega
    · rfl
    · rfl
  have whole := tried_until_settled hasty thirdTime fits
  refine ⟨fits, ⟨rfl, rfl⟩, whole.1 3 (.ok 7) (by decide) (by decide) ?_ rfl,
    (whole.2.2.1 3).2⟩
  intro j first below
  obtain rfl | rfl : j = 1 ∨ j = 2 := by omega
  · rfl
  · rfl

end Fate

end LoadHarness
