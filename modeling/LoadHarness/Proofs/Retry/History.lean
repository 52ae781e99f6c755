import LoadHarness.Retry.Action

/-!
# Histories of actions

An action is driven from outside: something happens, and the action takes the step that goes with
it. Its history lists what it has waited for and what came of it. The calls on each handle are read
off the history alone: a handle's calls are those made between its acquisition and the next.

The token belongs to the events, so it may be cancelled between any two of them.
-/

namespace LoadHarness

variable {ρ : Type}

/-- A call breaks off, or the classifier does over what came of it. -/
def ActionMove.breaksOff : ActionMove ρ → Bool
  | .answer (.panicked _) => true
  | .misjudge _ => true
  | _ => false

/-- What an action waits for. -/
inductive ActionWait where
  /-- The end of a delay after so many attempts. -/
  | delay (made : UInt32) (span : Duration)
  | call (c : ActionCall)
deriving DecidableEq

/-- What an action in this phase waits for. -/
def Action.wait? : Action ρ → Option ActionWait
  | .backingOff made d => some (.delay made d)
  | a => a.call?.map .call

/-- Something that an action has waited for, and what came of it. -/
structure ActionEntry (ρ : Type) where
  wait : ActionWait
  came : ActionMove ρ

namespace ActionEntry

/-- A call with the answer to it. -/
def answered (c : ActionCall) (a : Answer ρ) : ActionEntry ρ := ⟨.call c, .answer a⟩

/-- A call on the provider. -/
def isAcquire (x : ActionEntry ρ) : Bool :=
  match x.wait with
  | .call .acquire => true
  | _ => false

/-- A call on the operation or on a handle. -/
def isOnHandle (x : ActionEntry ρ) : Bool :=
  match x.wait with
  | .delay _ _ => false
  | .call c => c != .acquire

/-- A call on the provider that gave a handle. -/
def opensHandle (x : ActionEntry ρ) : Bool :=
  match x.wait, x.came with
  | .call .acquire, .answer .acquired => true
  | _, _ => false

/-- A call on the operation. -/
def isRun (x : ActionEntry ρ) : Bool :=
  match x.wait with
  | .call .run => true
  | _ => false

/-- A call that closed a handle. -/
def isClose (x : ActionEntry ρ) : Bool :=
  match x.wait, x.came with
  | .call .close, .answer .closed => true
  | _, _ => false

/-- A call on a handle over which its action broke off. -/
def isBrokenOff (x : ActionEntry ρ) : Bool := x.isOnHandle && x.came.breaksOff

/-- A call on a handle that leaves it open. -/
def leavesOpen (x : ActionEntry ρ) : Bool := x.isOnHandle && !x.isClose

/-- A commit that went through. -/
def isCommitted (x : ActionEntry ρ) : Bool :=
  match x.wait, x.came with
  | .call .commit, .answer .committed => true
  | _, _ => false

theorem isAcquire_of_isOnHandle {x : ActionEntry ρ} (on : x.isOnHandle = true) :
    x.isAcquire = false := by
  unfold isAcquire
  split
  · next wait =>
    rw [isOnHandle, wait] at on
    cases on
  · rfl

theorem leavesOpen_of_isBrokenOff {x : ActionEntry ρ} (broken : x.isBrokenOff = true) :
    x.leavesOpen = true := by
  obtain ⟨on, off⟩ := Bool.and_eq_true_iff.1 broken
  rw [leavesOpen, on, Bool.true_and, isClose]
  split
  · next came =>
    rw [came] at off
    cases off
  · rfl

end ActionEntry

/-- What a move adds to the history of an action in this phase. -/
def Action.entries (a : Action ρ) (m : ActionMove ρ) : List (ActionEntry ρ) :=
  (a.wait?.map fun w => ⟨w, m⟩).toList

theorem Action.entries_of_call {a : Action ρ} {c : ActionCall} (calling : a.call? = some c)
    (m : ActionMove ρ) : a.entries m = [⟨.call c, m⟩] := by
  cases a <;> cases calling <;> rfl

theorem Action.calls_of_attempting {a : Action ρ} {n : UInt32}
    (attempting : a.attempting? = some n) : ∃ c, a.call? = some c := by
  cases a <;> cases attempting <;> exact ⟨_, rfl⟩

/-- The calls on each handle, in the order of the handles. -/
def callsByHandle : List (ActionEntry ρ) → List (List (ActionEntry ρ))
  | [] => []
  | x :: rest =>
    if x.opensHandle then
      (rest.takeWhile (!·.isAcquire)).filter (·.isOnHandle) :: callsByHandle rest
    else callsByHandle rest

/-- Something that happens to an action, with what is outside it at that time. -/
structure ActionEvent (ρ : Type) where
  /-- The token is cancelled. -/
  cancelled : Bool
  /-- The slot that is drawn if a delay follows. -/
  slot : Nat
  move : ActionMove ρ

namespace ActionEvent

/-- The action breaks off. -/
def breaksOff (e : ActionEvent ρ) : Bool := e.move.breaksOff

/-- The same, but a rollback that failed goes through. -/
def forgiven (e : ActionEvent ρ) : ActionEvent ρ :=
  match e.move with
  | .answer (.rollbackFailed _) => { e with move := .answer .rolledBack }
  | _ => e

end ActionEvent

namespace RetryPolicy

/-- The action after several events; nothing when one of them is not possible. -/
def run (p : RetryPolicy) : Action ρ → List (ActionEvent ρ) → Option (Action ρ)
  | a, [] => some a
  | a, e :: es => (p.step e.cancelled e.slot a e.move).bind fun b => p.run b es

/-- What several events add to the history of an action, up to the first that is not possible. -/
def history (p : RetryPolicy) : Action ρ → List (ActionEvent ρ) → List (ActionEntry ρ)
  | _, [] => []
  | a, e :: es =>
    match p.step e.cancelled e.slot a e.move with
    | none => []
    | some b => a.entries e.move ++ p.history b es

/-- A property of history and phase that every event keeps holds after all of them, if it is kept
as long as no handle is left in the middle of a call. -/
theorem run_invariant {p : RetryPolicy} (Inv : List (ActionEntry ρ) → Action ρ → Prop)
    (keep : ∀ {log a b} {e : ActionEvent ρ}, (∀ x ∈ a.entries e.move, x.isBrokenOff = false) →
      Inv log a → p.step e.cancelled e.slot a e.move = some b → Inv (log ++ a.entries e.move) b)
    (log : List (ActionEntry ρ)) {es : List (ActionEvent ρ)} {a b : Action ρ}
    (calm : ∀ x ∈ p.history a es, x.isBrokenOff = false) (start : Inv log a)
    (ran : p.run a es = some b) :
    Inv (log ++ p.history a es) b := by
  induction es generalizing log a with
  | nil =>
    cases ran
    simpa [history] using start
  | cons e es ih =>
    obtain ⟨c, stepped, rest⟩ := Option.bind_eq_some_iff.1 ran
    simp only [history, stepped] at calm ⊢
    obtain ⟨first, others⟩ := List.forall_mem_append.1 calm
    rw [← List.append_assoc]
    exact ih _ others (keep first start stepped) rest

/-- An action does the same after a rollback, whether it went through or not. -/
theorem step_rollbackFailed (p : RetryPolicy) (cancelled : Bool) (slot : Nat) (a : Action ρ)
    (e : OperationError) :
    p.step cancelled slot a (.answer (.rollbackFailed e)) =
      p.step cancelled slot a (.answer .rolledBack) := by
  cases a <;> rfl

theorem step_forgiven (p : RetryPolicy) (a : Action ρ) (e : ActionEvent ρ) :
    p.step e.forgiven.cancelled e.forgiven.slot a e.forgiven.move =
      p.step e.cancelled e.slot a e.move := by
  unfold ActionEvent.forgiven
  split
  · next failure sent => rw [sent, step_rollbackFailed]
  · rfl

/-- Failing rollbacks never change where an action goes. -/
theorem run_forgiven (p : RetryPolicy) (a : Action ρ) (es : List (ActionEvent ρ)) :
    p.run a (es.map .forgiven) = p.run a es := by
  induction es generalizing a with
  | nil => rfl
  | cons e es ih =>
    simp only [List.map_cons, run, step_forgiven]
    exact congrArg _ (funext fun b => ih b)

end RetryPolicy

end LoadHarness
