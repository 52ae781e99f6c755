import LoadHarness.Retry.Policy

/-!
# Actions, step by step

An action tries an operation until an attempt ends well or there is no point in another. It stands
in one phase at a time and waits there for one answer: of the clock, of the provider or of the
operation. The answers, the drawn slots and the moment of cancellation come from outside, so that
whatever holds for all of them holds for every provider, every operation and every schedule.

A cancelled action is abandoned wherever it waits for the clock, for a resource or for the
operation, before any answer is looked at. Commit, rollback and close run to their end.

Whatever an action calls may break off instead of answering. The action then breaks off as well: it
does nothing more, and nobody closes a handle that it has.
-/

namespace LoadHarness

/-- A failed attempt: the error and its class. -/
structure Failure where
  error : OperationError
  verdict : FailureClass
deriving DecidableEq, Repr

/-- A call on the provider, the operation or a handle. -/
inductive ActionCall where
  | acquire
  | run
  | commit
  | rollback
  | close
deriving DecidableEq, Repr

def ActionCall.name : ActionCall → String
  | acquire => "acquire"
  | run => "run"
  | commit => "commit"
  | rollback => "rollback"
  | close => "close"

/-- An answer that an action can be waiting for. -/
inductive Answer (ρ : Type) where
  | slept
  | acquired
  | acquireFailed (e : OperationError)
  | returned (result : ρ)
  | failed (e : OperationError)
  /-- The call broke off, or the classifier did over the failure that it answered. -/
  | panicked (text : String)
  | committed
  | commitFailed (e : OperationError)
  | rolledBack
  | rollbackFailed (e : OperationError)
  | closed
deriving Repr

def Answer.map {ρ σ : Type} (f : ρ → σ) : Answer ρ → Answer σ
  | .slept => .slept
  | .acquired => .acquired
  | .acquireFailed e => .acquireFailed e
  | .returned r => .returned (f r)
  | .failed e => .failed e
  | .panicked t => .panicked t
  | .committed => .committed
  | .commitFailed e => .commitFailed e
  | .rolledBack => .rolledBack
  | .rollbackFailed e => .rollbackFailed e
  | .closed => .closed

/-- Where an action stands. -/
inductive Action (ρ : Type) where
  /-- Waiting for a delay after `made` attempts. -/
  | backingOff (made : UInt32) (delay : Duration)
  | acquiring (attempt : UInt32)
  | running (attempt : UInt32)
  | committing (attempt : UInt32) (result : ρ)
  | rollingBack (attempt : UInt32) (failure : Failure)
  | closing (attempt : UInt32) (outcome : Except Failure ρ)
  | ended (result : Except RetryError ρ)
  /-- Broke off over a call, over a failure that could not be classified, or because a delay cannot
  be represented. -/
  | crashed (text : String)

namespace Action

variable {ρ : Type}

/-- The call that an action in this phase has made and waits for. -/
def call? : Action ρ → Option ActionCall
  | acquiring _ => some .acquire
  | running _ => some .run
  | committing _ _ => some .commit
  | rollingBack _ _ => some .rollback
  | closing _ _ => some .close
  | _ => none

/-- Attempts that the action has begun, or made before a delay. -/
def attempts : Action ρ → UInt32
  | backingOff made _ => made
  | acquiring attempt => attempt
  | running attempt => attempt
  | committing attempt _ => attempt
  | rollingBack attempt _ => attempt
  | closing attempt _ => attempt
  | ended _ => 0
  | crashed _ => 0

/-- The attempt whose resource or operation the action waits for. -/
def attempting? : Action ρ → Option UInt32
  | acquiring n => some n
  | running n => some n
  | _ => none

/-- A cancelled action does not stay in this phase. -/
def isCancellable : Action ρ → Bool
  | backingOff _ _ => true
  | acquiring _ => true
  | running _ => true
  | _ => false

def isOver : Action ρ → Bool
  | ended _ => true
  | crashed _ => true
  | _ => false

end Action

namespace RetryPolicy

variable {ρ : Type}

open LoadHarness.Action

/-- The text of a delay that no duration can hold. -/
def overflowText : String := "overflow when adding durations"

/-- Before attempt `made + 1`: waits for the delay that goes with the drawn slot, or goes on at
once, unless cancelled, when there is none. -/
def approach (p : RetryPolicy) (cancelled : Bool) (slot : Nat) (made : UInt32) : Action ρ :=
  match p.config.delay? made slot with
  | none => crashed overflowText
  | some d =>
    if d.isZero then (if cancelled then ended (.error .cancelled) else acquiring (made + 1))
    else backingOff made d

def begin (p : RetryPolicy) (cancelled : Bool) : Action ρ := p.approach cancelled 0 0

/-- The failure with the class that the policy gives it. -/
def judge (p : RetryPolicy) (e : OperationError) : Failure := ⟨e, p.classify e⟩

/-- After a failed attempt whose resource has been given back: the end, or another attempt. -/
def afterFailure (p : RetryPolicy) (cancelled : Bool) (slot : Nat) (attempt : UInt32)
    (f : Failure) : Action ρ :=
  match f.verdict with
  | .cancelled => ended (.error .cancelled)
  | .nonTransient => ended (.error (.nonTransient attempt f.error))
  | _ =>
    if p.config.hasAttemptsRemaining attempt then p.approach cancelled slot attempt
    else ended (.error (.exhausted attempt f.error))

/-- After a failure with an open handle: rollback, unless the connection is broken, then close. -/
def giveBack (p : RetryPolicy) (attempt : UInt32) (e : OperationError) : Action ρ :=
  let f := p.judge e
  if f.verdict.isConnection then closing attempt (.error f) else rollingBack attempt f

/-- A cancelled action leaves the phase in which it waits. -/
def abandon (p : RetryPolicy) (slot : Nat) : Action ρ → Option (Action ρ)
  | backingOff _ _ => some (ended (.error .cancelled))
  | acquiring attempt => some (p.afterFailure true slot attempt (p.judge .cancelled))
  | running attempt => some (p.giveBack attempt .cancelled)
  | _ => none

/-- The action after an answer, if it was waiting for one of that kind. A cancelled action does not
listen where it can be abandoned. -/
def answer (p : RetryPolicy) (cancelled : Bool) (slot : Nat) :
    Action ρ → Answer ρ → Option (Action ρ)
  | a, .panicked text =>
    if cancelled && a.isCancellable then none else a.call?.map fun _ => crashed text
  | backingOff made _, .slept => if cancelled then none else some (acquiring (made + 1))
  | acquiring attempt, .acquired => if cancelled then none else some (running attempt)
  | acquiring attempt, .acquireFailed e =>
    if cancelled then none else some (p.afterFailure false slot attempt (p.judge e))
  | running attempt, .returned r => if cancelled then none else some (committing attempt r)
  | running attempt, .failed e => if cancelled then none else some (p.giveBack attempt e)
  | committing attempt r, .committed => some (closing attempt (.ok r))
  | committing attempt _, .commitFailed e => some (p.giveBack attempt e)
  | rollingBack attempt f, .rolledBack => some (closing attempt (.error f))
  | rollingBack attempt f, .rollbackFailed _ => some (closing attempt (.error f))
  | closing attempt outcome, .closed =>
    match outcome with
    | .ok r => some (ended (.ok r))
    | .error f => some (p.afterFailure cancelled slot attempt f)
  | _, _ => none

end RetryPolicy

/-- One thing that happens to an action. -/
inductive ActionMove (ρ : Type) where
  /-- It notices that it is cancelled. -/
  | abandon
  /-- The same, and the classifier breaks off over it. -/
  | misjudge (text : String)
  | answer (a : Answer ρ)
deriving Repr

/-- The action after a move with the slot that is drawn if one is needed; nothing when the move is
not possible. -/
def RetryPolicy.step {ρ : Type} (p : RetryPolicy) (cancelled : Bool) (slot : Nat) (a : Action ρ) :
    ActionMove ρ → Option (Action ρ)
  | .abandon => if cancelled then p.abandon slot a else none
  | .misjudge text => if cancelled then a.attempting?.map fun _ => .crashed text else none
  | .answer x => p.answer cancelled slot a x

end LoadHarness
