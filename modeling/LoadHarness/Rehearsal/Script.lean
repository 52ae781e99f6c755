import LoadHarness.Rehearsal.Clock
import LoadHarness.Retry.Action
import LoadHarness.Backend.Memory

/-!
# Scripts

A script says how provider and operation answer an action. The provider's lines are shared by all
actions on one stage; each performer has outcomes of its own. Where a script has nothing to say the
backend in memory answers.
-/

namespace LoadHarness.Rehearsal

/-- How an acquisition goes. -/
inductive AcquireLine where
  /-- The backend in memory answers. -/
  | ask
  | fail (e : OperationError)
  | hang

/-- How a run of the operation ends. -/
inductive Ending where
  | hang
  | panic (text : String)
  | fail (e : OperationError)
  /-- It returns a number, and the commit may then fail. -/
  | done (result : Int) (commit : Option OperationError)

/-- A run of the operation: how long it sleeps, in milliseconds, and how it ends. -/
structure Outcome where
  sleep : Nat
  ending : Ending

/-- A run that never ends. -/
def Outcome.stuck : Outcome := ⟨0, .hang⟩

/-- How chance falls: the number below a size that the `n`-th draw gives. -/
abbrev Chance := Nat → Nat → Nat

/-- Every draw gives the first number. -/
def Chance.first : Chance := fun _ _ => 0

/-- What all actions share. -/
structure Stage where
  acquisitions : List AcquireLine
  /-- Errors of the rollbacks; none for one that the backend in memory answers. -/
  rollbacks : List (Option OperationError)
  provider : MemoryProvider

/-- One performer of actions. -/
structure Performer where
  outcomes : List Outcome
  /-- What it does when its outcomes have come to an end, given the number of runs. -/
  afterwards : Nat → Outcome
  /-- Runs so far. -/
  runs : Nat
  handle : MemoryHandle

def Performer.nextOutcome (p : Performer) : Outcome × Performer :=
  let runs := p.runs + 1
  match p.outcomes with
  | o :: rest => (o, { p with outcomes := rest, runs := runs })
  | [] => (p.afterwards runs, { p with runs := runs })

/-- An answer and the instant at which it comes; nothing when none ever comes. -/
abbrev Reply := Option (Nat × Answer Int)

/-- The provider's answer to an acquisition. -/
def Stage.acquire (s : Stage) (now : Nat) : Reply × Stage :=
  let line := s.acquisitions.headD .ask
  let s := { s with acquisitions := s.acquisitions.tail }
  match line with
  | .hang => (none, s)
  | .fail e => (some (now, .acquireFailed e), s)
  | .ask =>
    match s.provider.acquire with
    | (.ok (), p) => (some (now, .acquired), { s with provider := p })
    | (.error e, p) => (some (now, .acquireFailed e), { s with provider := p })

def Stage.rollback (s : Stage) (now : Nat) : Reply × Stage :=
  let line := s.rollbacks.headD none
  let s := { s with rollbacks := s.rollbacks.tail }
  match line with
  | some e => (some (now, .rollbackFailed e), s)
  | none => (some (now, .rolledBack), { s with provider := s.provider.rolledBack })

/-- The answer to a commit. -/
def Stage.commit (s : Stage) (h : MemoryHandle) (now : Nat) : Reply × Stage × MemoryHandle :=
  match h.commit s.provider with
  | (.ok (), h, p) => (some (now, .committed), { s with provider := p }, h)
  | (.error e, h, p) => (some (now, .commitFailed e), { s with provider := p }, h)

def Performer.run (p : Performer) (now : Nat) : Reply × Performer :=
  let (o, p) := p.nextOutcome
  let due := if o.sleep = 0 then now else wake (now + o.sleep * tick)
  match o.ending with
  | .hang => (none, p)
  | .panic text => (some (due, .panicked text), p)
  | .fail e => (some (due, .failed e), p)
  | .done r commit => (some (due, .returned r), { p with handle := ⟨commit⟩ })

/-- The answer that an action which has just entered its phase is going to get. -/
def Stage.reply {ρ : Type} (s : Stage) (p : Performer) (now : Nat) :
    Action ρ → Reply × Stage × Performer
  | .backingOff _ d => (some (wake (now + d.nanos), .slept), s, p)
  | .acquiring _ => let (r, s) := s.acquire now; (r, s, { p with handle := ⟨none⟩ })
  | .running _ => let (r, p) := p.run now; (r, s, p)
  | .committing _ _ => let (r, s, h) := s.commit p.handle now; (r, s, { p with handle := h })
  | .rollingBack _ _ => let (r, s) := s.rollback now; (r, s, p)
  | .closing _ _ => (some (now, .closed), { s with provider := s.provider.closed }, p)
  | .ended _ => (none, s, p)
  | .crashed _ => (none, s, p)

end LoadHarness.Rehearsal
