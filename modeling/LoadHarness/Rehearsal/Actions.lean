import LoadHarness.Rehearsal.Script

/-!
# Actions in rehearsal

Actions of one policy, one after another on one stage. All slots that are drawn are the first.
-/

namespace LoadHarness.Rehearsal

/-- An action on the stage. -/
structure Scene where
  now : Nat
  action : Action Int
  reply : Reply
  stage : Stage
  performer : Performer
  /-- Instants of the calls made so far, the latest first. -/
  events : List (Nat × ActionCall)

namespace Scene

/-- The action enters a phase: its call is noted and the script is asked for the answer. -/
def enter (s : Scene) (a : Action Int) : Scene :=
  let (reply, stage, performer) := s.stage.reply s.performer s.now a
  { s with
    action := a
    reply := reply
    stage := stage
    performer := performer
    events := match a.call? with
      | some c => (s.now, c) :: s.events
      | none => s.events }

/-- The next move of the action, or the next jump of the clock; nothing when the action is over or
will wait for ever. -/
def advance (policy : RetryPolicy) (cancelAt : Option Nat) (s : Scene) : Option Scene :=
  let cancelled := reached s.now cancelAt
  let move : Option (ActionMove Int) :=
    if cancelled && s.action.isCancellable then some .abandon
    else match s.reply with
      | some (t, a) => if t ≤ s.now then some (.answer a) else none
      | none => none
  match move with
  | some m => (policy.step cancelled 0 s.action m).map s.enter
  | none =>
    let cancelTime := if cancelled then none else cancelAt
    (earlier (s.reply.map (·.1)) cancelTime).map fun t => { s with now := t }

/-- The scene at its end. -/
def play (policy : RetryPolicy) (cancelAt : Option Nat) : Nat → Scene → Scene
  | 0, s => s
  | fuel + 1, s =>
    if s.action.isOver then s
    else match s.advance policy cancelAt with
      | some s => play policy cancelAt fuel s
      | none => s

end Scene

/-- What is reported of one action. -/
structure Performance where
  /-- The action at its end; it may still be waiting for ever. -/
  action : Action Int
  elapsed : Nat
  runs : Nat
  stats : MemoryStats
  events : List (Nat × ActionCall)

/-- An action that starts at an instant, cancelled after a number of milliseconds. -/
def perform (policy : RetryPolicy) (cancelAfter : Option Nat) (now : Nat) (stage : Stage)
    (performer : Performer) : Performance × Scene :=
  let cancelAt := cancelAfter.map fun ms => if ms = 0 then now else wake (now + ms * tick)
  let start : Scene := ⟨now, .crashed "", none, stage, performer, []⟩
  let s := (start.enter (policy.begin (reached now cancelAt))).play policy cancelAt patience
  (⟨s.action, s.now - now, s.performer.runs, s.stage.provider.stats, s.events.reverse⟩, s)

def performAll (policy : RetryPolicy) (cancelAfter : Option Nat) :
    Nat → Nat → Stage → Performer → List Performance
  | 0, _, _, _ => []
  | n + 1, now, stage, performer =>
    let (p, s) := perform policy cancelAfter now stage performer
    p :: performAll policy cancelAfter n s.now s.stage s.performer

end LoadHarness.Rehearsal
