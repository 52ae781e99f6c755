/-!
# Completion latches

A latch counts finished workers down and lets its waiters go at zero. Every worker holds a guard.
Dropping a guard is two steps, the count and then the notice to all waiters, which only the guard
gives that counted to zero. A waiter signs up before it reads the count and decides after that
whether to sleep: whatever falls between any two of its steps finds it signed up.
-/

namespace LoadHarness

/-- Where a guard stands. -/
inductive Guard where
  | held
  /-- It has counted down; if it was the last, it still has to give notice. -/
  | counted (last : Bool)
  | released
deriving DecidableEq, Repr

/-- Where a waiter stands. -/
inductive Waiter where
  /-- About to sign up. -/
  | ready
  /-- Signed up, about to read the count; a notice may have come already. -/
  | signedUp (noticed : Bool)
  /-- It has read the count, and returns or goes to sleep. -/
  | informed (count : UInt64) (noticed : Bool)
  /-- Asleep until a notice. -/
  | asleep (noticed : Bool)
  | returned
deriving DecidableEq, Repr

namespace Waiter

/-- A notice reaches everyone who has signed up. -/
def notice : Waiter → Waiter
  | ready => ready
  | signedUp _ => signedUp true
  | informed count _ => informed count true
  | asleep _ => asleep true
  | returned => returned

/-- One step of a waiter at a latch with this count; a sleeper without a notice stays where it
is. -/
def advance (count : UInt64) : Waiter → Waiter
  | ready => signedUp false
  | signedUp noticed => informed count noticed
  | informed seen noticed => if seen = 0 then returned else asleep noticed
  | asleep true => ready
  | asleep false => asleep false
  | returned => returned

end Waiter

/-- A latch with its guards and waiters. -/
structure Latch where
  count : UInt64
  guards : List Guard
  waiters : List Waiter
deriving DecidableEq, Repr, Inhabited

namespace Latch

/-- A latch that waits for `n` guards, as many as a word can count. -/
def ofCount (n : Nat) : Latch := ⟨.ofNat n, [], []⟩

/-- The guards that the latch still waits for. -/
def remaining (l : Latch) : Nat := l.count.toNat

/-- One less, if there is one. -/
def oneLess? (n : UInt64) : Option UInt64 := if n = 0 then none else some (n - 1)

/-- A step of a guard or of a waiter. -/
inductive Move where
  | take
  | drop (i : Nat)
  | join
  | waiter (i : Nat)
deriving DecidableEq, Repr

/-- The latch after the next step of dropping its `i`-th guard, which stands at `g`. -/
def advanceGuard (l : Latch) (i : Nat) (g : Guard) : Latch :=
  match g with
  | .held =>
    { l with
      count := (oneLess? l.count).getD l.count
      guards := l.guards.set i (.counted (l.count == 1)) }
  | .counted last =>
    { l with
      guards := l.guards.set i .released
      waiters := if last then l.waiters.map Waiter.notice else l.waiters }
  | .released => l

def step (l : Latch) : Move → Latch
  | .take => { l with guards := l.guards ++ [.held] }
  | .drop i => (l.guards[i]?).elim l (l.advanceGuard i)
  | .join => { l with waiters := l.waiters ++ [.ready] }
  | .waiter i => { l with waiters := l.waiters.modify i (Waiter.advance l.count) }

def run (l : Latch) (moves : List Move) : Latch := moves.foldl step l

/-- A guard is taken and dropped without anything in between. -/
def release (l : Latch) : Latch :=
  let i := l.guards.length
  l.run [.take, .drop i, .drop i]

/-- Every waiter goes on until it sleeps or has returned: after a notice each wakes, signs up again,
reads the count and decides. -/
def settle (l : Latch) : Latch :=
  let everyone := (List.range l.waiters.length).map Move.waiter
  l.run (everyone ++ everyone ++ everyone ++ everyone)

end Latch

end LoadHarness
