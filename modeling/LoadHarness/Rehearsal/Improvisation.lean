import LoadHarness.Rehearsal.Container

/-!
# Improvisation

A container that follows no script: chance falls as a seed has it, simulated operations take as
long and fail as often as the settings say, and no database can be reached. With the wall clock for
its time this is the program at work.
-/

namespace LoadHarness.Rehearsal

/-- A word that depends on all bits of another. -/
def mixed (x : UInt64) : UInt64 :=
  let x := (x ^^^ (x >>> 30)) * 0xbf58476d1ce4e5b9
  let x := (x ^^^ (x >>> 27)) * 0x94d049bb133111eb
  x ^^^ (x >>> 31)

/-- The seed of somebody with a number, under the seed of all. -/
def seedOf (seed : UInt64) (who : Nat) : UInt64 := mixed (seed ^^^ mixed (.ofNat (who + 1)))

/-- Draws that a seed decides. -/
def Chance.ofSeed (seed : UInt64) : Chance := fun n size =>
  (mixed (seed + .ofNat (n + 1) * 0x9e3779b97f4a7c15)).toNat * size / UInt64.size

theorem Chance.ofSeed_lt {seed : UInt64} {n size : Nat} (h : 0 < size) :
    Chance.ofSeed seed n size < size := by
  unfold Chance.ofSeed
  rw [Nat.div_lt_iff_lt_mul (by decide), Nat.mul_comm]
  exact Nat.mul_lt_mul_of_pos_left (UInt64.toNat_lt _) h

/-- How many fractions can be drawn. -/
def fractionSteps : Nat := Nat.pow 2 53

/-- A draw from 0 to below 1. -/
def Chance.fraction (c : Chance) (n : Nat) : Float :=
  Float.ofNat (c n fractionSteps) / Float.ofNat fractionSteps

/-- What a simulated operation does in the `n`-th run of a worker. -/
def simulate (s : SyntheticSettings) (c : Chance) (tag : String) (n : Nat) : Outcome :=
  let jitter := 0.5 + c.fraction (2 * n)
  let (result, time, _) := Synthetic.execute s tag jitter (c.fraction (2 * n + 1)) default
  ⟨wake time.nanos / tick, match result with
    | .ok () => .done 0 none
    | .error e => .fail e⟩

def Part.ofWorkload (w : Workload) (c : Chance) : Part :=
  match w with
  | .synthetic s => { (default : Part) with improvise := simulate s c }
  | .ping _ _ _ => default

namespace Actor

/-- A built-in service whose workers improvise. -/
def improvising (seed : UInt64) (s : PoolService) : Actor :=
  match ofService s with
  | .pool name plan scene =>
    let part (i : Nat) := Part.ofWorkload s.workload (.ofSeed (seedOf seed (i + 1)))
    .pool name plan { scene with
      chance := .ofSeed (seedOf seed 0)
      parts := (List.range plan.threads).map part }
  | actor => actor

/-- The identity of the worker with a number. -/
def identityUnder (seed : UInt64) (i : Nat) : String :=
  let word := seedOf (mixed seed) i
  WorkerContext.identityOf fun k =>
    ⟨Chance.ofSeed word k.val 62, Chance.ofSeed_lt (by decide)⟩

/-- The built-in services with workers that improvise. -/
def improvisers (seed : UInt64) : Registry Actor :=
  let made := Registry.builtin Address.faults (identityUnder seed)
  ⟨made.entries.map fun (name, build) => (name, fun s => (build s).map (improvising seed))⟩

/-- What has been noted on the stage of a service, the earliest first, and the service without
it. -/
def takeNotices : Actor → List Notice × Actor
  | .pool name plan scene =>
    (scene.notices.reverse.map (·.2),
      .pool name plan { scene with notices := [], executions := [] })
  | actor => ([], actor)

end Actor

namespace ContainerScene

/-- What has been noted on all stages, and the container without it. -/
def takeNotices (s : ContainerScene) : List Notice × ContainerScene :=
  let taken := s.container.services.map Actor.takeNotices
  (taken.flatMap (·.1),
    { s with container := { s.container with services := taken.map (·.2) }, deeds := [] })

/-- The result of the first start, once it has returned. -/
def startResult? (s : ContainerScene) : Option (Except ContainerError Unit) :=
  match s.container.turns with
  | ⟨.start, .returned r⟩ :: _ => some r
  | _ => none

end ContainerScene

end LoadHarness.Rehearsal
