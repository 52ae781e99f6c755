import LoadHarness.Lifecycle.Container
import LoadHarness.Proofs.Run

/-!
# The steps of a container

A step of a container gives a call the lock, lets a call go on, or is the business of listeners or
of a service. The cases below say what each of them needs and what it leaves behind.
-/

namespace LoadHarness

variable {σ μ : Type} [Hosted σ μ]

/-- A call in this phase holds the lock. -/
def TurnPhase.isBusy : TurnPhase → Bool
  | queued => false
  | waiting => false
  | returned _ => false
  | _ => true

/-- The step is the business of listeners and of the dispatcher. -/
def ContainerMove.isHearing : ContainerMove σ μ → Bool
  | .listen => true
  | .dispatch => true
  | .deliver _ => true
  | _ => false

/-- What a factory answers if it is asked for a service in the step. -/
def ContainerMove.answer? : ContainerMove σ μ → Option (Except ServiceError σ)
  | .lock _ answer => some answer
  | _ => none

/-- A step that a container is made to take at an instant. -/
structure ContainerEvent (σ μ : Type) where
  now : Nat
  move : ContainerMove σ μ

namespace Container

/-- Call `t` calls service `i` and waits for it. -/
def advance (c : Container σ) (now t i : Nat) (kind : LifecycleCall) (phase : Nat → TurnPhase) :
    Container σ :=
  let (call, c', _) := c.callService now i kind
  c'.setPhase t (phase call)

/-- What call `t` does when it gets the lock, with what a factory answers if it asks one. -/
inductive Locks (plan : ContainerPlan σ) (c : Container σ) (now t : Nat)
    (answer : Except ServiceError σ) : ContainerCall → Container σ → Prop where
  | again (on : c.status = .started) : Locks plan c now t answer .start (c.finish t (.ok ()))
  | late (off : c.status = .stopped) (done : c.finished = true) :
      Locks plan c now t answer .start (c.finish t (.error .finished))
  | refused {e} (off : c.status = .stopped) (unfinished : c.finished = false)
      (other : e ≠ .finished)
      (reason : plan.settings.validate = .ok () →
        plan.registry.contains plan.settings.service = true → ∀ s, answer ≠ .ok s) :
      Locks plan c now t answer .start (c.finish t (.error e))
  | builds {s} (off : c.status = .stopped) (unfinished : c.finished = false)
      (valid : plan.settings.validate = .ok ())
      (known : plan.registry.contains plan.settings.service = true) (built : answer = .ok s) :
      Locks plan c now t answer .start
        (advance { c with holder := some t, services := c.services ++ [s] } now t c.services.length
          .create fun call => .creating c.services.length call)
  | idle (off : c.status = .stopped) : Locks plan c now t answer .stop (c.finish t (.ok ()))
  | closes (on : c.status = .started) (none : c.kept = []) : Locks plan c now t answer .stop (c.close t)
  | halts {i rest} (on : c.status = .started) (kept : c.kept = i :: rest) :
      Locks plan c now t answer .stop
        (advance { c with holder := some t } now t i .stop fun call =>
          .stopping i call (.halt rest))

/-- How call `t` goes on from where it waits. -/
inductive Goes (plan : ContainerPlan σ) (c : Container σ) (now t : Nat) :
    TurnPhase → Container σ → Prop where
  | created {i call} (good : c.result? i call = some (.ok ())) :
      Goes plan c now t (.creating i call) (c.advance now t i .start fun call => .starting i call)
  | uncreated {i call e} (bad : c.result? i call = some (.error e)) :
      Goes plan c now t (.creating i call)
        (c.advance now t i .stop fun call => .stopping i call (.undo e))
  | started {i call} (good : c.result? i call = some (.ok ())) :
      Goes plan c now t (.starting i call)
        { (c.publish .started).setPhase t .waiting with
          status := .started, kept := c.kept ++ [i], holder := none }
  | unstarted {i call e} (bad : c.result? i call = some (.error e)) :
      Goes plan c now t (.starting i call)
        (c.advance now t i .stop fun call => .stopping i call (.undo e))
  | stopped {i call why r} (done : c.result? i call = some r) :
      Goes plan c now t (.stopping i call why)
        (c.advance now t i .destroy fun call => .destroying i call why)
  | undone {i call e r} (done : c.result? i call = some r) :
      Goes plan c now t (.destroying i call (.undo e))
        (c.finish t (.error (.service plan.settings.service e)))
  | closes {i call r} (done : c.result? i call = some r) :
      Goes plan c now t (.destroying i call (.halt [])) (c.close t)
  | halts {i call j rest r} (done : c.result? i call = some r) :
      Goes plan c now t (.destroying i call (.halt (j :: rest)))
        (c.advance now t j .stop fun call => .stopping j call (.halt rest))
  | woken (word : c.shutdown = true) :
      Goes plan c now t .waiting (c.setPhase t (.returned (.ok ())))

/-- The steps that a container can take at an instant. -/
inductive Moves (plan : ContainerPlan σ) (c : Container σ) (now : Nat) :
    ContainerMove σ μ → Container σ → Prop where
  | asks {kind} : Moves plan c now (.ask kind) { c with turns := c.turns ++ [⟨kind, .queued⟩] }
  | locks {t answer kind c'} (free : c.holder = none)
      (asked : c.turns[t]? = some ⟨kind, .queued⟩)
      (locked : Locks plan c now t answer kind c') : Moves plan c now (.lock t answer) c'
  | goes {t turn c'} (here : c.turns[t]? = some turn) (goes : Goes plan c now t turn.phase c') :
      Moves plan c now (.proceed t) c'
  | tells {m listeners queue delivery} (own : m.isHearing = true) :
      Moves plan c now m { c with listeners := listeners, queue := queue, delivery := delivery }
  | serves {i m s s'} (here : c.services[i]? = some s) (stepped : Hosted.step s now m = some s') :
      Moves plan c now (.service i m) { c with services := c.services.set i s' }

/-- The container after an event; nothing when its step is not possible. -/
def after? (plan : ContainerPlan σ) (c : Container σ) (e : ContainerEvent σ μ) :
    Option (Container σ) :=
  (c.step plan e.now e.move).map (·.1)

/-- The container after several events. -/
def run (plan : ContainerPlan σ) (c : Container σ) (es : List (ContainerEvent σ μ)) :
    Option (Container σ) :=
  es.foldlM (after? plan) c

variable {plan : ContainerPlan σ} {c c' : Container σ} {now t : Nat}
  {answer : Except ServiceError σ}

/-- A start that gets the lock takes one of these steps. -/
theorem locks_of_beginStart {deeds : List Deed}
    (begun : { c with holder := some t }.beginStart plan now t answer = (c', deeds)) :
    Locks plan c now t answer .start c' := by
  unfold beginStart at begun
  dsimp only at begun
  split at begun
  · next on => cases begun; exact .again on
  · next off =>
    have off : c.status = .stopped := by
      cases here : c.status with
      | started => exact absurd here off
      | stopped => rfl
    split at begun
    · next done => cases begun; exact .late off done
    · next unfinished =>
      have unfinished := Bool.eq_false_iff.2 unfinished
      split at begun
      · next bad =>
        cases begun
        exact .refused off unfinished nofun fun valid => by cases bad.symm.trans valid
      · next valid =>
        split at begun
        · next unknown =>
          cases begun
          refine .refused off unfinished nofun fun _ known => ?_
          rw [known] at unknown
          cases unknown
        · next known =>
          have known : plan.registry.contains plan.settings.service = true := by simpa using known
          split at begun
          · cases begun
            exact .refused off unfinished nofun fun _ _ s built => by cases built
          · cases begun
            exact .builds off unfinished valid known rfl

/-- So does a stop. -/
theorem locks_of_beginStop {deeds : List Deed}
    (begun : { c with holder := some t }.beginStop now t = (c', deeds)) :
    Locks plan c now t answer .stop c' := by
  unfold beginStop at begun
  dsimp only at begun
  split at begun
  · next off => cases begun; exact .idle off
  · next on =>
    have on : c.status = .started := by
      cases here : c.status with
      | started => rfl
      | stopped => exact absurd here on
    split at begun
    · next none => cases begun; exact .closes on none
    · next i rest kept => cases begun; exact .halts on kept

/-- A turn that holds the lock goes on in one of these ways. -/
theorem goes_of_resume {phase : TurnPhase} {deeds : List Deed}
    (resumed : c.resume plan now t phase = some (c', deeds)) : Goes plan c now t phase c' := by
  unfold resume at resumed
  split at resumed
  · obtain ⟨r, result, made⟩ := Option.map_eq_some_iff.1 resumed
    split at made <;> cases made
    · exact .created result
    · exact .uncreated result
  · obtain ⟨r, result, made⟩ := Option.map_eq_some_iff.1 resumed
    split at made <;> cases made
    · exact .started result
    · exact .unstarted result
  · obtain ⟨r, result, made⟩ := Option.map_eq_some_iff.1 resumed
    cases made
    exact .stopped result
  · obtain ⟨r, result, made⟩ := Option.map_eq_some_iff.1 resumed
    split at made <;> cases made
    · exact .undone result
    · exact .closes result
    · exact .halts result
  · split at resumed <;> cases resumed
    next word => exact .woken word
  · cases resumed
  · cases resumed

/-- A container takes no other steps. -/
theorem moves_of_after {e : ContainerEvent σ μ} (made : c.after? plan e = some c') :
    Moves plan c e.now e.move c' := by
  obtain ⟨now, move⟩ := e
  obtain ⟨⟨c'', deeds⟩, stepped, rfl⟩ := Option.map_eq_some_iff.1 made
  unfold step at stepped
  dsimp only at stepped
  split at stepped
  · cases stepped; exact .asks
  · split at stepped
    · next kind free asked =>
      refine .locks free asked ?_
      cases kind with
      | start => exact locks_of_beginStart (Option.some.inj stepped)
      | stop => exact locks_of_beginStop (Option.some.inj stepped)
    · cases stepped
  · split at stepped
    · next here => exact .goes here (goes_of_resume stepped)
    · cases stepped
  · cases stepped; exact .tells rfl
  · split at stepped <;> cases stepped
    exact .tells rfl
  · split at stepped <;> cases stepped
    · exact .tells rfl
    · exact .tells rfl
  · obtain ⟨s', served, made⟩ := Option.map_eq_some_iff.1 stepped
    obtain ⟨s, here, own⟩ := Option.bind_eq_some_iff.1 served
    cases made
    exact .serves here own

end Container

end LoadHarness
