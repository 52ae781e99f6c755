import LoadHarness.Proofs.Container.Hosting
import LoadHarness.Proofs.Container.Turns

/-!
# What a container keeps

While the lock is free a container is off with all its services razed, on with one service up, or
closed with that service razed. While a call holds the lock, what it waits for says how far it has
taken which service. `Sound` says so, and every step of a container of pools keeps it.
-/

namespace LoadHarness

/-- What a container says of itself. -/
structure Front where
  status : ContainerStatus
  finished : Bool
  kept : List Nat
  shutdown : Bool

namespace Front

def off : Front := ⟨.stopped, false, [], false⟩

def on (i : Nat) : Front := ⟨.started, false, [i], false⟩

def closed (i : Nat) : Front := ⟨.stopped, true, [i], true⟩

end Front

namespace Container

open HostedPool

variable {σ μ κ : Type} [Hosted σ μ] [HostedPool σ κ]

def front (c : Container σ) : Front := ⟨c.status, c.finished, c.kept, c.shutdown⟩

/-- A container whose lock is free. -/
inductive Idle : Front → List σ → Prop where
  | off {services} (razed : ∀ s ∈ services, At .razed s) : Idle .off services
  | on {i services} (up : Apart services i .up) : Idle (.on i) services
  | closed {i services} (razed : Apart services i .razed) : Idle (.closed i) services

/-- A container whose lock is held, with the turn of the call that holds it. -/
inductive Busy : Front → List σ → Turn → Prop where
  | creating {i call services} (coming : Apart services i .comingUp) :
      Busy .off services ⟨.start, .creating i call⟩
  | starting {i call services} (started : Apart services i (.started call)) :
      Busy .off services ⟨.start, .starting i call⟩
  | undoing {i call e services} (razed : Apart services i .razed) :
      Busy .off services ⟨.start, .stopping i call (.undo e)⟩
  | undone {i call e services} (razed : Apart services i .razed) :
      Busy .off services ⟨.start, .destroying i call (.undo e)⟩
  | stopping {i call services} (up : Apart services i .up) :
      Busy (.on i) services ⟨.stop, .stopping i call (.halt [])⟩
  | destroying {i call services} (down : Apart services i (.goingDown call)) :
      Busy (.on i) services ⟨.stop, .destroying i call (.halt [])⟩

/-- Nobody is busy without the lock, and what the container says of itself fits its services. -/
structure Sound (c : Container σ) : Prop where
  alone : ∀ (u : Nat) turn, c.turns[u]? = some turn → turn.phase.isBusy = true → c.holder = some u
  stands : c.holder = none ∧ Idle c.front c.services ∨
    ∃ t turn, c.holder = some t ∧ c.turns[t]? = some turn ∧ Busy c.front c.services turn

variable {plan : ContainerPlan σ} {c c' : Container σ} {m : ContainerMove σ μ} {now t i : Nat}
  {turn : Turn} {kind : ContainerCall} {phase : TurnPhase} {f : Front} {services : List σ}
  {es : List (ContainerEvent σ μ)} {answer : Except ServiceError σ}

/-- A container that is at rest and stopped keeps no service. -/
theorem Idle.off_of (idle : Idle f services) (off : f.status = .stopped)
    (unfinished : f.finished = false) : f = .off ∧ ∀ s ∈ services, At .razed s := by
  cases idle with
  | off razed => exact ⟨rfl, razed⟩
  | on => cases off
  | closed => cases unfinished

/-- One that is at rest and started keeps exactly one. -/
theorem Idle.on_of (idle : Idle f services) (on : f.status = .started) :
    ∃ i, f = .on i ∧ Apart services i .up := by
  cases idle with
  | off => cases on
  | on up => exact ⟨_, rfl, up⟩
  | closed => cases on

/-- While nobody holds the lock the container is at rest. -/
theorem Sound.idle (h : c.Sound) (free : c.holder = none) : Idle c.front c.services := by
  rcases h.stands with ⟨-, idle⟩ | ⟨t, turn, held, -⟩
  · exact idle
  · cases free.symm.trans held

/-- A call that is busy holds the lock. -/
theorem Sound.busy (h : c.Sound) (here : c.turns[t]? = some turn)
    (works : turn.phase.isBusy = true) : c.holder = some t ∧ Busy c.front c.services turn := by
  have held := h.alone t turn here works
  rcases h.stands with ⟨free, -⟩ | ⟨t', turn', held', here', busy⟩
  · cases free.symm.trans held
  · cases held.symm.trans held'
    cases here.symm.trans here'
    exact ⟨held, busy⟩

/-- What a container says of itself while it is in order. -/
theorem Sound.front_cases (h : c.Sound) :
    c.front = .off ∨ (∃ i, c.front = .on i ∧ i < c.services.length) ∨
      c.holder = none ∧ ∃ i, c.front = .closed i ∧ Apart c.services i .razed := by
  rcases h.stands with ⟨free, idle⟩ | ⟨t, turn, -, -, busy⟩
  · generalize c.front = f at idle
    cases idle with
    | off => exact .inl rfl
    | on up => exact .inr (.inl ⟨_, rfl, up.lt⟩)
    | closed razed => exact .inr (.inr ⟨free, _, rfl, razed⟩)
  · generalize c.front = f at busy
    cases busy with
    | stopping up => exact .inr (.inl ⟨_, rfl, up.lt⟩)
    | destroying down => exact .inr (.inl ⟨_, rfl, down.lt⟩)
    | _ => exact .inl rfl

/-! ## A call that gets the lock or goes on -/

/-- Nobody but call `t` holds the lock. -/
def Leaves (c : Container σ) (t : Nat) : Prop := ∀ u, c.holder = some u → u = t

theorem leaves_of_free (free : c.holder = none) : c.Leaves t := by
  intro u held
  cases free.symm.trans held

theorem leaves_of_held (held : c.holder = some t) : c.Leaves t := by
  intro u held'
  cases held.symm.trans held'
  rfl

/-- A turn that moves on leaves nobody but the holder of the lock at work. -/
theorem Sound.alone_set (h : c.Sound) (leaves : c.Leaves t)
    (turns : c'.turns = (c.setPhase t phase).turns)
    (own : phase.isBusy = true → c'.holder = some t) (u : Nat) (turn : Turn)
    (here : c'.turns[u]? = some turn) (works : turn.phase.isBusy = true) : c'.holder = some u := by
  rw [turns] at here
  by_cases other : u = t
  · subst other
    rw [setPhase, List.getElem?_modify_eq] at here
    obtain ⟨turn', -, rfl⟩ := Option.map_eq_some_iff.1 here
    exact own works
  · rw [setPhase_elsewhere other] at here
    exact absurd (leaves u (h.alone u turn here works)) other

/-- Call `t` goes on without the lock. -/
theorem Sound.rests (h : c.Sound) (leaves : c.Leaves t)
    (turns : c'.turns = (c.setPhase t phase).turns) (quiet : phase.isBusy = false)
    (free : c'.holder = none) (idle : Idle c'.front c'.services) : c'.Sound :=
  ⟨h.alone_set leaves turns fun works => absurd (quiet.symm.trans works) nofun, .inl ⟨free, idle⟩⟩

/-- Call `t` goes on with the lock. -/
theorem Sound.works (h : c.Sound) (leaves : c.Leaves t) (here : c.turns[t]? = some turn)
    (turns : c'.turns = (c.setPhase t phase).turns) (held : c'.holder = some t)
    (busy : Busy c'.front c'.services ⟨turn.kind, phase⟩) : c'.Sound := by
  refine ⟨h.alone_set leaves turns fun _ => held, .inr ⟨t, _, held, ?_, busy⟩⟩
  rw [turns, setPhase_here here]

/-- The step that takes the lock keeps the container sound. -/
theorem Sound.locks (h : c.Sound)
    (builds : c.finished = false → ∀ s, answer = .ok s → pool s = .fresh (HostedPool.plan s))
    (free : c.holder = none) (asked : c.turns[t]? = some ⟨kind, .queued⟩) (locked : Locks plan c now t answer kind c') :
    c'.Sound := by
  have idle := h.idle free
  have leaves : c.Leaves t := leaves_of_free free
  cases locked with
  | again | late | refused | idle => exact h.rests leaves rfl rfl rfl idle
  | @builds s off unfinished _ _ built =>
    obtain ⟨front, razed⟩ := idle.off_of off unfinished
    rw [advance_eq List.getElem?_concat_length]
    refine h.works leaves asked rfl rfl ?_
    have whole : (c.services ++ [s]).set c.services.length (Hosted.call s now .create).2 =
        c.services ++ [(Hosted.call s now .create).2] := by simp
    show Busy c.front ((c.services ++ [s]).set c.services.length _) _
    rw [front, whole]
    exact .creating (apart_of_built razed (at_of_create (builds unfinished s built) now))
  | closes on none =>
    obtain ⟨i, front, -⟩ := idle.on_of on
    cases none.symm.trans (congrArg Front.kept front)
  | @halts i rest on kept =>
    obtain ⟨j, front, up⟩ := idle.on_of on
    cases kept.symm.trans (congrArg Front.kept front)
    obtain ⟨s, there, at_up⟩ := up.here
    have there' : { c with holder := some t }.services[i]? = some s := there
    rw [advance_eq there']
    refine h.works leaves asked rfl rfl ?_
    show Busy c.front (c.services.set i _) _
    rw [front]
    exact .stopping (up.set (at_up.stopped now))

/-- Call `t` goes on with the lock and makes a call of service `i`, which takes it to the stage that
the call's new phase stands for. -/
theorem Sound.advances {x : Stage} (h : c.Sound) (held : c.holder = some t)
    (here : c.turns[t]? = some turn) (apart : Apart c.services i x) {call : LifecycleCall}
    {next : Nat → TurnPhase} (y : Nat → Stage)
    (taken : ∀ s, c.services[i]? = some s → At x s →
      At (y (Hosted.call s now call).1) (Hosted.call s now call).2)
    (busy : ∀ (n : Nat) (services : List σ), Apart services i (y n) →
      Busy c.front services ⟨turn.kind, next n⟩) :
    (c.advance now t i call next).Sound := by
  obtain ⟨s, there, at_x⟩ := apart.here
  rw [advance_eq there]
  refine h.works (leaves_of_held held) here rfl held ?_
  exact busy _ _ (apart.set (taken s there at_x))

/-- So does every step under it. -/
theorem Sound.goes (h : c.Sound) (here : c.turns[t]? = some turn)
    (goes : Goes plan c now t turn.phase c') : c'.Sound := by
  obtain ⟨kind, phase⟩ := turn
  -- a busy call holds the lock, so its phase picks the case of `Busy` and with it the stage
  cases goes with
  | @created i call good =>
    obtain ⟨held, busy⟩ := h.busy here rfl
    generalize front : c.front = f at busy
    cases busy with
    | creating coming =>
      refine h.advances held here coming .started (fun s there at_coming => ?_) ?_
      · rw [result?_of there] at good
        exact at_coming.created good now
      · exact front ▸ fun n services => .starting
  | @uncreated i call e bad =>
    obtain ⟨held, busy⟩ := h.busy here rfl
    generalize front : c.front = f at busy
    cases busy with
    | creating coming =>
      refine h.advances held here coming (fun _ => .razed) (fun s there at_coming => ?_) ?_
      · rw [result?_of there] at bad
        exact (at_coming.uncreated bad).still_razed now .stop nofun
      · exact front ▸ fun n services => .undoing
  | @started i call good =>
    obtain ⟨held, busy⟩ := h.busy here rfl
    generalize front : c.front = f at busy
    cases busy with
    | starting started =>
      refine h.rests (leaves_of_held held) rfl rfl rfl ?_
      have unfinished : c.finished = false := congrArg Front.finished front
      have kept : c.kept = [] := congrArg Front.kept front
      have silent : c.shutdown = false := congrArg Front.shutdown front
      show Idle ⟨.started, c.finished, c.kept ++ [i], c.shutdown⟩ c.services
      rw [unfinished, kept, silent]
      exact .on (started.mono fun _ => At.up)
  | unstarted bad =>
    obtain ⟨-, busy⟩ := h.busy here rfl
    generalize c.front = f at busy
    cases busy with
    | starting started =>
      obtain ⟨s, there, at_started⟩ := started.here
      rw [result?_of there] at bad
      exact absurd bad at_started.not_unstarted
  | stopped =>
    obtain ⟨held, busy⟩ := h.busy here rfl
    generalize front : c.front = f at busy
    cases busy with
    | undoing razed =>
      refine h.advances held here razed (fun _ => .razed) (fun s _ at_razed => ?_) ?_
      · exact at_razed.still_razed now .destroy nofun
      · exact front ▸ fun n services => .undone
    | stopping up =>
      refine h.advances held here up .goingDown (fun s _ at_up => at_up.destroyed now) ?_
      exact front ▸ fun n services => .destroying
  | undone =>
    obtain ⟨held, busy⟩ := h.busy here rfl
    generalize front : c.front = f at busy
    cases busy with
    | undone razed =>
      refine h.rests (leaves_of_held held) rfl rfl rfl ?_
      show Idle c.front c.services
      rw [front]
      exact .off razed.all_razed
  | @closes i call r done =>
    obtain ⟨held, busy⟩ := h.busy here rfl
    generalize front : c.front = f at busy
    cases busy with
    | destroying down =>
      refine h.rests (leaves_of_held held) rfl rfl rfl ?_
      obtain ⟨s, there, at_down⟩ := down.here
      rw [result?_of there] at done
      have kept : c.kept = [i] := congrArg Front.kept front
      show Idle ⟨.stopped, true, c.kept, true⟩ c.services
      rw [kept]
      exact .closed ⟨⟨s, there, at_down.gone done⟩, down.others⟩
  | halts =>
    -- no more than one service is ever kept, so none is left to halt
    obtain ⟨-, busy⟩ := h.busy here rfl
    generalize c.front = f at busy
    cases busy
  | woken word =>
    obtain off | ⟨i, on, -⟩ | ⟨free, i, closed, razed⟩ := h.front_cases
    · cases word.symm.trans (congrArg Front.shutdown off)
    · cases word.symm.trans (congrArg Front.shutdown on)
    · refine h.rests (leaves_of_free free) rfl rfl free ?_
      show Idle c.front c.services
      rw [closed]
      exact .closed razed

/-! ## All steps -/

/-- What services do on their own disturbs no container at rest. -/
theorem Idle.serves {j : Nat} {s s' : σ} {m : μ} (idle : Idle f services)
    (there : services[j]? = some s) (stepped : Hosted.step s now m = some s') :
    Idle f (services.set j s') := by
  cases idle with
  | off razed =>
    refine .off fun s₁ member => ?_
    rcases List.mem_or_eq_of_mem_set member with old | rfl
    · exact razed s₁ old
    · exact (razed s (List.mem_of_getElem? there)).step stepped
  | on up => exact .on (up.serves there stepped)
  | closed razed => exact .closed (razed.serves there stepped)

/-- Nor one that is at work. -/
theorem Busy.serves {j : Nat} {s s' : σ} {m : μ} (busy : Busy f services turn)
    (there : services[j]? = some s) (stepped : Hosted.step s now m = some s') :
    Busy f (services.set j s') turn := by
  cases busy with
  | creating coming => exact .creating (coming.serves there stepped)
  | starting started => exact .starting (started.serves there stepped)
  | undoing razed => exact .undoing (razed.serves there stepped)
  | undone razed => exact .undone (razed.serves there stepped)
  | stopping up => exact .stopping (up.serves there stepped)
  | destroying down => exact .destroying (down.serves there stepped)

/-- The step: whatever happens next, the container stays in order. Once it is finished, it does not
matter what factories would answer. -/
theorem Sound.step (h : c.Sound) (builds : c.finished = false → Builds m) (moved : Moves plan c now m c') :
    c'.Sound := by
  cases moved with
  | @asks kind =>
    refine ⟨fun u turn here works => ?_, h.stands.imp_right ?_⟩
    · by_cases within : u < c.turns.length
      · rw [List.getElem?_append_left within] at here
        exact h.alone u turn here works
      · rw [List.getElem?_append_right (Nat.le_of_not_lt within)] at here
        cases List.mem_singleton.1 (List.mem_of_getElem? here)
        cases works
    · rintro ⟨t, turn, held, here, busy⟩
      refine ⟨t, turn, held, ?_, busy⟩
      rw [List.getElem?_append_left (List.getElem?_eq_some_iff.1 here).1]
      exact here
  | locks free asked locked =>
    exact h.locks (fun unfinished s built => builds unfinished s (congrArg some built)) free asked
      locked
  | goes here goes => exact h.goes here goes
  | tells => exact ⟨h.alone, h.stands⟩
  | serves there stepped =>
    refine ⟨h.alone, h.stands.imp (And.imp_right fun idle => idle.serves there stepped) ?_⟩
    rintro ⟨t, turn, held, here, busy⟩
    exact ⟨t, turn, held, here, busy.serves there stepped⟩

theorem sound_fresh : (fresh : Container σ).Sound :=
  ⟨fun _ _ here => absurd here nofun,
    .inl ⟨rfl, .off fun _ member => absurd member List.not_mem_nil⟩⟩

/-- The run: a container is in order after every schedule. -/
theorem sound_of_run (builds : ∀ e ∈ es, Builds e.move) (ran : run plan fresh es = some c) :
    c.Sound :=
  foldlM_induction_of builds (fun _ c => c.Sound) sound_fresh
    (fun _ h builds made => h.step (fun _ => builds) (moves_of_after made)) ran

end Container

end LoadHarness
