import LoadHarness.Proofs.Container.Keeping

/-!
# The life of a container

A container of worker pools runs one pool at a time and runs once. A start that fails leaves nothing
behind and the next one may do better; a start that has waited returns when a stop has taken
everything down. `runs_once` says so for all schedules of starts, stops and workers.
-/

namespace LoadHarness.Container

open HostedPool

variable {σ μ κ : Type} [Hosted σ μ] {plan : ContainerPlan σ} {c c' d : Container σ}
  {m : ContainerMove σ μ} {now t u i : Nat} {turn : Turn} {kind : ContainerCall} {phase : TurnPhase}
  {es fs : List (ContainerEvent σ μ)} {answer : Except ServiceError σ}

/-! ## Starts that fail -/

/-- A call that returns an error with the lock just got has changed nothing else. -/
theorem error_of_locks {e : ContainerError} (locked : Locks plan c now t answer kind c')
    (asked : c.turns[t]? = some ⟨kind, .queued⟩)
    (returned : c'.turns[t]? = some ⟨kind, .returned (.error e)⟩) (other : e ≠ .finished) :
    c.status = .stopped ∧ c.finished = false ∧ c' = c.finish t (.error e) := by
  cases locked with
  | refused off unfinished =>
    cases (setPhase_here asked _).symm.trans returned
    exact ⟨off, unfinished, rfl⟩
  | late =>
    cases (setPhase_here asked _).symm.trans returned
    exact absurd rfl other
  | @builds s =>
    obtain ⟨n, same⟩ := phase_of_advance
      (c := { c with holder := some t, services := c.services ++ [s] }) asked returned
    cases same
  | halts =>
    obtain ⟨n, same⟩ := phase_of_advance (c := { c with holder := some t }) asked returned
    cases same
  | _ => cases (setPhase_here asked _).symm.trans returned

/-- A call that returns an error after it has waited has undone what it did. -/
theorem error_of_goes {e : ContainerError} (goes : Goes plan c now t phase c')
    (was : c.turns[t]? = some ⟨kind, phase⟩)
    (returned : c'.turns[t]? = some ⟨kind, .returned (.error e)⟩) :
    (∃ i call why, phase = .destroying i call (.undo why)) ∧ c' = c.finish t (.error e) := by
  cases goes with
  | undone =>
    cases (setPhase_here was _).symm.trans returned
    exact ⟨⟨_, _, _, rfl⟩, rfl⟩
  | created | uncreated | unstarted | stopped | halts =>
    obtain ⟨n, same⟩ := phase_of_advance was returned
    cases same
  | _ => cases (setPhase_here was _).symm.trans returned

/-! ## Starts that may succeed -/

/-- What a start does first under the lock. -/
theorem after_lock (free : c.holder = none) (asked : c.turns[t]? = some ⟨.start, .queued⟩)
    (now : Nat) (answer : Except ServiceError σ) :
    c.after? plan ⟨now, .lock t answer⟩ =
      some ({ c with holder := some t }.beginStart plan now t answer).1 := by
  simp only [after?, step, free, asked]
  rfl

/-- A start of a container that is off has the service created that a factory builds. -/
theorem starts_building (free : c.holder = none)
    (asked : c.turns[t]? = some ⟨.start, .queued⟩) (off : c.status = .stopped)
    (unfinished : c.finished = false) (valid : plan.settings.validate = .ok ())
    (known : plan.registry.contains plan.settings.service = true) (s : σ) (now : Nat) :
    ∃ c', c.after? plan ⟨now, .lock t (.ok s)⟩ = some c' ∧
      c'.turns[t]? = some ⟨.start, .creating c.services.length (Hosted.call s now .create).1⟩ ∧
      c'.services[c.services.length]? = some (Hosted.call s now .create).2 := by
  have begun : ({ c with holder := some t }.beginStart plan now t (.ok s)).1 =
      advance { c with holder := some t, services := c.services ++ [s] } now t c.services.length
        .create fun call => .creating c.services.length call := by
    simp only [beginStart, off, unfinished, valid, known, reduceCtorEq, if_false,
      Bool.false_eq_true, Bool.not_true]
    rfl
  rw [after_lock free asked, begun, advance_eq List.getElem?_concat_length]
  exact ⟨_, rfl, setPhase_here asked _, by simp⟩

/-- A service can take any step of its own inside the container. -/
theorem service_steps (plan : ContainerPlan σ) {m : μ} {s s' : σ} (there : c.services[i]? = some s)
    (stepped : Hosted.step s now m = some s') :
    ∃ c', c.after? plan ⟨now, .service i m⟩ = some c' ∧ c'.turns = c.turns ∧
      c'.services[i]? = some s' := by
  have made : c.after? plan ⟨now, .service i m⟩ =
      some { c with services := c.services.set i s' } := by
    simp only [after?, step, there, Option.bind_some, stepped, Option.map_some]
  exact ⟨_, made, rfl, List.getElem?_set_self (List.getElem?_eq_some_iff.1 there).1⟩

/-- A call that waits for a service has it started once it is created. -/
theorem starts_service (plan : ContainerPlan σ) {s : σ} {call : Nat}
    (here : c.turns[t]? = some ⟨.start, .creating i call⟩) (there : c.services[i]? = some s)
    (good : Hosted.result? s call = some (.ok ())) (now : Nat) :
    ∃ c', c.after? plan ⟨now, .proceed t⟩ = some c' ∧
      c'.turns[t]? = some ⟨.start, .starting i (Hosted.call s now .start).1⟩ ∧
      c'.services[i]? = some (Hosted.call s now .start).2 := by
  have made : c.after? plan ⟨now, .proceed t⟩ =
      some (c.advance now t i .start fun call => .starting i call) := by
    simp only [after?, step, here, resume, result?_of there, good, Option.map_some]
    rfl
  rw [made, advance_eq there]
  exact ⟨_, rfl, setPhase_here here _, List.getElem?_set_self (List.getElem?_eq_some_iff.1 there).1⟩

/-- It waits for the stop once the service has started. -/
theorem starts_waiting (plan : ContainerPlan σ) {s : σ} {call : Nat}
    (here : c.turns[t]? = some ⟨.start, .starting i call⟩) (there : c.services[i]? = some s)
    (good : Hosted.result? s call = some (.ok ())) (now : Nat) :
    ∃ c', c.after? plan ⟨now, .proceed t⟩ = some c' ∧ c'.status = .started ∧
      c'.turns[t]? = some ⟨.start, .waiting⟩ := by
  have made : c.after? plan ⟨now, .proceed t⟩ =
      some { (c.publish .started).setPhase t .waiting with
        status := .started, kept := c.kept ++ [i], holder := none } := by
    simp only [after?, step, here, resume, result?_of there, good, Option.map_some]
  exact ⟨_, made, rfl, setPhase_here here _⟩

/-- Whoever asks a factory in this step gets this answer. -/
def Answers (answer : Except ServiceError σ) (m : ContainerMove σ μ) : Prop :=
  ∀ a, m.answer? = some a → a = answer

/-- The start can bring its service up if factories give this answer from now on. -/
def MayComeUp (plan : ContainerPlan σ) (c : Container σ) (answer : Except ServiceError σ)
    (u : Nat) : Prop :=
  ∃ fs d, (∀ e ∈ fs, Answers answer e.move) ∧ run plan c fs = some d ∧ d.status = .started ∧
    d.turns[u]? = some ⟨.start, .waiting⟩

theorem mayComeUp_of_up (plan : ContainerPlan σ) (answer : Except ServiceError σ)
    (on : c.status = .started) (waiting : c.turns[u]? = some ⟨.start, .waiting⟩) :
    c.MayComeUp plan answer u :=
  ⟨[], c, nofun, rfl, on, waiting⟩

/-- What may come up after a step may come up before it. -/
theorem MayComeUp.after {e : ContainerEvent σ μ} (h : c'.MayComeUp plan answer u)
    (made : c.after? plan e = some c') (answers : Answers answer e.move) :
    c.MayComeUp plan answer u := by
  obtain ⟨fs, d, all, ran, on, waiting⟩ := h
  refine ⟨e :: fs, d, List.forall_mem_cons.2 ⟨answers, all⟩, ?_, on, waiting⟩
  rw [run, List.foldlM_cons, made]
  exact ran

/-- A start whose service has been created has one step to go. -/
theorem mayComeUp_of_starting (plan : ContainerPlan σ) (answer : Except ServiceError σ) {s : σ}
    {call : Nat} (here : c.turns[u]? = some ⟨.start, .starting i call⟩)
    (there : c.services[i]? = some s) (good : Hosted.result? s call = some (.ok ())) (now : Nat) :
    c.MayComeUp plan answer u := by
  obtain ⟨d, came, on, waiting⟩ := starts_waiting plan here there good now
  exact (mayComeUp_of_up plan answer on waiting).after came nofun

variable [HostedPool σ κ]

/-- A service that has been created starts at once. -/
theorem mayComeUp_of_created (plan : ContainerPlan σ) (answer : Except ServiceError σ) {s : σ}
    {call : Nat} (here : c.turns[u]? = some ⟨.start, .creating i call⟩)
    (there : c.services[i]? = some s) (coming : At .comingUp s)
    (good : Hosted.result? s call = some (.ok ())) (now : Nat) : c.MayComeUp plan answer u := by
  obtain ⟨c', went, starting, there'⟩ := starts_service plan here there good now
  have started := (result?_eq _ _).trans (coming.created good now).2
  exact (mayComeUp_of_starting plan answer starting there' started now).after went nofun

/-- A start that is asked for can succeed if a factory answers it with this service. -/
def MayStart (plan : ContainerPlan σ) (c : Container σ) (s : σ) : Prop :=
  ∀ now, ∃ es d, (∀ e ∈ es, Answers (.ok s) e.move) ∧
    run plan c (⟨now, .ask .start⟩ :: es) = some d ∧ d.status = .started ∧
    d.turns[c.turns.length]? = some ⟨.start, .waiting⟩

/-- A container that is off may start with any new service that has workers. -/
theorem mayStart_of_off {s : σ} (fresh : pool s = .fresh (HostedPool.plan s))
    (free : c.holder = none) (off : c.status = .stopped) (unfinished : c.finished = false)
    (valid : plan.settings.validate = .ok ())
    (known : plan.registry.contains plan.settings.service = true)
    (threads : 0 < (HostedPool.plan s).threads) : c.MayStart plan s := by
  intro now
  obtain ⟨c₁, locked, creating, there₁⟩ := starts_building
    (c := { c with turns := c.turns ++ [⟨.start, .queued⟩] }) free List.getElem?_concat_length off
    unfinished valid known s now
  -- the service prepares itself, which it may do without an error
  have coming := at_of_create fresh now
  obtain ⟨p, prepared, good⟩ :=
    Pool.prepared_of_create fresh threads (called s now .create) now
  rw [← call_plan s now .create] at prepared
  obtain ⟨m, s₁, stepped, rfl⟩ := prepares prepared
  rw [← result?_eq] at good
  have number : (Hosted.call s now .create).1 = 0 := by
    rw [HostedPool.number, fresh]
    rfl
  obtain ⟨c₂, served, same, there₂⟩ := service_steps plan there₁ stepped
  rw [number, ← same] at creating
  -- the start of a created pool succeeds at once
  have may := mayComeUp_of_created plan (.ok s) creating there₂ (coming.step stepped) good now
  obtain ⟨es, d, all, ran, on, waiting⟩ := (may.after served nofun).after locked fun _ same => (Option.some.inj same).symm
  refine ⟨es, d, all, ?_, on, waiting⟩
  have asked : c.after? plan ⟨now, .ask .start⟩ =
      some { c with turns := c.turns ++ [⟨.start, .queued⟩] } := rfl
  rw [run, List.foldlM_cons, asked]
  exact ran

/-! ## The end -/

/-- Only a stop finishes a container. -/
theorem Sound.finishes (h : c.Sound) (moved : Moves plan c now m c') :
    c'.finished = c.finished ∨
      c'.finished = true ∧ ∃ u : Nat, c'.turns[u]? = some ⟨.stop, .returned (.ok ())⟩ := by
  cases moved with
  | asks | tells | serves => exact .inl rfl
  | locks free asked locked =>
    cases locked with
    | closes => exact .inr ⟨rfl, _, setPhase_here asked _⟩
    | builds | halts => exact .inl (advance_finished _ _ _ _ _ _)
    | _ => exact .inl rfl
  | @goes t turn _ here goes =>
    obtain ⟨kind, phase⟩ := turn
    cases goes with
    | closes =>
      obtain ⟨-, busy⟩ := h.busy here rfl
      generalize c.front = f at busy
      cases busy with
      | destroying => exact .inr ⟨rfl, t, setPhase_here here _⟩
    | created | uncreated | unstarted | stopped | halts =>
      exact .inl (advance_finished _ _ _ _ _ _)
    | _ => exact .inl rfl

/-- A finished container has been stopped. -/
theorem stopped_of_run (builds : ∀ e ∈ es, Builds e.move) (ran : run plan fresh es = some c)
    (finished : c.finished = true) :
    ∃ u : Nat, c.turns[u]? = some ⟨.stop, .returned (.ok ())⟩ := by
  suffices all : c.Sound ∧ (c.finished = true →
      ∃ u : Nat, c.turns[u]? = some ⟨.stop, .returned (.ok ())⟩) from all.2 finished
  refine foldlM_induction_of builds (fun _ c => c.Sound ∧ (c.finished = true →
    ∃ u : Nat, c.turns[u]? = some ⟨.stop, .returned (.ok ())⟩))
    ⟨sound_fresh, fun ended => by cases ended⟩ ?_ ran
  rintro - c e c' - ⟨h, ih⟩ builds made
  have moved := moves_of_after made
  refine ⟨h.step (fun _ => builds) moved, fun ended => ?_⟩
  rcases h.finishes moved with same | ⟨-, stopped⟩
  · obtain ⟨u, returned⟩ := ih (same.symm.trans ended)
    exact ⟨u, returned_kept moved returned⟩
  · exact stopped

/-- It is over with a finished container. -/
theorem Sound.closed (h : c.Sound) (ended : c.finished = true ∨ c.shutdown = true) :
    c.holder = none ∧ ∃ i, c.front = .closed i ∧ Apart c.services i .razed := by
  obtain off | ⟨i, on, -⟩ | closed := h.front_cases
  · have unfinished : c.finished = false := congrArg Front.finished off
    have silent : c.shutdown = false := congrArg Front.shutdown off
    simp [unfinished, silent] at ended
  · have unfinished : c.finished = false := congrArg Front.finished on
    have silent : c.shutdown = false := congrArg Front.shutdown on
    simp [unfinished, silent] at ended
  · exact closed

/-- The start has not got the lock yet, or has not been asked for. -/
def Later (c : Container σ) (u : Nat) : Prop :=
  ∀ turn, c.turns[u]? = some turn → turn.phase = .queued

/-- A start that gets the lock of a finished container returns at once. -/
theorem starts_too_late (free : c.holder = none) (asked : c.turns[u]? = some ⟨.start, .queued⟩)
    (stopped : c.status = .stopped) (finished : c.finished = true) (now : Nat)
    (answer : Except ServiceError σ) :
    ∃ c', c.after? plan ⟨now, .lock u answer⟩ = some c' ∧
      c'.turns[u]? = some ⟨.start, .returned (.error .finished)⟩ := by
  have off : ¬ c.status = .started := by
    rw [stopped]
    nofun
  have begun : ({ c with holder := some u }.beginStart plan now u answer).1 =
      c.finish u (.error .finished) := by
    unfold beginStart
    dsimp only
    rw [if_neg off, if_pos finished]
    rfl
  rw [after_lock free asked, begun]
  exact ⟨_, rfl, setPhase_here asked _⟩

/-- The step: a start of a finished container waits for the lock and returns an error with it. -/
theorem late_start (closed : c.status = .stopped ∧ c.finished = true)
    (moved : Moves plan c now m c')
    (late : ∀ phase, c.turns[u]? = some ⟨.start, phase⟩ →
      phase = .queued ∨ phase = .returned (.error .finished))
    (here : c'.turns[u]? = some ⟨.start, phase⟩) :
    phase = .queued ∨ phase = .returned (.error .finished) := by
  cases turnStep_of_moves moved here with
  | kept same => exact late _ same
  | asked _ queued => exact .inl queued
  | locked _ _ was locks =>
    cases locks with
    | again on => cases closed.1.symm.trans on
    | late =>
      cases (setPhase_here was _).symm.trans here
      exact .inr rfl
    | refused _ unfinished => cases closed.2.symm.trans unfinished
    | builds _ unfinished => cases closed.2.symm.trans unfinished
  | went was goes =>
    rcases late _ was with rfl | rfl
    · cases goes
    · cases goes

/-! ## The whole life -/

/-- A service's pool is destroyed, and its workers have finished for ever. -/
structure Gone (s : σ) : Prop where
  destroyed : (pool s).status = .destroyed
  drained : Pool.Drained (HostedPool.plan s) (pool s)

/-- The container is as it was at first, but for services that are gone. -/
structure Off (plan : ContainerPlan σ) (c : Container σ) : Prop where
  stopped : c.status = .stopped
  unfinished : c.finished = false
  none_kept : c.kept = []
  gone : ∀ s ∈ c.services, Gone s
  again : plan.settings.validate = .ok () →
    plan.registry.contains plan.settings.service = true →
    ∀ s, pool s = .fresh (HostedPool.plan s) → 0 < (HostedPool.plan s).threads → c.MayStart plan s

/-- A stop has ended the container's only run, and its services are gone. -/
structure Closed (c : Container σ) : Prop where
  stopped : c.status = .stopped
  finished : c.finished = true
  by_stop : ∃ u : Nat, c.turns[u]? = some ⟨.stop, .returned (.ok ())⟩
  one_kept : ∃ (i : Nat) (s : σ), c.kept = [i] ∧ c.services[i]? = some s
  gone : ∀ s ∈ c.services, Gone s

theorem gone_of_razed {s : σ} (razed : At .razed s) : Gone s :=
  ⟨Pool.Razed.destroyed razed, Pool.Razed.drained razed⟩

/-- A start that fails leaves the container as it was without a service. -/
theorem off_of_failed {why : ContainerError} (h : c.Sound) (moved : Moves plan c now m c')
    (returned : c'.turns[u]? = some ⟨.start, .returned (.error why)⟩)
    (new : c.turns[u]? ≠ c'.turns[u]?) (other : why ≠ .finished) : c'.Off plan := by
  have left : c.front = .off ∧ (∀ s ∈ c.services, At .razed s) ∧
      c' = c.finish u (.error why) := by
    cases turnStep_of_moves moved returned with
    | kept same => exact absurd (same.trans returned.symm) new
    | asked _ queued => cases queued
    | locked _ free was locks =>
      obtain ⟨off, unfinished, rfl⟩ := error_of_locks locks was returned other
      obtain ⟨front, razed⟩ := (h.idle free).off_of off unfinished
      exact ⟨front, razed, rfl⟩
    | went was goes =>
      obtain ⟨⟨i, call, why, rfl⟩, rfl⟩ := error_of_goes goes was returned
      obtain ⟨-, busy⟩ := h.busy was rfl
      generalize c.front = f at busy
      cases busy with
      | undone razed => exact ⟨rfl, razed.all_razed, rfl⟩
  obtain ⟨front, razed, rfl⟩ := left
  have off : c.status = .stopped := congrArg Front.status front
  have unfinished : c.finished = false := congrArg Front.finished front
  exact ⟨off, unfinished, congrArg Front.kept front, fun s member => gone_of_razed (razed s member),
    fun valid known s fresh => mayStart_of_off fresh rfl off unfinished valid known⟩

/-- Whoever waits for the end is woken by it, with everything taken down. -/
theorem closed_of_woken {r : Except ContainerError Unit} (h : c.Sound)
    (moved : Moves plan c now m c')
    (waiting : c.turns[u]? = some ⟨kind, .waiting⟩)
    (returned : c'.turns[u]? = some ⟨kind, .returned r⟩) :
    r = .ok () ∧ c.finished = true ∧
      ∃ i, c'.front = .closed i ∧ Apart c'.services i .razed := by
  cases turnStep_of_moves moved returned with
  | kept same => cases waiting.symm.trans same
  | asked new => cases waiting.symm.trans new
  | locked _ _ was => cases waiting.symm.trans was
  | went was goes =>
    cases waiting.symm.trans was
    cases goes with
    | woken word =>
      cases (setPhase_here waiting _).symm.trans returned
      obtain ⟨-, i, front, razed⟩ := h.closed (.inr word)
      exact ⟨rfl, congrArg Front.finished front, i, front, razed⟩

/-- The run: so it stays, for all starts that come too late. -/
theorem late_starts (h : c.Sound) (ended : c.finished = true)
    (ran : run plan c fs = some d) : d.Sound ∧ d.finished = true ∧
      ∀ (u : Nat) phase, c.Later u → d.turns[u]? = some ⟨.start, phase⟩ →
        phase = .queued ∨ phase = .returned (.error .finished) := by
  refine foldlM_induction (fun _ d => d.Sound ∧ d.finished = true ∧
    ∀ (u : Nat) phase, c.Later u → d.turns[u]? = some ⟨.start, phase⟩ →
      phase = .queued ∨ phase = .returned (.error .finished))
    ⟨h, ended, fun u phase later here => .inl (later _ here)⟩ ?_ ran
  rintro - d e d' - ⟨sound, finished, late⟩ made
  have moved := moves_of_after made
  have done : d.finished = false → Builds e.move := fun unfinished => by
    cases finished.symm.trans unfinished
  refine ⟨sound.step done moved, ?_, fun u phase later here => ?_⟩
  · rcases sound.finishes moved with same | ⟨finished', -⟩
    · exact same.trans finished
    · exact finished'
  · obtain ⟨-, i, front, -⟩ := sound.closed (.inl finished)
    exact late_start ⟨congrArg Front.status front, finished⟩ moved (fun phase => late u phase later)
      here

/-- **A container runs once.** Whatever factories answer, be it an error or a new pool, whatever the
settings, and however starts, stops and workers take turns: a container that is started keeps one
service and is not finished. One that is finished stays stopped, and every start that gets the lock
from then on returns that error at once. A start that fails otherwise leaves the container off, with
every pool that was built destroyed and without workers, and another start may succeed, whatever its
factory said before. A start that has waited returns no error, and only when a stop has taken
everything down. -/
theorem runs_once (plan : ContainerPlan σ) {es : List (ContainerEvent σ μ)}
    (builds : ∀ e ∈ es, Builds e.move) {c : Container σ} (ran : run plan fresh es = some c) :
    (c.status = .started → c.finished = false ∧ ∃ i, c.kept = [i] ∧ i < c.services.length) ∧
    (c.finished = true → ∀ fs d, run plan c fs = some d → d.status = .stopped ∧ d.finished = true ∧
      ∀ (u : Nat) phase, c.Later u → d.turns[u]? = some ⟨.start, phase⟩ →
        phase = .returned (.error .finished) ∨
        phase = .queued ∧ ∀ now answer, ∃ d', d.after? plan ⟨now, .lock u answer⟩ = some d' ∧
          d'.turns[u]? = some ⟨.start, .returned (.error .finished)⟩) ∧
    (∀ e c' (u : Nat) why, c.after? plan e = some c' →
      c'.turns[u]? = some ⟨.start, .returned (.error why)⟩ → c.turns[u]? ≠ c'.turns[u]? →
      why ≠ .finished → c'.Off plan) ∧
    (∀ e c' (u : Nat) kind r, c.after? plan e = some c' → c.turns[u]? = some ⟨kind, .waiting⟩ →
      c'.turns[u]? = some ⟨kind, .returned r⟩ → r = .ok () ∧ c'.Closed) := by
  have h : c.Sound := sound_of_run builds ran
  refine ⟨fun on => ?_, fun ended fs d later => ?_, fun e c' u why made returned new other => ?_,
    fun e c' u kind r made waiting returned => ?_⟩
  · obtain off | ⟨i, front, within⟩ | ⟨-, i, closed, -⟩ := h.front_cases
    · cases on.symm.trans (congrArg Front.status off)
    · exact ⟨congrArg Front.finished front, i, congrArg Front.kept front, within⟩
    · cases on.symm.trans (congrArg Front.status closed)
  · obtain ⟨sound, finished, late⟩ := late_starts h ended later
    obtain ⟨free, i, front, -⟩ := sound.closed (.inl finished)
    have stopped : d.status = .stopped := congrArg Front.status front
    refine ⟨stopped, finished, fun u phase waits here => ?_⟩
    refine (late u phase waits here).symm.imp_right ?_
    rintro rfl
    exact ⟨rfl, starts_too_late free here stopped finished⟩
  · exact off_of_failed h (moves_of_after made) returned new other
  · have moved := moves_of_after made
    obtain ⟨rfl, finished, i, front, razed⟩ := closed_of_woken h moved waiting returned
    obtain ⟨s, here, -⟩ := razed.here
    obtain ⟨u, stopped⟩ := stopped_of_run builds ran finished
    exact ⟨rfl, congrArg Front.status front, congrArg Front.finished front,
      ⟨u, returned_kept moved stopped⟩, ⟨i, s, congrArg Front.kept front, here⟩,
      fun s member => gone_of_razed (razed.all_razed s member)⟩

/-- One worker that asks a database. -/
def pinging : ContainerPlan PoolService where
  settings := { Settings.standard with
    service := Ping.name
    driver := ⟨1, .standard⟩
    metrics := .off
    database := ⟨some "postgres://db/load", false, none⟩ }
  registry := .builtin (fun _ => none) toString

/-- What its factory says when it builds the service. -/
def pinger : Except ServiceError PoolService :=
  pinging.registry.create pinging.settings.service pinging.settings

/-- A start whose factory fails, and one whose database refuses. -/
def refused : List (ContainerEvent PoolService (PoolMove WorkerContext)) :=
  [.ask .start, .lock 0 (.error (.config "no entropy")), .ask .start, .lock 1 pinger,
    .service 0 (.prepared 0 (.error (.connection "refused"))), .proceed 1, .service 0 (.proceed 1),
    .proceed 1, .service 0 (.proceed 2)].map fun m => ⟨1, m⟩

/-- The end of the second start, and another one. -/
def secondTry : List (ContainerEvent PoolService (PoolMove WorkerContext)) :=
  [.proceed 1, .ask .start, .lock 2 pinger, .service 1 (.prepared 0 (.ok ())), .proceed 2,
    .proceed 2].map fun m => ⟨2, m⟩

/-- A stop, with one more start behind it. -/
def ending : List (ContainerEvent PoolService (PoolMove WorkerContext)) :=
  [.ask .stop, .lock 3 pinger, .ask .start, .service 1 (.proceed 2), .proceed 3,
    .service 1 (.proceed 3), .service 1 (.worker 0 (.pick 0 none)), .service 1 (.worker 0 .release),
    .service 1 (.proceed 3), .service 1 (.proceed 3), .proceed 3].map fun m => ⟨3, m⟩

/-- All services that are built here are new. -/
theorem builds_second_try : ∀ e ∈ refused ++ secondTry ++ ending, Builds e.move := by
  have answers : (refused ++ secondTry ++ ending).filterMap (·.move.answer?) =
      [.error (.config "no entropy"), pinger, pinger, pinger] := rfl
  intro e member s answer
  have built : .ok s ∈ [.error (.config "no entropy"), pinger, pinger, pinger] :=
    answers ▸ List.mem_filterMap.2 ⟨e, member, answer⟩
  have known : pinger = .ok s := by simpa [eq_comm] using built
  exact fresh_of_builtin known

/-- A start that its factory fails, one that it does not, and the end. -/
theorem runs_once_second_try :
    ∃ c c' d e e' s, run pinging fresh refused = some c ∧
      c.after? pinging ⟨2, .proceed 1⟩ = some c' ∧ c'.Off pinging ∧
      pinger = .ok s ∧ c'.MayStart pinging s ∧
      run pinging fresh (refused ++ secondTry) = some d ∧ d.status = .started ∧
      (d.finished = false ∧ ∃ i, d.kept = [i] ∧ i < d.services.length) ∧
      run pinging fresh (refused ++ secondTry ++ ending) = some e ∧ e.finished = true ∧
      (∃ e', e.after? pinging ⟨3, .lock 4 pinger⟩ = some e' ∧
        e'.turns[4]? = some ⟨.start, .returned (.error .finished)⟩) ∧
      e.after? pinging ⟨3, .proceed 2⟩ = some e' ∧
      e'.turns[2]? = some ⟨.start, .returned (.ok ())⟩ ∧ e'.Closed := by
  obtain ⟨s, built⟩ : ∃ s, pinger = .ok s := ⟨_, rfl⟩
  obtain ⟨c, failing⟩ : ∃ c, run pinging fresh refused = some c := ⟨_, rfl⟩
  obtain ⟨c', fails⟩ : ∃ c', c.after? pinging ⟨2, .proceed 1⟩ = some c' := by
    cases failing
    exact ⟨_, rfl⟩
  obtain ⟨d, running⟩ : ∃ d, run pinging fresh (refused ++ secondTry) = some d := ⟨_, rfl⟩
  obtain ⟨e, ended⟩ : ∃ e, run pinging fresh (refused ++ secondTry ++ ending) = some e := ⟨_, rfl⟩
  obtain ⟨e', wakes⟩ : ∃ e', e.after? pinging ⟨3, .proceed 2⟩ = some e' := by
    cases ended
    exact ⟨_, rfl⟩
  have started : d.status = .started := by cases running; rfl
  have finished : e.finished = true := by cases ended; rfl
  have behind : e.turns[4]? = some ⟨.start, .queued⟩ := by cases ended; rfl
  have returned : e'.turns[2]? = some ⟨.start, .returned (.ok ())⟩ := by
    cases ended; cases wakes; rfl
  have builds₂ : ∀ e ∈ refused ++ secondTry, Builds e.move := fun e member =>
    builds_second_try e (List.mem_append_left _ member)
  have builds₁ : ∀ e ∈ refused, Builds e.move := fun e member =>
    builds₂ e (List.mem_append_left _ member)
  have off : c'.Off pinging := by
    refine (runs_once pinging builds₁ failing).2.2.1 _ _ 1
      (.service "ping" (.resource (.connection "refused"))) fails ?_ ?_ nofun <;>
      cases failing <;> cases fails
    · rfl
    · nofun
  obtain ⟨on, -, -, -⟩ := runs_once pinging builds₂ running
  obtain ⟨-, late, -, waits⟩ := runs_once pinging builds_second_try ended
  have closed : e'.Closed := (waits _ _ 2 .start (.ok ()) wakes (by cases ended; rfl) returned).2
  refine ⟨c, c', d, e, e', s, failing, fails, off, built, ?_, running, started, on started, ended,
    finished, ?_, wakes, returned, closed⟩
  · have workers : 0 < (HostedPool.plan s).threads := by cases built; decide
    exact off.again rfl rfl s (fresh_of_builtin built) workers
  · obtain ⟨-, -, starts⟩ := late finished [] e rfl
    have later : e.Later 4 := by
      intro turn here
      cases behind.symm.trans here
      rfl
    rcases starts 4 .queued later behind with again | ⟨-, locks⟩
    · cases again
    · exact locks 3 pinger

end LoadHarness.Container
