import LoadHarness.Proofs.Container.Lifetime
import LoadHarness.Proofs.Service.Building

/-!
# The first start

A pool with workers whose preparation cannot fail never returns an error from a call. Settings that
validate build such a pool for the synthetic service, so nothing is ever undone in a container that
runs it, and the start that gets the lock first brings it up.
-/

namespace LoadHarness

/-! ## Pools that fail no call -/

namespace Pool

variable {κ : Type} {plan : PoolPlan κ} {p q : Pool κ} {m : PoolMove κ} {now : Nat}

/-- No call has returned an error. -/
def Unfailing (p : Pool κ) : Prop := ∀ i e, p.result? i ≠ some (.error e)

theorem unfailing_fresh (plan : PoolPlan κ) : (fresh plan).Unfailing := by
  intro i e returned
  cases returned

/-- The step: only a pool without workers and a preparation that fails make a call fail. -/
theorem Unfailing.step (h : p.Unfailing) (workers : plan.threads ≠ 0)
    (moved : Moves plan p now m q) (good : ∀ i e, m ≠ .prepared i (.error e)) : q.Unfailing := by
  intro i e returned
  obtain ⟨kind, here⟩ := result?_iff.1 returned
  cases callStep_of_moves moved here with
  | kept same => exact h i e (result?_iff.2 ⟨kind, same⟩)
  | made _ _ begun =>
    cases kind with
    | create =>
      have failed : p.beginCreate plan = .returned (.error e) := congrArg Prod.snd begun
      rw [beginCreate, if_neg workers] at failed
      split at failed <;> cases failed
    | start | stop | destroy => cases begun
  | gone _ goes =>
    cases goes with
    | refused => exact good _ _ rfl

/-- A pool that comes up without an error has been created, or is once its preparation ends. -/
theorem ComingUp.prepares (h : ComingUp plan p) (unfailing : p.Unfailing) (now : Nat) :
    p.result? 0 = some (.ok ()) ∨
      ∃ q, p.after? plan ⟨now, .prepared 0 (.ok ())⟩ = some q ∧ q.result? 0 = some (.ok ()) := by
  obtain ⟨phase, calls, stands⟩ := h.only
  have first : p.calls[0]? = some ⟨.create, phase⟩ := by rw [calls]; rfl
  have fits := h.tended.fits 0 _ first
  cases phase with
  | settingUp =>
    have free : p.status = .destroyed := by
      rcases stands with ⟨was, -⟩ | ⟨-, gone⟩
      · exact was
      · cases gone
    have prepared : p.after? plan ⟨now, .prepared 0 (.ok ())⟩ =
        some ((p.finishCreate plan (.ok ())).1.setCall 0 (p.finishCreate plan (.ok ())).2) := by
      simp only [after?, Pool.step, first, Option.map_some]
    refine .inr ⟨_, prepared, result?_iff.2 ⟨.create, ?_⟩⟩
    simp only [finishCreate, ServiceStatus.move, if_pos free]
    exact setCall_here first _
  | returned r =>
    have returned : p.result? 0 = some r := result?_iff.2 ⟨.create, first⟩
    cases r with
    | error e => exact absurd returned (unfailing 0 e)
    | ok => exact .inl returned
  | silencing | draining | joining => cases fits

/-- A start of a created pool makes it started. -/
theorem started_of_start (was : p.status = .created)
    (made : p.after? plan ⟨now, .call .start⟩ = some q) : q.status = .started := by
  simp only [after?, step, beginCall, launch, ServiceStatus.move, if_pos was] at made
  cases made
  rfl

end Pool

/-! ## Synthetic services -/

namespace PoolService

/-- A synthetic service with somebody to do its work that has failed no call. -/
structure Willing (s : PoolService) : Prop where
  synthetic : ∃ x, s.workload = .synthetic x
  workers : s.plan.threads ≠ 0
  unfailing : s.pool.Unfailing

/-- A creation does not fail and has succeeded or can at any time, and when it has, a start succeeds
at once. -/
def ComesUp (s : PoolService) : Prop :=
  ∀ now (own : List (Nat × PoolMove WorkerContext)) s',
    own.foldlM (fun s e => Hosted.step s e.1 e.2) (Hosted.call s now .create).2 = some s' →
    (∀ e, Hosted.result? s' (Hosted.call s now .create).1 ≠ some (.error e)) ∧
    (∀ later, Hosted.result? s' (Hosted.call s now .create).1 = some (.ok ()) ∨
      ∃ m s'', Hosted.step s' later m = some s'' ∧
        Hosted.result? s'' (Hosted.call s now .create).1 = some (.ok ())) ∧
    (Hosted.result? s' (Hosted.call s now .create).1 = some (.ok ()) → ∀ later,
      Hosted.result? (Hosted.call s' later .start).2 (Hosted.call s' later .start).1 =
        some (.ok ()) ∧
      Hosted.status (Hosted.call s' later .start).2 = .started)

variable {s s' : PoolService} {m : PoolMove WorkerContext} {settings : Settings} {now : Nat}

open Container HostedPool

/-- What the factory of the synthetic service builds is willing to come up. -/
theorem willing_of_built (staffed : settings.Staffed) (built : Synthetic.Built settings s) :
    s.Willing := by
  refine ⟨⟨_, built.synthetic⟩, ?_, built.fresh ▸ Pool.unfailing_fresh s.plan⟩
  rw [built.threads]
  exact fun none => staffed.workers (UInt64.toNat_inj.1 none)

/-- No call makes a service unwilling. -/
theorem Willing.called (h : s.Willing) (now : Nat) (kind : LifecycleCall) :
    Willing (Hosted.call s now kind).2 :=
  ⟨h.synthetic, h.workers, h.unfailing.step h.workers (moves_of_call s now kind) nofun⟩

/-- Nor does a step of its own. -/
theorem Willing.stepped (h : s.Willing) (stepped : Hosted.step s now m = some s') :
    s'.Willing := by
  obtain ⟨-, passed⟩ := poolStep_of_step stepped
  rw [poolStep_eq] at passed
  obtain ⟨p, made, rfl⟩ := Option.map_eq_some_iff.1 passed
  refine ⟨h.synthetic, h.workers, h.unfailing.step h.workers (Pool.moves_of_after made) ?_⟩
  rintro i e rfl
  obtain ⟨x, synthetic⟩ := h.synthetic
  have may : s.workload.canEndWith (.error e) = true := (Option.ite_none_right_eq_some.1 stepped).1
  rw [synthetic] at may
  cases may

/-- A willing service that comes up has been created, or is once its preparation ends. -/
theorem Willing.prepares (h : s.Willing) (coming : At .comingUp s) (now : Nat) :
    Hosted.result? s 0 = some (.ok ()) ∨
      ∃ m s', Hosted.step s now m = some s' ∧ Hosted.result? s' 0 = some (.ok ()) := by
  refine (Pool.ComingUp.prepares coming h.unfailing now).imp_right ?_
  rintro ⟨p, made, good⟩
  obtain ⟨m, s', stepped, rfl⟩ := HostedPool.prepares (s := s) made
  exact ⟨m, s', stepped, good⟩

/-- The number of the first call. -/
theorem number_of_fresh (fresh : s.pool = .fresh s.plan) (now : Nat) (kind : LifecycleCall) :
    (Hosted.call s now kind).1 = 0 := by
  rw [number s now kind]
  show s.pool.calls.length = 0
  rw [fresh]
  rfl

/-- What has been built from settings with workers comes up. -/
theorem comesUp_of_built (staffed : settings.Staffed) (built : Synthetic.Built settings s) :
    s.ComesUp := by
  intro now own s' ran
  have kept : At .comingUp s' ∧ s'.Willing := by
    refine foldlM_induction (fun _ s => At .comingUp s ∧ s.Willing)
      ⟨at_of_create built.fresh now, (willing_of_built staffed built).called now .create⟩ ?_ ran
    exact fun _ h stepped => ⟨h.1.step stepped, h.2.stepped stepped⟩
  obtain ⟨coming, willing⟩ := kept
  rw [number_of_fresh built.fresh now .create]
  refine ⟨willing.unfailing 0, willing.prepares coming, fun good later => ?_⟩
  obtain ⟨-, ⟨-, bad⟩ | ⟨created, -⟩⟩ := Pool.ComingUp.result coming good
  · exact absurd rfl bad
  · exact ⟨(coming.created good later).2, Pool.started_of_start created (called s' later .start)⟩

end PoolService

/-- Nothing has gone wrong with a call in this phase, unless its container had finished before. -/
def TurnPhase.IsFair (finished : Bool) : TurnPhase → Prop
  | .creating _ call => call = 0
  | .stopping _ _ (.undo _) => False
  | .destroying _ _ (.undo _) => False
  | .returned (.error e) => e = .finished ∧ finished = true
  | _ => True

namespace Container

/-! ## The services of a container -/

section Each

variable {σ μ : Type} [Hosted σ μ] {P : σ → Prop} {plan : ContainerPlan σ} {c c' : Container σ}
  {m : ContainerMove σ μ} {now : Nat}

/-- A turn that goes on calls one service and leaves the others alone. -/
theorem each_advance (called : ∀ s now kind, P s → P (Hosted.call s now kind).2)
    (all : ∀ s ∈ c.services, P s) (now t i : Nat) (kind : LifecycleCall)
    (phase : Nat → TurnPhase) : ∀ s ∈ (c.advance now t i kind phase).services, P s := by
  cases there : c.services[i]? with
  | none =>
    simp only [advance, callService, there]
    exact all
  | some s =>
    rw [advance_eq there]
    intro s' member
    rcases List.mem_or_eq_of_mem_set member with old | rfl
    · exact all s' old
    · exact called s now kind (all s (List.mem_of_getElem? there))

/-- What holds of services as they are built and is kept by calls and by their own steps holds of
all services of a container. -/
theorem each_of_moves (built : ∀ s, m.answer? = some (.ok s) → P s)
    (called : ∀ s now kind, P s → P (Hosted.call s now kind).2)
    (stepped : ∀ {s s' now m}, Hosted.step s now m = some s' → P s → P s')
    (all : ∀ s ∈ c.services, P s) (moved : Moves plan c now m c') : ∀ s ∈ c'.services, P s := by
  cases moved with
  | asks | tells => exact all
  | @locks t _ _ _ _ _ locked =>
    cases locked with
    | @builds s _ _ _ _ made =>
      refine each_advance called (fun s' member => ?_) _ _ _ _ _
      rcases List.mem_append.1 member with old | new
      · exact all s' old
      · rw [List.mem_singleton.1 new]
        exact built s (congrArg some made)
    | halts => exact each_advance (c := { c with holder := some t }) called all _ _ _ _ _
    | _ => exact all
  | @goes _ turn _ _ goes =>
    obtain ⟨kind, phase⟩ := turn
    cases goes with
    | created | uncreated | unstarted | stopped | halts => exact each_advance called all _ _ _ _ _
    | _ => exact all
  | serves there own =>
    intro s' member
    rcases List.mem_or_eq_of_mem_set member with old | rfl
    · exact all s' old
    · exact stepped own (all _ (List.mem_of_getElem? there))

end Each

/-! ## Containers in which nothing goes wrong -/

open PoolService

variable {plan : ContainerPlan PoolService} {c c' : Container PoolService}
  {m : ContainerMove PoolService (PoolMove WorkerContext)} {now t u i : Nat} {turn : Turn}
  {kind : ContainerCall} {phase : TurnPhase} {answer : Except ServiceError PoolService}
  {es : List (ContainerEvent PoolService (PoolMove WorkerContext))}

/-- The settings validate and name a service that is known. -/
structure Runs (plan : ContainerPlan PoolService) : Prop where
  valid : plan.settings.validate = .ok ()
  known : plan.registry.contains plan.settings.service = true

/-- A factory has built a service that comes up. -/
def Supplies (answer : Except ServiceError PoolService) : Prop :=
  ∃ s : PoolService, answer = .ok s ∧ s.Willing ∧ s.pool = .fresh s.plan

/-- Whoever asks a factory in this step is supplied. -/
def Supplied (m : ContainerMove PoolService (PoolMove WorkerContext)) : Prop :=
  ∀ answer, m.answer? = some answer → Supplies answer

theorem Supplied.built {s : PoolService} (supplied : Supplied m)
    (answer : m.answer? = some (.ok s)) : s.Willing ∧ s.pool = .fresh s.plan := by
  obtain ⟨s', same, good⟩ := supplied _ answer
  cases same
  exact good

/-- The start has brought the service up. -/
def CameUp (c : Container PoolService) (u : Nat) : Prop :=
  c.turns[u]? = some ⟨.start, .waiting⟩ ∨ c.turns[u]? = some ⟨.start, .returned (.ok ())⟩

/-- No start but this one has got the lock. -/
def First (c : Container PoolService) (u : Nat) : Prop :=
  ∀ v phase, v ≠ u → c.turns[v]? = some ⟨.start, phase⟩ → phase = .queued

/-- No service has failed and no call has gone wrong, and if the container has run then a start has
brought it up. -/
structure Smooth (c : Container PoolService) : Prop where
  sound : c.Sound
  willing : ∀ s ∈ c.services, s.Willing
  fair : ∀ (u : Nat) turn, c.turns[u]? = some turn → turn.phase.IsFair c.finished
  up : c.status = .started ∨ c.finished = true → ∃ u, c.CameUp u

theorem smooth_fresh : (fresh : Container PoolService).Smooth :=
  ⟨sound_fresh, fun _ member => absurd member List.not_mem_nil, fun _ _ here => absurd here nofun,
    fun ran => by rcases ran with on | ended <;> contradiction⟩

/-- What is fair for a container that still runs is fair for one that has finished. -/
theorem isFair_mono {finished finished' : Bool} (fair : phase.IsFair finished)
    (later : finished = true → finished' = true) : phase.IsFair finished' := by
  cases phase with
  | returned r =>
    cases r with
    | error e => exact ⟨fair.1, later fair.2⟩
    | ok => trivial
  | stopping _ _ why => cases why <;> exact fair
  | destroying _ _ why => cases why <;> exact fair
  | _ => exact fair

/-- A start in any other phase has not brought its service up. -/
theorem not_cameUp (here : c.turns[u]? = some ⟨.start, phase⟩) (waits : phase ≠ .waiting)
    (good : phase ≠ .returned (.ok ())) : ¬c.CameUp u := by
  rintro (waiting | returned)
  · cases waiting.symm.trans here
    exact waits rfl
  · cases returned.symm.trans here
    exact good rfl

/-- A start that has brought its service up stays so. -/
theorem CameUp.step (up : c.CameUp u) (moved : Moves plan c now m c') : c'.CameUp u := by
  rcases up with waiting | returned
  · cases moved with
    | asks =>
      refine .inl ?_
      rw [List.getElem?_append_left (List.getElem?_eq_some_iff.1 waiting).1]
      exact waiting
    | @locks t _ _ _ _ asked locked =>
      obtain ⟨phase, turns⟩ := turns_of_locks locked
      have other : u ≠ t := by
        rintro rfl
        cases waiting.symm.trans asked
      refine .inl ?_
      rw [turns, setPhase_elsewhere other, waiting]
    | @goes t turn _ here goes =>
      by_cases own : u = t
      · subst own
        cases waiting.symm.trans here
        cases goes with
        | woken => exact .inr (setPhase_here waiting _)
      · obtain ⟨phase, turns⟩ := turns_of_goes goes
        refine .inl ?_
        rw [turns, setPhase_elsewhere own, waiting]
    | tells => exact .inl waiting
    | serves => exact .inl waiting
  · exact .inr (returned_kept moved returned)

/-- In a smooth container no call on a service fails. -/
theorem Smooth.unfailing (h : c.Smooth) (i call : Nat) (e : ServiceError) :
    c.result? i call ≠ some (.error e) := by
  intro failed
  obtain ⟨s, there, bad⟩ := Option.bind_eq_some_iff.1 failed
  exact (h.willing s (List.mem_of_getElem? there)).unfailing call e bad

/-- The step: a call whose turn moves on is not told of an error. -/
theorem Smooth.fair_step (h : c.Smooth) (runs : Runs plan) (supplied : Supplied m)
    (moved : Moves plan c now m c') (here : c'.turns[u]? = some ⟨kind, phase⟩) : phase.IsFair c'.finished := by
  cases turnStep_of_moves moved here with
  | kept same =>
    refine isFair_mono (h.fair u _ same) fun ended => ?_
    rcases h.sound.finishes moved with same | ⟨ended', -⟩
    · exact same.trans ended
    · exact ended'
  | asked _ queued =>
    cases queued
    trivial
  | @locked answer move _ was locks =>
    have answered : m.answer? = some answer := move ▸ rfl
    cases locks with
    | late _ done =>
      cases (setPhase_here was _).symm.trans here
      exact ⟨rfl, done⟩
    | refused _ _ _ reason =>
      obtain ⟨s, built, -⟩ := supplied _ answered
      exact absurd built (reason runs.valid runs.known s)
    | @builds s _ _ _ _ built =>
      rw [advance_eq List.getElem?_concat_length] at here
      cases (setPhase_here was _).symm.trans here
      exact number_of_fresh (supplied.built (built ▸ answered)).2 now .create
    | halts =>
      obtain ⟨n, same⟩ := phase_of_advance (c := { c with holder := some u }) was here
      cases same
      trivial
    | _ =>
      cases (setPhase_here was _).symm.trans here
      trivial
  | went was goes =>
    have fair := h.fair u _ was
    cases goes with
    | uncreated bad => exact absurd bad (h.unfailing _ _ _)
    | unstarted bad => exact absurd bad (h.unfailing _ _ _)
    | undone => exact fair.elim
    | @stopped _ _ why =>
      obtain ⟨n, same⟩ := phase_of_advance was here
      cases same
      cases why with
      | undo => exact fair.elim
      | halt => trivial
    | created | halts =>
      obtain ⟨n, same⟩ := phase_of_advance was here
      cases same
      trivial
    | _ =>
      cases (setPhase_here was _).symm.trans here
      trivial

/-- What puts a container that has not run into one that has is a start that comes up. -/
theorem Smooth.up_step (h : c.Smooth) (moved : Moves plan c now m c')
    (ran : c'.status = .started ∨ c'.finished = true) : ∃ u, c'.CameUp u := by
  by_cases before : c.status = .started ∨ c.finished = true
  · obtain ⟨u, up⟩ := h.up before
    exact ⟨u, up.step moved⟩
  · cases moved with
    | asks | tells | serves => exact absurd ran before
    | locks _ _ locked =>
      cases locked with
      | closes on => exact absurd (.inl on) before
      | builds | halts =>
        rw [advance_status, advance_finished] at ran
        exact absurd ran before
      | _ => exact absurd ran before
    | @goes t turn _ here goes =>
      obtain ⟨kind, phase⟩ := turn
      cases goes with
      | started =>
        obtain ⟨-, busy⟩ := h.sound.busy here rfl
        generalize c.front = f at busy
        cases busy
        exact ⟨t, .inl (setPhase_here here _)⟩
      | closes =>
        obtain ⟨-, busy⟩ := h.sound.busy here rfl
        generalize front : c.front = f at busy
        cases busy
        exact absurd (.inl (congrArg Front.status front)) before
      | created | uncreated | unstarted | stopped | halts =>
        rw [advance_status, advance_finished] at ran
        exact absurd ran before
      | _ => exact absurd ran before

/-- The step: nothing ever goes wrong. -/
theorem Smooth.step (h : c.Smooth) (runs : Runs plan) (supplied : Supplied m)
    (moved : Moves plan c now m c') : c'.Smooth :=
  ⟨h.sound.step (fun _ _ built => (supplied.built built).2) moved,
    each_of_moves (fun _ built => (supplied.built built).1) (fun _ now kind h => h.called now kind)
      (fun stepped h => h.stepped stepped) h.willing moved,
    fun _ _ here => h.fair_step runs supplied moved here, h.up_step moved⟩

/-- The run: a container of valid settings stays smooth. -/
theorem smooth_of_run (runs : Runs plan) (supplied : ∀ e ∈ es, Supplied e.move)
    (ran : run plan fresh es = some c) : c.Smooth :=
  foldlM_induction_of supplied (fun _ c => c.Smooth) smooth_fresh
    (fun _ h supplied made => h.step runs supplied (moves_of_after made)) ran

/-! ## The first start -/

/-- A start that holds the lock brings its service up. -/
theorem Smooth.mayComeUp_of_busy (h : c.Smooth) (plan : ContainerPlan PoolService)
    (answer : Except ServiceError PoolService) (here : c.turns[u]? = some ⟨.start, phase⟩)
    (works : phase.isBusy = true) : c.MayComeUp plan answer u := by
  obtain ⟨-, busy⟩ := h.sound.busy here works
  have fair := h.fair u _ here
  generalize c.front = f at busy
  cases busy with
  | creating coming =>
    obtain ⟨s, there, at_coming⟩ := coming.here
    cases fair
    have willing := h.willing s (List.mem_of_getElem? there)
    rcases willing.prepares at_coming 0 with good | ⟨m, s', stepped, good⟩
    · exact mayComeUp_of_created plan answer here there at_coming good 0
    · obtain ⟨c', served, same, there'⟩ := service_steps plan there stepped
      rw [← same] at here
      have may := mayComeUp_of_created plan answer here there' (at_coming.step stepped) good 0
      exact may.after served nofun
  | starting started =>
    obtain ⟨s, there, at_started⟩ := started.here
    exact mayComeUp_of_starting plan answer here there at_started.2 0
  | undoing => exact fair.elim
  | undone => exact fair.elim

/-- If the first start has not come up, no service has. -/
theorem First.none_up (first : c.First u) (down : ¬ c.CameUp u) : ¬ ∃ v, c.CameUp v := by
  rintro ⟨v, up⟩
  by_cases own : v = u
  · exact down (own ▸ up)
  · rcases up with up | up
    · cases first v _ own up
    · cases first v _ own up

/-- While nobody else has got the lock there is nobody to wait for. -/
theorem Smooth.off_of_first (h : c.Smooth) (first : c.First u)
    (here : c.turns[u]? = some ⟨.start, .queued⟩) :
    c.holder = none ∧ c.status = .stopped ∧ c.finished = false := by
  have none_up := first.none_up (not_cameUp here nofun nofun)
  have off : c.front = .off := by
    obtain off | ⟨i, on, -⟩ | ⟨-, i, closed, -⟩ := h.sound.front_cases
    · exact off
    · exact absurd (h.up (.inl (congrArg Front.status on))) none_up
    · exact absurd (h.up (.inr (congrArg Front.finished closed))) none_up
  refine ⟨?_, congrArg Front.status off, congrArg Front.finished off⟩
  rcases h.sound.stands with ⟨free, -⟩ | ⟨t, turn, -, there, busy⟩
  · exact free
  · rw [off] at busy
    have other : t ≠ u := by
      rintro rfl
      cases there.symm.trans here
      cases busy
    cases busy with
    | creating => cases first t _ other there
    | starting => cases first t _ other there
    | undoing => cases first t _ other there
    | undone => cases first t _ other there

/-- The first start has brought its service up or can. -/
theorem Smooth.first (h : c.Smooth) (runs : Runs plan) (supplies : Supplies answer)
    (first : c.First u) (here : c.turns[u]? = some ⟨.start, phase⟩) :
    c.CameUp u ∨ c.MayComeUp plan answer u := by
  cases phase with
  | queued =>
    obtain ⟨free, off, unfinished⟩ := h.off_of_first first here
    obtain ⟨s, rfl, good⟩ := supplies
    obtain ⟨c', locked, creating, -⟩ :=
      starts_building free here off unfinished runs.valid runs.known s 0
    have supplied : Supplied (.lock u (.ok s)) := fun _ same => ⟨s, (Option.some.inj same).symm, good⟩
    have smooth := h.step runs supplied (moves_of_after locked)
    exact .inr ((smooth.mayComeUp_of_busy plan (.ok s) creating rfl).after locked
      fun _ same => (Option.some.inj same).symm)
  | waiting => exact .inl (.inl here)
  | returned r =>
    cases r with
    | ok => exact .inl (.inr here)
    | error e =>
      have none_up := first.none_up (not_cameUp here nofun nofun)
      exact absurd (h.up (.inr (h.fair u _ here).2)) none_up
  | _ => exact .inr (h.mayComeUp_of_busy plan answer here rfl)

/-- An error is returned only to a start that comes after a stop, and so after another start. -/
theorem Smooth.error (h : c.Smooth) {why : ContainerError}
    (here : c.turns[u]? = some ⟨.start, .returned (.error why)⟩) :
    why = .finished ∧ ∃ v, v ≠ u ∧ c.CameUp v := by
  obtain ⟨rfl, finished⟩ := h.fair u _ here
  obtain ⟨v, up⟩ := h.up (.inr finished)
  refine ⟨rfl, v, ?_, up⟩
  rintro rfl
  exact not_cameUp here nofun nofun up

/-- The built-in registry knows the synthetic service. -/
theorem create_synthetic (faults : AddressFaults) (identities : Identities) (s : Settings) :
    (Registry.builtin faults identities).create Synthetic.name s = Synthetic.build identities s :=
  rfl

/-- Whoever asks the built-in registry is answered by it; the identities of workers are made up each
time. -/
def Heeds (faults : AddressFaults) (s : Settings)
    (m : ContainerMove PoolService (PoolMove WorkerContext)) : Prop :=
  ∀ answer, m.answer? = some answer →
    ∃ identities, answer = (Registry.builtin faults identities).create s.service s

/-- The synthetic service is supplied for settings that validate. -/
theorem supplies_of_valid (faults : AddressFaults) (identities : Identities) {s : Settings}
    (valid : s.validate = .ok ()) (synthetic : s.service = Synthetic.name) :
    Supplies ((Registry.builtin faults identities).create s.service s) := by
  obtain ⟨staffed, rates, mix⟩ := Settings.checks_of_valid valid
  obtain ⟨service, made, built⟩ := Synthetic.built_of_checks identities mix rates
  refine ⟨service, ?_, willing_of_built staffed built, built.fresh⟩
  rw [synthetic, create_synthetic, made]

/-- **What validates can be run.** Building the synthetic service fails for the settings whose mix
or whose rates validation finds wrong and for no others, with the error that validation finds, that
of the mix if both are wrong. So where settings validate and name that service, it is built, its
creation never fails and can always succeed, and then its start succeeds. And however starts, stops
and workers take turns in a container of these settings, the first start to get the lock never
returns an error: it has brought the service up or can. A start that does return an error comes to
the lock of a container that another one had brought up. -/
theorem runs_if_valid (faults : AddressFaults) (identities : Identities) (s : Settings) :
    (∀ e, Synthetic.build identities s = .error e ↔
      (∃ m, s.checkMix = .error m ∧ e = .mix m) ∨
        s.checkMix = .ok () ∧ ∃ l, s.checkRates = .error l ∧ e = .limiter l) ∧
    (∀ l, s.validate = .error (.limiter l) ↔ s.Staffed ∧ s.checkRates = .error l) ∧
    (∀ m, s.validate = .error (.mix m) ↔
      s.Staffed ∧ s.checkRates = .ok () ∧ s.checkMix = .error m) ∧
    (s.validate = .ok () → s.service = Synthetic.name →
      (∃ service, (Registry.builtin faults identities).create s.service s = .ok service ∧
        Synthetic.build identities s = .ok service ∧ service.ComesUp) ∧
      ∀ es c, (∀ e ∈ es, Heeds faults s e.move) →
        run ⟨s, Registry.builtin faults identities⟩ fresh es = some c →
        (∀ u phase, c.First u → c.turns[u]? = some ⟨.start, phase⟩ →
          (∀ why, phase ≠ .returned (.error why)) ∧
          (c.CameUp u ∨ c.MayComeUp ⟨s, Registry.builtin faults identities⟩
            ((Registry.builtin faults identities).create s.service s) u)) ∧
        ∀ u why, c.turns[u]? = some ⟨.start, .returned (.error why)⟩ →
          why = .finished ∧ ∃ v, v ≠ u ∧ c.CameUp v) := by
  refine ⟨fun e => Synthetic.build_error_iff identities, fun l => Settings.validate_limiter_iff,
    fun m => Settings.validate_mix_iff, fun valid synthetic => ⟨?_, fun es c heeds ran => ?_⟩⟩
  · obtain ⟨staffed, rates, mix⟩ := Settings.checks_of_valid valid
    obtain ⟨service, made, built⟩ := Synthetic.built_of_checks identities mix rates
    refine ⟨service, ?_, made, comesUp_of_built staffed built⟩
    rw [synthetic, create_synthetic, made]
  · have known : (Registry.builtin faults identities).contains s.service = true := by
      rw [synthetic]
      rfl
    have runs : Runs ⟨s, Registry.builtin faults identities⟩ := ⟨valid, known⟩
    have supplied : ∀ e ∈ es, Supplied e.move := by
      intro e member answer answered
      obtain ⟨own, rfl⟩ := heeds e member answer answered
      exact supplies_of_valid faults own valid synthetic
    have smooth := smooth_of_run runs supplied ran
    have supplies := supplies_of_valid faults identities valid synthetic
    refine ⟨fun u phase first here => ⟨?_, smooth.first runs supplies first here⟩,
      fun u why here => smooth.error here⟩
    rintro why rfl
    obtain ⟨-, v, other, up | up⟩ := smooth.error here
    · cases first v _ other up
    · cases first v _ other up

/-- Nothing may flow, and the shares add up to sixty. -/
def unfit : Settings :=
  { Settings.standard with driver := ⟨1, ⟨0, none⟩⟩, workload := ⟨[60], ["READ"]⟩ }

/-- A start and a stop that gets the lock first. -/
def overtaking : List (ContainerEvent PoolService (PoolMove WorkerContext)) :=
  [.ask .start, .ask .stop, .lock 1 (Synthetic.build toString .standard),
    .lock 0 (Synthetic.build toString .standard)].map fun m => ⟨0, m⟩

/-- Settings that fail, settings that do not, and a start that is overtaken by a stop. -/
theorem runs_if_valid_standard :
    (∃ l, unfit.validate = .error (.limiter l)) ∧
    Synthetic.build toString unfit = .error (.mix (.invalidSum 60)) ∧
    Settings.standard.validate = .ok () ∧ Settings.standard.service = Synthetic.name ∧
    (∃ service, Synthetic.build toString .standard = .ok service ∧ service.ComesUp) ∧
    ∃ c, run ⟨.standard, .builtin (fun _ => none) toString⟩ fresh overtaking = some c ∧
      c.turns[0]? = some ⟨.start, .creating 0 0⟩ ∧ c.First 0 ∧
      c.MayComeUp ⟨.standard, .builtin (fun _ => none) toString⟩
        (Synthetic.build toString .standard) 0 := by
  obtain ⟨fails, rates, -, -⟩ := runs_if_valid (fun _ => none) toString unfit
  obtain ⟨-, -, -, runs⟩ := runs_if_valid (fun _ => none) toString .standard
  have valid : Settings.standard.validate = .ok () := rfl
  obtain ⟨⟨service, -, made, comesUp⟩, starts⟩ := runs valid rfl
  have heeds : ∀ e ∈ overtaking, Heeds (fun _ => none) .standard e.move := by
    have answers : overtaking.filterMap (·.move.answer?) =
        [Synthetic.build toString .standard, Synthetic.build toString .standard] := rfl
    intro e member answer answered
    have built : answer ∈ overtaking.filterMap (·.move.answer?) :=
      List.mem_filterMap.2 ⟨e, member, answered⟩
    rw [answers] at built
    have same : answer = Synthetic.build toString .standard := by simpa using built
    exact ⟨toString, same⟩
  obtain ⟨c, ran⟩ : ∃ c, run ⟨.standard, .builtin (fun _ => none) toString⟩ fresh overtaking =
      some c := ⟨_, rfl⟩
  have turns : c.turns = [⟨.start, .creating 0 0⟩, ⟨.stop, .returned (.ok ())⟩] := by
    cases ran; rfl
  have creating : c.turns[0]? = some ⟨.start, .creating 0 0⟩ := by rw [turns]; rfl
  have first : c.First 0 := by
    intro v phase other here
    rw [turns] at here
    rcases v with _ | _ | v
    · exact absurd rfl other
    · cases here
    · cases here
  obtain ⟨-, up | may⟩ := (starts _ c heeds ran).1 0 _ first creating
  · exact absurd up (not_cameUp creating nofun nofun)
  · exact ⟨⟨_, (rates _).2 ⟨⟨rfl, nofun⟩, rfl⟩⟩, (fails _).2 (.inl ⟨_, rfl, rfl⟩), valid, rfl,
      ⟨service, made, comesUp⟩, c, ran, creating, first, may⟩

end Container

end LoadHarness
