import LoadHarness.Proofs.Lifecycle.Drain

/-!
# Pools with a host

A pool that nobody but its host calls is created once, then started unless the creation failed, and
in the end stopped and destroyed, each call after the one before has returned. The pool is coming
up, up, or razed; each of these is kept by all that the pool does of its own accord, and the host's
calls lead from one to the next. A razed pool never does anything again.
-/

namespace LoadHarness

variable {κ : Type}

/-- A call of the host. -/
def PoolMove.isCall : PoolMove κ → Bool
  | .call _ => true
  | _ => false

open Generation PoolStanding

namespace Pool

/-- No creation is under way. -/
def Settled (p : Pool κ) : Prop := ∀ c ∈ p.calls, c.phase ≠ .settingUp

/-- What holds of a pool however far its host has taken it. -/
structure Tended (plan : PoolPlan κ) (p : Pool κ) : Prop where
  sound : p.standing.Sound plan
  fits : p.CallsFit
  orderly : p.Orderly

/-- The host has made the first call, a creation, and has not seen it return. -/
structure ComingUp (plan : PoolPlan κ) (p : Pool κ) : Prop where
  tended : Tended plan p
  nobody : p.workers = []
  only : ∃ phase, p.calls = [⟨.create, phase⟩] ∧
    (p.status = .destroyed ∧ phase ≠ .returned (.ok ()) ∨
      p.status = .created ∧ phase = .returned (.ok ()))

/-- The host has seen the pool start. The destruction is call `d`, if it has been made. -/
structure Up (plan : PoolPlan κ) (d : Option Nat) (p : Pool κ) : Prop where
  tended : Tended plan p
  settled : p.Settled
  torn : TornDown 0 p
  only : ∀ (j : Nat) phase, p.calls[j]? = some ⟨.destroy, phase⟩ → d = some j
  made : ∀ j, d = some j → ∃ phase, p.calls[j]? = some ⟨.destroy, phase⟩

/-- Destroyed, and everybody has finished. -/
structure Razed (plan : PoolPlan κ) (p : Pool κ) : Prop where
  sound : p.standing.Sound plan
  settled : p.Settled
  destroyed : p.status = .destroyed
  finished : ∀ b ∈ p.standing.crew, b.finished = true

variable {plan : PoolPlan κ} {p q : Pool κ} {m : PoolMove κ} {now : Nat} {d : Option Nat}

/-- The step: a pool stays tended as long as nobody creates it while it is torn down. -/
theorem Tended.step (h : Tended plan p) (moved : Moves plan p now m q)
    (alone : m.isCreation = true → p.isTornDown = false) : Tended plan q :=
  ⟨sound_of_follows h.sound (follows_of_moves moved), h.fits.step moved,
    h.orderly.step h.sound h.fits moved alone⟩

/-- Once no creation is under way the only step of a creation is a new one. -/
theorem Settled.not_creation (settled : p.Settled) (moved : Moves plan p now m q)
    (other : m ≠ .call .create) : m.isCreation = false := by
  cases moved with
  | @calls kind => cases kind <;> first | rfl | exact absurd rfl other
  | @goes i _ c _ _ called goes =>
    have waits := settled c (List.mem_of_getElem? called)
    obtain ⟨kind, phase⟩ := c
    cases goes <;> first | rfl | exact absurd rfl waits
  | reports own => obtain ⟨loop, rfl | rfl⟩ := own <;> rfl
  | works => rfl

/-- The step: unless a creation is called, none comes under way. -/
theorem Settled.step (settled : p.Settled) (moved : Moves plan p now m q)
    (other : m ≠ .call .create) : q.Settled := by
  intro c member
  obtain ⟨i, here⟩ := List.mem_iff_getElem?.1 member
  cases callStep_of_moves moved here with
  | kept same => exact settled c (List.mem_of_getElem? same)
  | made _ move begun =>
    obtain ⟨kind, phase⟩ := c
    cases kind with
    | create => exact absurd move other
    | start => cases begun; nofun
    | stop => cases begun; nofun
    | destroy => cases begun; nofun
  | gone _ goes =>
    obtain ⟨kind, phase⟩ := c
    cases goes <;> nofun

/-! ## Razed pools -/

theorem Razed.remaining (h : Razed plan p) : p.remaining = 0 := by
  have counted : p.remaining = Badge.unfinishedIn p.standing.crew p.current +
    p.standing.waitingIn p.current := h.sound.counted p.current
  have nobody : Badge.unfinishedIn p.standing.crew p.current = 0 :=
    List.countP_eq_zero.2 fun b member => by simp [h.finished b member]
  rw [counted, nobody, waitingIn_of_no_slots (h.sound.destroyed h.destroyed)]

/-- Nobody is left of a pool that has been razed. -/
theorem Razed.drained (h : Razed plan p) : Drained plan p :=
  drained_of_finished h.remaining fun _ member => h.finished _ (List.mem_map_of_mem member)

/-- Nothing but a creation turns where a razed pool stands. -/
theorem Razed.standing_eq (h : Razed plan p) (moved : Moves plan p now m q)
    (other : m ≠ .call .create) : q.standing = p.standing := by
  rcases follows_of_moves moved with same | turned
  · exact same
  have was : p.standing.status = .destroyed := h.destroyed
  have finished := h.finished
  have creation := h.settled.not_creation moved other
  generalize p.standing = s, q.standing = t at turned was finished
  cases turned with
  | created => cases creation
  | started before => exact absurd (was.symm.trans before) nofun
  | stopped before => exact absurd (was.symm.trans before) nofun
  | discarded before => exact absurd (was.symm.trans before) nofun
  | destroyed before => exact absurd (was.symm.trans before) nofun
  | finished launched busy =>
    have gone := finished _ (List.mem_of_getElem? launched)
    exact absurd (busy.symm.trans gone) nofun

/-- The step: a razed pool stays razed, unless it is created again. -/
theorem Razed.step (h : Razed plan p) (moved : Moves plan p now m q)
    (other : m ≠ .call .create) : Razed plan q := by
  have same := h.standing_eq moved other
  exact ⟨same ▸ h.sound, h.settled.step moved other, (congrArg PoolStanding.status same).trans
    h.destroyed, same ▸ h.finished⟩

/-! ## Results -/

theorem result?_iff {i : Nat} {r : Except ServiceError Unit} :
    p.result? i = some r ↔ ∃ kind, p.calls[i]? = some ⟨kind, .returned r⟩ := by
  unfold result?
  constructor
  · intro returned
    split at returned
    · next kind r' called => cases returned; exact ⟨kind, called⟩
    · cases returned
  · rintro ⟨kind, called⟩
    rw [called]

/-- A result does not change any more. -/
theorem result?_kept (moved : Moves plan p now m q) {i : Nat} {r : Except ServiceError Unit}
    (returned : p.result? i = some r) : q.result? i = some r := by
  obtain ⟨kind, called⟩ := result?_iff.1 returned
  obtain ⟨phase, here, stays⟩ := call_kept moved called
  exact result?_iff.2 ⟨kind, (stays r rfl) ▸ here⟩

/-! ## Pools that come up -/

/-- The first creation of a new pool brings it on its way. -/
theorem comingUp_of_create (fresh : p = Pool.fresh plan)
    (moved : Moves plan p now (.call .create) q) : ComingUp plan q := by
  subst fresh
  have uncalled : (Pool.fresh plan).CallsFit := fun i c called => by simp [Pool.fresh] at called
  have before : Tended plan (Pool.fresh plan) := ⟨sound_fresh, uncalled, orderly_fresh⟩
  have tended := before.step moved fun _ => rfl
  cases moved with
  | @calls _ q' phase begun =>
    cases begun
    refine ⟨tended, rfl, _, rfl, .inl ⟨rfl, ?_⟩⟩
    unfold beginCreate
    split
    · intro same
      cases same
    · have free : ¬ (Pool.fresh plan).status ≠ .destroyed := not_not_intro rfl
      rw [if_neg free]
      intro same
      cases same
  | goes _ goes => cases goes
  | reports own => obtain ⟨loop, h | h⟩ := own <;> cases h

/-- The first creation succeeds when its preparation does. -/
theorem prepared_of_create (fresh : p = Pool.fresh plan) (threads : 0 < plan.threads)
    (made : p.after? plan ⟨now, .call .create⟩ = some q) (later : Nat) :
    ∃ r, q.after? plan ⟨later, .prepared 0 (.ok ())⟩ = some r ∧ r.result? 0 = some (.ok ()) := by
  subst fresh
  have waits : (Pool.fresh plan).beginCreate plan = .settingUp := by
    unfold beginCreate
    rw [if_neg (Nat.ne_of_gt threads)]
    rfl
  simp only [after?, step, beginCall, waits] at made
  cases made
  exact ⟨_, rfl, rfl⟩

theorem ComingUp.not_tornDown (h : ComingUp plan p) : p.isTornDown = false := by
  obtain ⟨phase, calls, -⟩ := h.only
  rw [isTornDown, calls]
  cases phase <;> rfl

/-- The step: a pool that comes up goes on doing so. -/
theorem ComingUp.step (h : ComingUp plan p) (moved : Moves plan p now m q)
    (own : m.isCall = false) : ComingUp plan q := by
  have tended := h.tended.step moved fun _ => h.not_tornDown
  obtain ⟨phase, calls, stands⟩ := h.only
  cases moved with
  | calls => cases own
  | @goes i _ c q' phase' called goes =>
    refine ⟨tended, (callGoes_workers goes).trans h.nobody, ?_⟩
    have first : i = 0 ∧ c = ⟨.create, phase⟩ := by
      rw [calls] at called
      obtain ⟨within, same⟩ := List.getElem?_eq_some_iff.1 called
      have zero : i = 0 := by simpa using within
      subst zero
      exact ⟨rfl, same.symm⟩
    obtain ⟨rfl, rfl⟩ := first
    have fits := h.tended.fits 0 _ called
    have only (q'' : Pool κ) (same : q''.calls = p.calls) :
        (q''.setCall 0 phase').calls = [⟨.create, phase'⟩] := by
      simp only [setCall, same, calls]
      rfl
    cases goes with
    | refused =>
      rcases stands with ⟨was, -⟩ | ⟨-, gone⟩
      · exact ⟨_, only p rfl, .inl ⟨was, fun same => by cases same⟩⟩
      · cases gone
    | overtaken busy =>
      rcases stands with ⟨was, -⟩ | ⟨-, gone⟩
      · exact absurd was busy
      · cases gone
    | created => exact ⟨_, only _ rfl, .inr ⟨rfl, rfl⟩⟩
    | silenced => cases fits
    | drained => cases fits
    | joined => cases fits
  | reports => exact ⟨tended, h.nobody, phase, calls, stands⟩
  | works launched =>
    rw [h.nobody] at launched
    cases launched

/-- The only result of a pool that comes up is that of its creation. -/
theorem ComingUp.result (h : ComingUp plan p) {i : Nat} {r : Except ServiceError Unit}
    (returned : p.result? i = some r) : p.calls = [⟨.create, .returned r⟩] ∧
      (p.status = .destroyed ∧ r ≠ .ok () ∨ p.status = .created ∧ r = .ok ()) := by
  obtain ⟨phase, calls, stands⟩ := h.only
  obtain ⟨kind, called⟩ := result?_iff.1 returned
  rw [calls] at called
  have only := List.mem_singleton.1 (List.mem_of_getElem? called)
  cases only
  refine ⟨calls, ?_⟩
  rcases stands with ⟨was, bad⟩ | ⟨was, good⟩
  · exact .inl ⟨was, fun good => bad (congrArg _ good)⟩
  · cases good
    exact .inr ⟨was, rfl⟩

/-- A creation that fails leaves a razed pool. -/
theorem ComingUp.failed (h : ComingUp plan p) {i : Nat} {e : ServiceError}
    (bad : p.result? i = some (.error e)) : Razed plan p := by
  obtain ⟨calls, ⟨was, -⟩ | ⟨-, good⟩⟩ := h.result bad
  · refine ⟨h.tended.sound, fun c member => ?_, was, fun b member => ?_⟩
    · rw [calls, List.mem_singleton] at member
      rw [member]
      nofun
    · rw [standing, h.nobody] at member
      cases member
  · cases good

/-- A creation that succeeds is followed by a start that succeeds. -/
theorem ComingUp.started (h : ComingUp plan p) {i : Nat} (good : p.result? i = some (.ok ()))
    (moved : Moves plan p now (.call .start) q) :
    Up plan none q ∧ q.result? p.calls.length = some (.ok ()) := by
  have tended := h.tended.step moved fun creates => by cases creates
  obtain ⟨calls, ⟨-, bad⟩ | ⟨was, -⟩⟩ := h.result good
  · exact absurd rfl bad
  have all : q.calls = [⟨.create, .returned (.ok ())⟩, ⟨.start, .returned (.ok ())⟩] ∧
      q.status = .started := by
    cases moved with
    | @calls _ q' phase begun =>
      cases begun
      refine ⟨?_, ?_⟩
      · show (p.launch now).calls ++ _ = _
        rw [show (p.launch now).calls = p.calls from beginCall_calls plan p now .start, calls]
        rfl
      · simp only [launch, ServiceStatus.move, if_pos was]
    | goes _ goes => cases goes
    | reports own => obtain ⟨loop, h | h⟩ := own <;> cases h
  obtain ⟨both, on⟩ := all
  have undestroyed (j : Nat) (phase : CallPhase) : q.calls[j]? ≠ some ⟨.destroy, phase⟩ := by
    intro here
    have member := List.mem_of_getElem? here
    rw [both] at member
    rcases List.mem_cons.1 member with same | member
    · cases same
    · cases List.mem_singleton.1 member
  have settled : q.Settled := by
    intro c member waits
    rw [both] at member
    rcases List.mem_cons.1 member with rfl | member
    · cases waits
    · cases List.mem_singleton.1 member
      cases waits
  refine ⟨⟨tended, settled, ⟨Nat.le_of_eq (congrArg _ on.symm), ?_⟩, ?_,
    fun j is => by cases is⟩, ?_⟩
  · exact fun j phase _ here => absurd here (undestroyed j phase)
  · exact fun j phase here => absurd here (undestroyed j phase)
  · exact result?_iff.2 ⟨.start, by rw [both, calls]; rfl⟩

/-! ## Pools that are up -/

/-- The step: a pool that is up stays so, whatever it does and also when it is stopped. -/
theorem Up.step (h : Up plan d p) (moved : Moves plan p now m q) (other : m ≠ .call .create)
    (last : m ≠ .call .destroy) : Up plan d q := by
  have creation := h.settled.not_creation moved other
  refine ⟨h.tended.step moved fun creates => ?_, h.settled.step moved other,
    h.torn.step moved creation, fun j phase here => ?_, fun j is => ?_⟩
  · exact absurd (creation.symm.trans creates) nofun
  · cases callStep_of_moves moved here with
    | kept same => exact h.only j phase same
    | made _ move => exact absurd move last
    | gone called => exact h.only j _ called
  · obtain ⟨phase, called⟩ := h.made j is
    obtain ⟨phase', here, -⟩ := call_kept moved called
    exact ⟨phase', here⟩

/-- The host destroys the pool. -/
theorem Up.destroying (h : Up plan none p) (moved : Moves plan p now (.call .destroy) q) :
    Up plan (some p.calls.length) q := by
  refine ⟨h.tended.step moved nofun, h.settled.step moved nofun, h.torn.step moved rfl,
    fun j phase here => ?_, fun j is => ?_⟩
  · cases callStep_of_moves moved here with
    | kept same => exact absurd (h.only j phase same) nofun
    | made none _ _ whole =>
      rw [whole] at here
      have within := (List.getElem?_eq_some_iff.1 here).1
      have beyond := List.getElem?_eq_none_iff.1 none
      simp only [List.length_append, List.length_singleton] at within
      exact congrArg some (by omega)
    | gone called => exact absurd (h.only j _ called) nofun
  · cases is
    cases moved with
    | @calls _ q' phase begun =>
      have same : q'.calls = p.calls := by
        have := beginCall_calls plan p now .destroy
        rwa [begun] at this
      exact ⟨phase, by simp [same]⟩
    | goes _ goes => cases goes
    | reports own => obtain ⟨loop, h | h⟩ := own <;> cases h

/-- When the destruction returns the pool is razed. -/
theorem Up.razed {i : Nat} {r : Except ServiceError Unit} (h : Up plan (some i) p)
    (returned : p.result? i = some r) : Razed plan p := by
  obtain ⟨phase, called⟩ := h.made i rfl
  obtain ⟨kind, here⟩ := result?_iff.1 returned
  cases called.symm.trans here
  have destroyed : p.status = .destroyed := by
    rcases (h.torn.called i _ (Nat.zero_le i) called).2 with ⟨loop, silencing⟩ | destroyed
    · cases silencing
    · exact destroyed
  have none : p.remaining = 0 := by
    rcases h.tended.orderly.ended destroyed with none | ⟨j, draining⟩
    · exact none
    · cases h.only j _ draining
      cases called.symm.trans draining
  exact ⟨h.tended.sound, h.settled, destroyed,
    finished_of_remaining h.tended.sound h.tended.orderly.older none⟩

end Pool

end LoadHarness
