import LoadHarness.Proofs.Lifecycle.Calls
import LoadHarness.Proofs.Lifecycle.Sound

/-!
# Draining a pool

Of several destructions of a stopped pool one waits for its workers and the others return at once.
`drained_or_draining` says what that leaves of a destruction's promise: when one returns, all
workers have finished, or another one is still waiting for them.
-/

namespace LoadHarness

variable {κ : Type}

/-- A step of a creation. -/
def PoolMove.isCreation : PoolMove κ → Bool
  | .call .create => true
  | .prepared _ _ => true
  | _ => false

/-- A stop or a destruction that has not returned. -/
def PoolCall.isTeardown (c : PoolCall) : Bool :=
  match c.kind, c.phase with
  | _, .returned _ => false
  | .stop, _ => true
  | .destroy, _ => true
  | _, _ => false

/-- A call that waits until a generation has no workers left. -/
def PoolCall.isDraining (c : PoolCall) : Bool :=
  match c.phase with
  | .draining _ => true
  | _ => false

open Generation PoolStanding

namespace Pool

/-- A stop or a destruction is under way. -/
def isTornDown (p : Pool κ) : Bool := p.calls.any (·.isTeardown)

/-- A destruction is waiting until a generation has no workers left. -/
def isDraining (p : Pool κ) : Bool := p.calls.any (·.isDraining)

/-- No creation overlaps a stop or a destruction in a schedule. -/
def apart (plan : PoolPlan κ) : Pool κ → List (PoolEvent κ) → Bool
  | _, [] => true
  | p, e :: es =>
    !(e.move.isCreation && p.isTornDown) && ((p.after? plan e).map fun q => apart plan q es).getD true

/-- Every worker has finished, and none of them ever takes a step again. -/
structure Drained (plan : PoolPlan κ) (p : Pool κ) : Prop where
  none_remain : p.remaining = 0
  all_finished : ∀ w ∈ p.workers, w.isFinished = true
  for_ever : ∀ {es q}, run plan p es = some q → p.workers <+: q.workers ∧
    ∀ e k m, k < p.workers.length → e.move = .worker k m → q.after? plan e = none

variable {plan : PoolPlan κ} {p q r : Pool κ} {m : PoolMove κ} {now i j : Nat} {e : PoolEvent κ}
  {es fs : List (PoolEvent κ)}

theorem apart_eq : apart plan p es =
    heeds plan (fun p m => !(m.isCreation && p.isTornDown)) p es := by
  induction es generalizing p with
  | nil => rfl
  | cons e es ih =>
    have later : (fun q : Pool κ => apart plan q es) = fun q => heeds plan _ q es := funext fun _ => ih
    rw [apart, heeds, later]

/-- A schedule is apart if its parts are. -/
theorem apart_append (ran : run plan p es = some q) :
    apart plan p (es ++ fs) = (apart plan p es && apart plan q fs) := by
  rw [apart_eq, apart_eq, apart_eq, heeds_append ran]

/-- Without creations every schedule is. -/
theorem apart_of_no_creation (none : ∀ e ∈ es, e.move.isCreation = false) :
    apart plan p es = true := by
  induction es generalizing p with
  | nil => rfl
  | cons e es ih =>
    have later (q : Pool κ) : apart plan q es = true :=
      ih fun e member => none e (List.mem_cons_of_mem _ member)
    have here := none e List.mem_cons_self
    simp only [apart, here, Bool.false_and, Bool.not_false, Bool.true_and, later]
    cases p.after? plan e <;> rfl

/-! ## Workers that have finished -/

/-- A step changes no worker that has finished. -/
theorem workers_of_moves (moved : Moves plan p now m q) :
    p.workers <+: q.workers ∨
      ∃ i w w', p.workers[i]? = some w ∧ w.isFinished = false ∧ q.workers = p.workers.set i w' := by
  cases moved with
  | @calls kind q' phase begun =>
    refine .inl ?_
    cases kind with
    | create => cases begun; exact List.prefix_refl _
    | start =>
      cases begun
      simp only [launch]
      split
      · exact List.prefix_refl _
      · exact List.prefix_append _ _
    | stop => cases begun; exact p.halt_workers.symm ▸ List.prefix_refl _
    | destroy => cases begun; exact p.halt_workers.symm ▸ List.prefix_refl _
  | goes _ goes => exact .inl (callGoes_workers goes ▸ List.prefix_refl _)
  | reports => exact .inl (List.prefix_refl _)
  | @works i w m q launched goes =>
    refine .inr ⟨i, w, ?_⟩
    cases goes with
    | works w' _ _ busy => exact ⟨w', launched, busy, rfl⟩
    | faults failing =>
      refine ⟨{ w with phase := .leaving }, launched, by simp [Worker.isFinished, failing], ?_⟩
      simp only [setPhase, halt_workers, modify_workers launched]
    | releases leaving =>
      refine ⟨{ w with phase := .finished }, launched, by simp [Worker.isFinished, leaving], ?_⟩
      simp only [setPhase, release, modify_workers launched]

/-- Workers that have all finished stay as they are. -/
theorem workers_kept (all : ∀ w ∈ p.workers, w.isFinished = true)
    (ran : run plan p es = some q) : p.workers <+: q.workers := by
  refine run_induction (fun _ q => p.workers <+: q.workers) (List.prefix_refl _) ?_ ran
  intro es q e r _ ih made
  rcases workers_of_moves (moves_of_after made) with grown | ⟨i, w, w', launched, busy, set⟩
  · exact ih.trans grown
  · obtain ⟨rest, whole⟩ := ih
    have beyond : p.workers.length ≤ i := by
      refine Nat.le_of_not_lt fun within => ?_
      rw [← whole, List.getElem?_append_left within] at launched
      have := all w (List.mem_of_getElem? launched)
      rw [busy] at this
      cases this
    rw [set, ← whole, List.set_append_right _ _ beyond]
    exact List.prefix_append _ _

/-- A worker that has finished takes no step. -/
theorem after_of_finished {k : Nat} {w : Worker κ} {m : WorkerMove κ}
    (launched : p.workers[k]? = some w) (gone : w.isFinished = true) (move : e.move = .worker k m) :
    p.after? plan e = none := by
  have finished : w.phase = .finished := by
    unfold Worker.isFinished at gone
    split at gone
    · assumption
    · cases gone
  have stuck : workerStep plan p e.now k w .finished m = none := by cases m <;> rfl
  simp only [after?, step, move, launched, finished, stuck, Option.map_none]

/-- A pool whose workers have all finished is drained. -/
theorem drained_of_finished (none : p.remaining = 0)
    (all : ∀ w ∈ p.workers, w.isFinished = true) : Drained plan p := by
  refine ⟨none, all, fun ran => ⟨workers_kept all ran, fun e k m within move => ?_⟩⟩
  obtain ⟨w, launched⟩ : ∃ w, p.workers[k]? = some w := ⟨_, List.getElem?_eq_getElem within⟩
  obtain ⟨rest, whole⟩ := workers_kept all ran
  refine after_of_finished ?_ (all w (List.mem_of_getElem? launched)) move
  rw [← whole, List.getElem?_append_left within]
  exact launched

/-! ## Who waits for workers -/

/-- Only the current generation may have unfinished workers, only it is waited for, once the pool is
destroyed, and if it has some then it is. -/
structure Orderly (p : Pool κ) : Prop where
  older : ∀ b ∈ p.standing.crew, b.generation < p.current → b.finished = true
  own : ∀ (j : Nat) c g, p.calls[j]? = some c → c.phase = .draining g →
    g = p.current ∧ p.status = .destroyed
  ended : p.status = .destroyed →
    p.remaining = 0 ∨ ∃ j : Nat, p.calls[j]? = some ⟨.destroy, .draining p.current⟩

/-- A generation without unfinished workers, after others that have none either. -/
theorem finished_of_remaining (sound : p.standing.Sound plan)
    (older : ∀ b ∈ p.standing.crew, b.generation < p.current → b.finished = true)
    (none : p.remaining = 0) : ∀ b ∈ p.standing.crew, b.finished = true := by
  intro b member
  have counted : p.remaining = Badge.unfinishedIn p.standing.crew p.current +
    p.standing.waitingIn p.current := sound.counted p.current
  have all : Badge.unfinishedIn p.standing.crew p.current = 0 := by omega
  have rank : b.generation ≤ p.current := sound.ranked b member
  by_cases own : b.generation = p.current
  · have := List.countP_eq_zero.1 all b member
    simpa [own] using this
  · exact older b member (by omega)

/-- A call that drains makes the pool one that is being drained. -/
theorem isDraining_of_called {c : PoolCall} {g : Nat} (called : p.calls[j]? = some c)
    (waits : c.phase = .draining g) : p.isDraining = true := by
  have draining : c.isDraining = true := by rw [PoolCall.isDraining, waits]
  exact List.any_eq_true.2 ⟨c, List.mem_of_getElem? called, draining⟩

/-- Whoever waits for workers is a destruction under way. -/
theorem isTornDown_of_isDraining (fits : p.CallsFit) (waits : p.isDraining = true) :
    p.isTornDown = true := by
  obtain ⟨c, member, draining⟩ := List.any_eq_true.1 waits
  obtain ⟨j, called⟩ := List.getElem?_of_mem member
  have fit := fits j c called
  have teardown : c.isTeardown = true := by
    obtain ⟨kind, phase⟩ := c
    cases phase with
    | draining => cases kind <;> first | rfl | cases fit
    | _ => cases draining
  exact List.any_eq_true.2 ⟨c, member, teardown⟩

/-- When a pool is destroyed and nobody waits for workers, all of them have finished. -/
theorem Orderly.cleared (h : p.Orderly) (sound : p.standing.Sound plan)
    (free : p.status = .destroyed) (quiet : p.isDraining = false) :
    ∀ b ∈ p.standing.crew, b.finished = true := by
  rcases h.ended free with none | ⟨j, draining⟩
  · exact finished_of_remaining sound h.older none
  · have waits := isDraining_of_called draining rfl
    exact absurd (quiet.symm.trans waits) nofun

/-- Only the end of a preparation makes a destroyed pool a created one. -/
theorem prepared_of_turn {s t : PoolStanding κ} (turned : Turns plan m s t)
    (free : s.status = .destroyed) (created : t.status = .created) :
    ∃ call, m = .prepared call (.ok ()) := by
  cases turned with
  | created => exact ⟨_, rfl⟩
  | started => cases created
  | stopped => cases created
  | discarded => cases created
  | destroyed => cases created
  | finished => exact absurd (free.symm.trans created) nofun

/-- A destroyed pool becomes created by a preparation that went well. -/
theorem prepared_of_follows (follows : Follows plan m p q) (free : p.status = .destroyed)
    (created : q.status = .created) : ∃ call, m = .prepared call (.ok ()) := by
  rcases follows with same | turned
  · have status : q.status = p.status := congrArg PoolStanding.status same
    exact absurd (free.symm.trans (status.symm.trans created)) nofun
  · exact prepared_of_turn turned free created

/-- It does so in no other way. -/
theorem not_created_of_other (follows : Follows plan m p q) (other : m.isCreation = false)
    (free : p.status = .destroyed) : q.status ≠ .created := by
  intro created
  obtain ⟨call, rfl⟩ := prepared_of_follows follows free created
  cases other

/-- A turn other than a creation leaves the current generation. -/
theorem current_of_turn {s t : PoolStanding κ} (turned : Turns plan m s t)
    (other : s.status = .destroyed → t.status ≠ .created) : t.current = s.current := by
  cases turned with
  | created free => exact absurd rfl (other free)
  | started => rfl
  | stopped => exact current_of_length (List.length_modify _ _ _)
  | discarded => exact current_of_length (List.length_modify _ _ _)
  | destroyed => rfl
  | finished => exact current_of_length (List.length_modify _ _ _)

/-- Nor does it make the current generation larger. -/
theorem remaining_of_turn {s t : PoolStanding κ} (turned : Turns plan m s t)
    (other : s.status = .destroyed → t.status ≠ .created) :
    remainingIn t.generations t.current ≤ remainingIn s.generations s.current := by
  rw [current_of_turn turned other]
  cases turned with
  | created free => exact absurd rfl (other free)
  | started => exact Nat.le_refl _
  | stopped => exact Nat.le_of_eq (remainingIn_cancel _ _)
  | discarded => exact remainingIn_release _ _ _ ▸ Nat.sub_le _ _
  | destroyed => exact Nat.le_refl _
  | finished => exact remainingIn_release _ _ _ ▸ Nat.sub_le _ _

/-- The current generation changes by a creation alone. -/
theorem current_of_follows (follows : Follows plan m p q)
    (other : p.status = .destroyed → q.status ≠ .created) : q.current = p.current :=
  follows.lift
    (R := fun s t => (s.status = .destroyed → t.status ≠ .created) → t.current = s.current)
    (fun _ _ => rfl) current_of_turn other

/-- Without a creation the workers only become fewer. -/
theorem remaining_of_follows (follows : Follows plan m p q)
    (other : p.status = .destroyed → q.status ≠ .created) : q.remaining ≤ p.remaining :=
  follows.lift
    (R := fun s t => (s.status = .destroyed → t.status ≠ .created) →
      remainingIn t.generations t.current ≤ remainingIn s.generations s.current)
    (fun _ _ => Nat.le_refl _) remaining_of_turn other

/-- A call that waits for workers goes on waiting, unless there are none left. -/
theorem draining_kept (moved : Moves plan p now m q) {c : PoolCall} {g : Nat}
    (called : p.calls[j]? = some c) (waits : c.phase = .draining g) :
    q.calls[j]? = some c ∨ p.remainingOf g = 0 := by
  obtain ⟨phase, here, -⟩ := call_kept moved called
  cases callStep_of_moves moved here with
  | kept same => exact .inl (called.symm.trans same ▸ here)
  | made none => exact absurd (called.symm.trans none) nofun
  | gone called' goes =>
    obtain ⟨kind, phase'⟩ := c
    cases called.symm.trans called'
    cases waits
    cases goes with
    | drained none => exact .inr none

/-- A stopped pool is destroyed by a destruction that goes on. -/
theorem proceed_of_destroyed {s t : PoolStanding κ} (turned : Turns plan m s t)
    (was : s.status = .stopped) (ended : t.status = .destroyed) : ∃ call, m = .proceed call := by
  cases turned with
  | created => cases ended
  | started => cases ended
  | stopped => cases ended
  | discarded created => exact absurd (was.symm.trans created) nofun
  | destroyed => exact ⟨_, rfl⟩
  | finished => exact absurd (was.symm.trans ended) nofun

/-- A pool that was stopped and then destroyed is waited for. -/
theorem draining_of_destroyed (moved : Moves plan p now m q) (was : p.status = .stopped)
    (ended : q.status = .destroyed) :
    ∃ j : Nat, q.calls[j]? = some ⟨.destroy, .draining p.current⟩ := by
  have proceeds : ∃ call, m = .proceed call := by
    rcases follows_of_moves moved with same | turned
    · have status : q.status = p.status := congrArg PoolStanding.status same
      exact absurd (was.symm.trans (status.symm.trans ended)) nofun
    · exact proceed_of_destroyed turned was ended
  obtain ⟨call, rfl⟩ := proceeds
  cases moved with
  | reports own => obtain ⟨loop, tick | silence⟩ := own <;> contradiction
  | @goes i _ c q' phase called goes =>
    have unmoved (same : q' = p) : ∃ j : Nat,
        (q'.setCall i phase).calls[j]? = some ⟨.destroy, .draining p.current⟩ := by
      rw [same] at ended
      exact absurd (was.symm.trans ended) nofun
    obtain ⟨kind, waits⟩ := c
    cases goes with
    | drains => exact ⟨_, setCall_here called _⟩
    | discarded created => exact absurd (was.symm.trans created) nofun
    | silenced => exact unmoved rfl
    | ignored => exact unmoved rfl
    | drained => exact absurd (was.symm.trans ended) nofun
    | joined => exact unmoved rfl

/-- Only a creation makes a generation an older one. -/
theorem older_of_turn {s t : PoolStanding κ} (turned : Turns plan m s t)
    (older : ∀ b ∈ s.crew, b.generation < s.current → b.finished = true)
    (cleared : s.status = .destroyed → t.status = .created → ∀ b ∈ s.crew, b.finished = true) :
    ∀ b ∈ t.crew, b.generation < t.current → b.finished = true := by
  have kept (other : s.status = .destroyed → t.status ≠ .created) (b : Badge) (member : b ∈ s.crew)
      (before : b.generation < t.current) : b.finished = true := by
    rw [current_of_turn turned other] at before
    exact older b member before
  cases turned with
  | created free => exact fun b member _ => cleared free rfl b member
  | started =>
    intro b member before
    rcases List.mem_append.1 member with old | new
    · exact kept (fun _ => nofun) b old before
    · obtain ⟨x, -, rfl⟩ := List.mem_map.1 new
      exact absurd before (Nat.lt_irrefl _)
  | stopped => exact kept fun _ => nofun
  | discarded => exact kept fun _ => nofun
  | destroyed => exact kept fun _ => nofun
  | finished =>
    intro b member before
    rcases List.mem_or_eq_of_mem_set member with old | rfl
    · exact kept (fun free created => absurd (free.symm.trans created) nofun) b old before
    · rfl

/-- The step: earlier generations stay finished. -/
theorem Orderly.older_step (h : p.Orderly) (sound : p.standing.Sound plan)
    (follows : Follows plan m p q)
    (quiet : p.status = .destroyed → q.status = .created → p.isDraining = false) :
    ∀ b ∈ q.standing.crew, b.generation < q.current → b.finished = true := by
  rcases follows with same | turned
  · have current : q.current = p.current := congrArg PoolStanding.current same
    rw [same, current]
    exact h.older
  · exact older_of_turn turned h.older
      fun free created => h.cleared sound free (quiet free created)

/-- No call waits for workers from the start. -/
theorem not_draining_of_beginCall {kind : LifecycleCall} {phase : CallPhase} {g : Nat}
    (begun : p.beginCall plan now kind = (q, phase)) : phase ≠ .draining g := by
  rintro rfl
  cases kind with
  | create =>
    have phase_eq : p.beginCreate plan = .draining g := congrArg Prod.snd begun
    unfold beginCreate at phase_eq
    split at phase_eq
    · cases phase_eq
    · split at phase_eq <;> cases phase_eq
  | start => cases begun
  | stop => cases begun
  | destroy => cases begun

/-- The step: whoever drains drains the current generation. -/
theorem Orderly.own_step (h : p.Orderly) (moved : Moves plan p now m q)
    (quiet : p.status = .destroyed → q.status = .created → p.isDraining = false) {c : PoolCall}
    {g : Nat} (here : q.calls[j]? = some c) (waits : c.phase = .draining g) :
    g = q.current ∧ q.status = .destroyed := by
  have follows := follows_of_moves moved
  cases callStep_of_moves moved here with
  | kept called =>
    have draining := isDraining_of_called called waits
    have uncreated : p.status = .destroyed → q.status ≠ .created :=
      fun free created => absurd ((quiet free created).symm.trans draining) nofun
    obtain ⟨own, ended⟩ := h.own j c g called waits
    refine ⟨own.trans (current_of_follows follows uncreated).symm, ?_⟩
    rcases status_of_follows follows with same | next
    · exact same.trans ended
    · rw [ended] at next
      generalize status : q.status = s at next
      cases next
      exact absurd status (uncreated ended)
  | made _ _ begun => exact absurd waits (not_draining_of_beginCall begun)
  | gone _ goes whole =>
    obtain ⟨kind, phase⟩ := c
    cases waits
    cases goes with
    | drains =>
      have current := current_of_follows follows (not_created_of_other follows rfl)
      exact ⟨current.symm, by rw [whole]; rfl⟩

/-- A pool that never started is destroyed without any of its workers. -/
theorem crew_of_discarded {s t : PoolStanding κ} (turned : Turns plan m s t)
    (was : s.status = .created) (ended : t.status = .destroyed) : t.crew = s.crew := by
  cases turned with
  | created => cases ended
  | started => cases ended
  | stopped => cases ended
  | discarded => rfl
  | destroyed => rfl
  | finished => exact absurd (was.symm.trans ended) nofun

/-- A pool that was destroyed before its start has nobody left to wait for. -/
theorem remaining_of_discarded (sound : q.standing.Sound plan) (follows : Follows plan m p q)
    (older : ∀ b ∈ p.standing.crew, b.generation < p.current) (was : p.status = .created)
    (ended : q.status = .destroyed) : q.remaining = 0 := by
  have crew : q.standing.crew = p.standing.crew := by
    rcases follows with same | turned
    · exact congrArg _ same
    · exact crew_of_discarded turned was ended
  have current : q.standing.current = p.standing.current :=
    current_of_follows follows fun _ created => absurd (ended.symm.trans created) nofun
  have counted : q.remaining = Badge.unfinishedIn q.standing.crew q.standing.current +
    q.standing.waitingIn q.standing.current := sound.counted q.current
  have launched : Badge.unfinishedIn q.standing.crew q.standing.current = 0 := by
    rw [crew, current]
    exact Badge.unfinishedIn_eq_zero older
  rw [counted, launched, waitingIn_of_no_slots (sound.destroyed ended)]

/-- The step: a destroyed pool has nobody left, or somebody drains it. -/
theorem Orderly.ended_step (h : p.Orderly) (sound : q.standing.Sound plan)
    (created : p.status = .created → ∀ b ∈ p.standing.crew, b.generation < p.current)
    (moved : Moves plan p now m q) (ended : q.status = .destroyed) :
    q.remaining = 0 ∨ ∃ j : Nat, q.calls[j]? = some ⟨.destroy, .draining q.current⟩ := by
  have follows := follows_of_moves moved
  have uncreated : p.status = .destroyed → q.status ≠ .created :=
    fun _ created => absurd (ended.symm.trans created) nofun
  have current := current_of_follows follows uncreated
  have fewer := remaining_of_follows follows uncreated
  cases was : p.status with
  | created => exact .inl (remaining_of_discarded sound follows (created was) was ended)
  | started =>
    rcases status_of_follows follows with same | next
    · exact absurd (was.symm.trans (same.symm.trans ended)) nofun
    · rw [was, ended] at next
      cases next
  | stopped =>
    rw [current]
    exact .inr (draining_of_destroyed moved was ended)
  | destroyed =>
    rcases h.ended was with none | ⟨j, draining⟩
    · exact .inl (by omega)
    · rcases draining_kept moved draining rfl with still | none
      · exact .inr ⟨j, current ▸ still⟩
      · have none : p.remaining = 0 := none
        exact .inl (by omega)

/-- The step: whatever happens keeps the order, unless a generation begins while another one is
still waited for. -/
theorem Orderly.quiet_step (h : p.Orderly) (sound : p.standing.Sound plan)
    (moved : Moves plan p now m q)
    (quiet : p.status = .destroyed → q.status = .created → p.isDraining = false) : q.Orderly := by
  have follows := follows_of_moves moved
  refine ⟨h.older_step sound follows quiet, fun j c g => h.own_step moved quiet, ?_⟩
  exact h.ended_step (sound_of_follows sound follows) (fun was => (sound.created was).2.2) moved

/-- So it is when creations are apart from all destructions. -/
theorem Orderly.step (h : p.Orderly) (sound : p.standing.Sound plan) (fits : p.CallsFit)
    (moved : Moves plan p now m q) (alone : m.isCreation = true → p.isTornDown = false) :
    q.Orderly := by
  refine h.quiet_step sound moved fun free created => Bool.eq_false_iff.2 fun waits => ?_
  obtain ⟨call, rfl⟩ := prepared_of_follows (follows_of_moves moved) free created
  have teardown := isTornDown_of_isDraining fits waits
  exact absurd ((alone rfl).symm.trans teardown) nofun

theorem orderly_fresh : (fresh plan).Orderly := by
  refine ⟨nofun, ?_, fun _ => .inl rfl⟩
  intro j c g called
  simp [fresh] at called

/-- The run: creations that are apart from all destructions leave the pool orderly. -/
theorem orderly_of_run (alone : apart plan (fresh plan) es = true)
    (ran : run plan (fresh plan) es = some p) : p.Orderly := by
  refine run_induction
    (fun es p => apart plan (fresh plan) es = true → p.Orderly) (fun _ => orderly_fresh) ?_ ran alone
  intro es q e r ran ih made alone
  rw [apart_append ran, Bool.and_eq_true] at alone
  obtain ⟨before, now⟩ := alone
  refine (ih before).step (sound_of_run ran) (callsFit_of_run ran) (moves_of_after made) ?_
  intro creation
  simp only [apart, creation, Bool.true_and, Bool.and_eq_true] at now
  simpa using now.1

/-! ## Tearing a started pool down -/

/-- Without creations a status never falls back. -/
theorem rank_of_turn {s t : PoolStanding κ} (turned : Turns plan m s t)
    (other : m.isCreation = false) : s.status.rank ≤ t.status.rank := by
  cases turned with
  | created => cases other
  | started was => rw [was]; exact Nat.le_of_ble_eq_true rfl
  | stopped was => rw [was]; exact Nat.le_of_ble_eq_true rfl
  | discarded was => rw [was]; exact Nat.le_of_ble_eq_true rfl
  | destroyed was => rw [was]; exact Nat.le_of_ble_eq_true rfl
  | finished => exact Nat.le_refl _

/-- Without a creation the status only goes forward. -/
theorem rank_of_follows (follows : Follows plan m p q) (other : m.isCreation = false) :
    p.status.rank ≤ q.status.rank :=
  follows.lift (R := fun s t => s.status.rank ≤ t.status.rank) (fun _ => Nat.le_refl _)
    fun turned => rank_of_turn turned other

theorem halt_rank (begun : ServiceStatus.started.rank ≤ p.status.rank) :
    ServiceStatus.stopped.rank ≤ p.halt.status.rank := by
  unfold halt ServiceStatus.move
  by_cases was : p.status = .started
  · simp [was]
  · simp only [if_neg was]
    cases here : p.status with
    | created => rw [here] at begun; exact absurd begun (by decide)
    | started => exact absurd here was
    | stopped => decide
    | destroyed => decide

/-- Of a pool that was started when it had `n` calls: the destructions made since have stopped it,
and once past their stop they find it destroyed. -/
structure TornDown (n : Nat) (p : Pool κ) : Prop where
  begun : ServiceStatus.started.rank ≤ p.status.rank
  called : ∀ (i : Nat) phase, n ≤ i → p.calls[i]? = some ⟨.destroy, phase⟩ →
    ServiceStatus.stopped.rank ≤ p.status.rank ∧
      ((∃ loop, phase = .silencing loop) ∨ p.status = .destroyed)

theorem destroyed_of_rank {s t : ServiceStatus} (later : s.rank ≤ t.rank) (was : s = .destroyed) :
    t = .destroyed := by
  subst was
  cases t <;> first | rfl | exact absurd later (by decide)

/-- The step: a destruction that has come so far stays so far. -/
theorem TornDown.step {n : Nat} (h : TornDown n p) (moved : Moves plan p now m q)
    (other : m.isCreation = false) : TornDown n q := by
  have later := rank_of_follows (follows_of_moves moved) other
  refine ⟨Nat.le_trans h.begun later, fun i phase since here => ?_⟩
  cases callStep_of_moves moved here with
  | kept called =>
    obtain ⟨stopped, waits⟩ := h.called i phase since called
    exact ⟨Nat.le_trans stopped later, waits.imp id (destroyed_of_rank later)⟩
  | made _ _ begun whole =>
    cases begun
    exact ⟨whole ▸ halt_rank h.begun, .inl ⟨_, rfl⟩⟩
  | gone called goes whole =>
    obtain ⟨stopped, waits⟩ := h.called i _ since called
    refine ⟨Nat.le_trans stopped later, .inr ?_⟩
    rw [whole]
    cases goes with
    | refused => cases other
    | overtaken => cases other
    | created => cases other
    | silenced kept => exact absurd rfl kept
    | discarded => rfl
    | drains => rfl
    | ignored was =>
      rcases was with started | destroyed
      · rw [started] at stopped
        exact absurd stopped (by decide)
      · exact destroyed
    | drained =>
      rcases waits with ⟨loop, silencing⟩ | destroyed
      · cases silencing
      · exact destroyed
    | joined =>
      rcases waits with ⟨loop, silencing⟩ | destroyed
      · cases silencing
      · exact destroyed

/-- The run: so it is after every schedule without creations. -/
theorem tornDown_of_run (started : p.status = .started)
    (calm : ∀ e ∈ es, e.move.isCreation = false) (ran : run plan p es = some q) :
    TornDown p.calls.length q := by
  refine run_keeps (TornDown p.calls.length) ?_ calm ⟨?_, ?_⟩ ran
  · intro q e r other h made
    exact h.step (moves_of_after made) other
  · exact Nat.le_of_eq (congrArg _ started.symm)
  · intro i phase since called
    rw [List.getElem?_eq_none since] at called
    cases called

/-- Whoever was waiting for the current generation and is not any more has none left. -/
theorem remaining_of_waited {c : PoolCall} (called : p.calls[i]? = some c)
    (waits : c.phase = .draining p.current) (calm : ∀ e ∈ es, e.move.isCreation = false)
    (ran : run plan p es = some q) : q.calls[i]? = some c ∨ q.remaining = 0 := by
  have kept : q.current = p.current ∧ (q.calls[i]? = some c ∨ q.remaining = 0) := by
    refine run_keeps (fun q => q.current = p.current ∧ (q.calls[i]? = some c ∨ q.remaining = 0))
      ?_ calm ⟨rfl, .inl called⟩ ran
    intro q e r other ⟨current, still⟩ made
    have moved := moves_of_after made
    have follows := follows_of_moves moved
    have uncreated := not_created_of_other follows other
    have fewer := remaining_of_follows follows uncreated
    refine ⟨(current_of_follows follows uncreated).trans current, ?_⟩
    rcases still with still | none
    · rcases draining_kept moved still waits with still | none
      · exact .inl still
      · have none : q.remaining = 0 := by
          rw [remaining, current]
          exact none
        exact .inr (by omega)
    · exact .inr (by omega)
  exact kept.2

/-- An orderly pool without workers is drained. -/
theorem Orderly.drained (h : p.Orderly) (sound : p.standing.Sound plan) (none : p.remaining = 0) :
    Drained plan p := by
  refine drained_of_finished none fun w member => ?_
  have badge : w.badge ∈ p.standing.crew := List.mem_map_of_mem member
  exact finished_of_remaining sound h.older none _ badge

/-- **A destruction that returns leaves a drained pool, or one that another is draining.** Whatever
stops and destructions of a started pool overlap and however its workers go on: as long as no
creation overlaps them, a destruction that has returned finds every worker finished for ever, or
another one, which destroyed the pool, still waits for them. One that has waited finds the former. -/
theorem drained_or_draining (plan : PoolPlan κ) {es₀ es : List (PoolEvent κ)} {p₀ p : Pool κ}
    {i : Nat} {result : Except ServiceError Unit}
    (alone : apart plan (fresh plan) es₀ = true) (reached : run plan (fresh plan) es₀ = some p₀)
    (started : p₀.status = .started) (calm : ∀ e ∈ es, e.move.isCreation = false)
    (ran : run plan p₀ es = some p) (since : p₀.calls.length ≤ i)
    (returned : p.calls[i]? = some ⟨.destroy, .returned result⟩) :
    (Drained plan p ∨ ∃ j, j ≠ i ∧ p.calls[j]? = some ⟨.destroy, .draining p.current⟩) ∧
    (∀ before after q g, es = before ++ after → run plan p₀ before = some q →
      q.calls[i]? = some ⟨.destroy, .draining g⟩ → Drained plan p) := by
  have whole (part : List (PoolEvent κ)) (calm : ∀ e ∈ part, e.move.isCreation = false)
      (q : Pool κ) (ran : run plan p₀ part = some q) : q.Orderly ∧ q.standing.Sound plan := by
    have all : run plan (fresh plan) (es₀ ++ part) = some q := (run_append_of_run reached).trans ran
    have alone : apart plan (fresh plan) (es₀ ++ part) = true := by
      rw [apart_append reached, alone, apart_of_no_creation calm]
      rfl
    exact ⟨orderly_of_run alone all, sound_of_run all⟩
  obtain ⟨orderly, sound⟩ := whole es calm p ran
  constructor
  · have torn := (tornDown_of_run started calm ran).called i _ since returned
    have destroyed : p.status = .destroyed := by
      rcases torn.2 with ⟨loop, silencing⟩ | destroyed
      · cases silencing
      · exact destroyed
    rcases orderly.ended destroyed with none | ⟨j, draining⟩
    · exact .inl (orderly.drained sound none)
    · refine .inr ⟨j, ?_, draining⟩
      rintro rfl
      cases returned.symm.trans draining
  · rintro before after q g rfl first draining
    obtain ⟨calm₀, calm₁⟩ := List.forall_mem_append.1 calm
    have own := (whole before calm₀ q first).1.own i _ g draining rfl
    have rest : run plan q after = some p := (run_append_of_run first).symm.trans ran
    rcases remaining_of_waited draining (own.1 ▸ rfl) calm₁ rest with still | none
    · cases returned.symm.trans still
    · exact orderly.drained sound none

/-- The steps that lead a worker from its loop to an action with a handle, which is about to be
committed. -/
def untilCommit (worker : Nat) : List (PoolEvent Unit) :=
  [.pick 0 (some 1), .paced (.ok ()), .begin, .act 0 (.answer .acquired),
    .act 0 (.answer (.returned ()))].map fun m => ⟨1, .worker worker m⟩

/-- A started pool of two workers, the first of which is about to commit. -/
def committing : List (PoolEvent Unit) :=
  [⟨0, .call .create⟩, ⟨0, .prepared 0 (.ok ())⟩, ⟨0, .call .start⟩] ++ untilCommit 0

/-- A destruction that begins to wait, and another one that returns. -/
def twoDestructions : List (PoolEvent Unit) :=
  [⟨2, .call .destroy⟩, ⟨2, .proceed 2⟩, ⟨2, .call .destroy⟩, ⟨2, .proceed 3⟩]

/-- The workers come to their ends, and the first destruction to its own. -/
def theirEnds : List (PoolEvent Unit) :=
  [.worker 0 (.act 0 (.answer .committed)), .worker 0 (.act 0 (.answer .closed)),
    .worker 0 .conclude, .worker 0 (.pick 0 none), .worker 0 .release, .worker 1 (.pick 0 none),
    .worker 1 .release, .proceed 2, .proceed 2].map fun m => ⟨3, m⟩

/-- The second of two destructions returns while a worker still has to commit, and it does. -/
theorem second_destruction_returns_early :
    ∃ p₀ p q, apart pair (fresh pair) committing = true ∧
      run pair (fresh pair) committing = some p₀ ∧ p₀.status = .started ∧
      (∀ e ∈ twoDestructions, e.move.isCreation = false) ∧
      run pair p₀ twoDestructions = some p ∧ p₀.calls.length ≤ 3 ∧
      p.calls[3]?.map (·.kind) = some .destroy ∧ p.result? 3 = some (.ok ()) ∧
      p.remaining = 2 ∧ p.after? pair ⟨3, .worker 0 (.act 0 (.answer .committed))⟩ = some q :=
  ⟨_, _, _, by decide, rfl, rfl, by decide, rfl, by decide, rfl, rfl, rfl, rfl⟩

/-- Two destructions at once: one drains, and the other has already returned. -/
theorem drained_or_draining_twice :
    ∃ p₀ p q, run pair (fresh pair) committing = some p₀ ∧ p₀.status = .started ∧
      run pair p₀ twoDestructions = some p ∧
      (Drained pair p ∨ ∃ j, j ≠ 3 ∧ p.calls[j]? = some ⟨.destroy, .draining p.current⟩) ∧
      run pair p₀ (twoDestructions ++ theirEnds) = some q ∧ q.result? 2 = some (.ok ()) ∧
      Drained pair q := by
  obtain ⟨p₀, reached⟩ : ∃ p, run pair (fresh pair) committing = some p := ⟨_, rfl⟩
  have alone : apart pair (fresh pair) committing = true := by decide
  have started : p₀.status = .started := by cases reached; rfl
  have made : p₀.calls.length = 2 := by cases reached; rfl
  obtain ⟨p, first⟩ : ∃ p, run pair p₀ twoDestructions = some p := by
    cases reached; exact ⟨_, rfl⟩
  obtain ⟨q, whole⟩ : ∃ q, run pair p₀ (twoDestructions ++ theirEnds) = some q := by
    cases reached; exact ⟨_, rfl⟩
  have early : p.calls[3]? = some ⟨.destroy, .returned (.ok ())⟩ := by
    cases reached; cases first; rfl
  have waiting : p.calls[2]? = some ⟨.destroy, .draining 1⟩ := by
    cases reached; cases first; rfl
  have late : q.calls[2]? = some ⟨.destroy, .returned (.ok ())⟩ := by
    cases reached; cases whole; rfl
  have second := drained_or_draining pair alone reached started (by decide) first (by omega) early
  have one := drained_or_draining pair alone reached started (by decide) whole (by omega) late
  refine ⟨p₀, p, q, reached, started, first, second.1, whole, ?_, one.2 _ _ _ _ rfl first waiting⟩
  simp only [result?, late]

end Pool

end LoadHarness
