import LoadHarness.Proofs.Container.Steps

/-!
# The turns of a container

A call's turn comes to be when it is asked for, changes when the call gets the lock or goes on, and
is left alone by everything else. Once it has returned it stays.
-/

namespace LoadHarness.Container

variable {σ μ : Type} [Hosted σ μ] {plan : ContainerPlan σ} {c c' : Container σ}
  {m : ContainerMove σ μ} {now t u i : Nat} {turn turn' : Turn} {kind : ContainerCall}
  {phase : TurnPhase} {answer : Except ServiceError σ}

/-- The turn itself has its kind and the new phase. -/
theorem setPhase_here (here : c.turns[t]? = some turn) (phase : TurnPhase) :
    (c.setPhase t phase).turns[t]? = some ⟨turn.kind, phase⟩ := by
  rw [setPhase, List.getElem?_modify_eq, here]
  rfl

/-- Other turns stay as they are. -/
theorem setPhase_elsewhere (other : u ≠ t) (phase : TurnPhase) :
    (c.setPhase t phase).turns[u]? = c.turns[u]? := by
  rw [setPhase, List.getElem?_modify_ne _ _ other.symm]

theorem result?_of {s : σ} (there : c.services[i]? = some s) (call : Nat) :
    c.result? i call = Hosted.result? s call := by
  rw [result?, there]
  rfl

/-- A turn that makes a call on a service that is there. -/
theorem advance_eq {s : σ} (there : c.services[i]? = some s) (call : LifecycleCall)
    (phase : Nat → TurnPhase) :
    c.advance now t i call phase =
      { c.setPhase t (phase (Hosted.call s now call).1) with
        services := c.services.set i (Hosted.call s now call).2 } := by
  simp only [advance, callService, there]
  rfl

/-- A call of a service changes nothing but services and the phase of the call that makes it. -/
theorem exists_advance (c : Container σ) (now t i : Nat) (call : LifecycleCall)
    (phase : Nat → TurnPhase) :
    ∃ n services, c.advance now t i call phase =
      { c.setPhase t (phase n) with services := services } := by
  cases there : c.services[i]? with
  | none =>
    refine ⟨0, c.services, ?_⟩
    simp only [advance, callService, there]
    rfl
  | some s => exact ⟨_, _, advance_eq there call phase⟩

theorem advance_turns (c : Container σ) (now t i : Nat) (call : LifecycleCall)
    (phase : Nat → TurnPhase) :
    ∃ n, (c.advance now t i call phase).turns = (c.setPhase t (phase n)).turns := by
  obtain ⟨n, services, same⟩ := exists_advance c now t i call phase
  rw [same]
  exact ⟨n, rfl⟩

theorem advance_status (c : Container σ) (now t i : Nat) (call : LifecycleCall)
    (phase : Nat → TurnPhase) : (c.advance now t i call phase).status = c.status := by
  obtain ⟨n, services, same⟩ := exists_advance c now t i call phase
  rw [same]
  rfl

theorem advance_finished (c : Container σ) (now t i : Nat) (call : LifecycleCall)
    (phase : Nat → TurnPhase) : (c.advance now t i call phase).finished = c.finished := by
  obtain ⟨n, services, same⟩ := exists_advance c now t i call phase
  rw [same]
  rfl

/-- The phase of a call after it has made a call of a service. -/
theorem phase_of_advance {call : LifecycleCall} {next : Nat → TurnPhase}
    (here : c.turns[t]? = some turn)
    (there : (c.advance now t i call next).turns[t]? = some turn') :
    ∃ n, turn' = ⟨turn.kind, next n⟩ := by
  obtain ⟨n, turns⟩ := advance_turns c now t i call next
  rw [turns, setPhase_here here] at there
  exact ⟨n, (Option.some.inj there).symm⟩

/-- Taking the lock moves one turn. -/
theorem turns_of_locks (locked : Locks plan c now t answer kind c') :
    ∃ phase, c'.turns = (c.setPhase t phase).turns := by
  cases locked with
  | @builds s =>
    obtain ⟨n, turns⟩ := advance_turns
      { c with holder := some t, services := c.services ++ [s] } now t c.services.length .create _
    exact ⟨_, turns⟩
  | halts =>
    obtain ⟨n, turns⟩ := advance_turns { c with holder := some t } now t _ _ _
    exact ⟨_, turns⟩
  | _ => exact ⟨_, rfl⟩

/-- So does going on under it. -/
theorem turns_of_goes (goes : Goes plan c now t phase c') :
    ∃ phase', c'.turns = (c.setPhase t phase').turns := by
  cases goes with
  | created | uncreated | unstarted | stopped | halts =>
    obtain ⟨n, turns⟩ := advance_turns c now t _ _ _
    exact ⟨_, turns⟩
  | _ => exact ⟨_, rfl⟩

/-- How turn `u` came to be as a step leaves it. -/
inductive TurnStep (plan : ContainerPlan σ) (c : Container σ) (now : Nat) (m : ContainerMove σ μ)
    (u : Nat) (turn' : Turn) (c' : Container σ) : Prop where
  | kept (same : c.turns[u]? = some turn')
  | asked (new : c.turns[u]? = none) (queued : turn'.phase = .queued)
  | locked {answer : Except ServiceError σ} (move : m = .lock u answer) (free : c.holder = none)
      (was : c.turns[u]? = some ⟨turn'.kind, .queued⟩)
      (locks : Locks plan c now u answer turn'.kind c')
  | went {before : TurnPhase} (was : c.turns[u]? = some ⟨turn'.kind, before⟩)
      (goes : Goes plan c now u before c')

/-- Every turn after a step has come there in one of these ways. -/
theorem turnStep_of_moves (moved : Moves plan c now m c') (here : c'.turns[u]? = some turn') :
    TurnStep plan c now m u turn' c' := by
  cases moved with
  | @asks kind =>
    by_cases within : u < c.turns.length
    · rw [List.getElem?_append_left within] at here
      exact .kept here
    · rw [List.getElem?_append_right (Nat.le_of_not_lt within)] at here
      have new := List.mem_singleton.1 (List.mem_of_getElem? here)
      exact .asked (List.getElem?_eq_none (Nat.le_of_not_lt within)) (new ▸ rfl)
  | @locks t answer kind _ free asked locked =>
    obtain ⟨phase, turns⟩ := turns_of_locks locked
    rw [turns] at here
    by_cases own : u = t
    · subst own
      rw [setPhase_here asked] at here
      cases here
      exact .locked rfl free asked locked
    · rw [setPhase_elsewhere own] at here
      exact .kept here
  | @goes t turn _ asked goes =>
    obtain ⟨phase, turns⟩ := turns_of_goes goes
    rw [turns] at here
    by_cases own : u = t
    · subst own
      rw [setPhase_here asked] at here
      cases here
      exact .went asked goes
    · rw [setPhase_elsewhere own] at here
      exact .kept here
  | tells => exact .kept here
  | serves => exact .kept here

/-- A call that has returned stays as it is. -/
theorem returned_kept {r : Except ContainerError Unit} (moved : Moves plan c now m c')
    (returned : c.turns[u]? = some ⟨kind, .returned r⟩) :
    c'.turns[u]? = some ⟨kind, .returned r⟩ := by
  cases moved with
  | asks =>
    rw [List.getElem?_append_left (List.getElem?_eq_some_iff.1 returned).1]
    exact returned
  | @locks t _ _ _ _ asked locked =>
    obtain ⟨phase, turns⟩ := turns_of_locks locked
    have other : u ≠ t := by
      rintro rfl
      cases returned.symm.trans asked
    rw [turns, setPhase_elsewhere other, returned]
  | @goes t turn _ here goes =>
    obtain ⟨phase, turns⟩ := turns_of_goes goes
    have other : u ≠ t := by
      rintro rfl
      cases returned.symm.trans here
      cases goes
    rw [turns, setPhase_elsewhere other, returned]
  | tells => exact returned
  | serves => exact returned

end LoadHarness.Container
