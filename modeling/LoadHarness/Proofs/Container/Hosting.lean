import LoadHarness.Proofs.Container.Steps
import LoadHarness.Proofs.Lifecycle.Tended
import LoadHarness.Service.Builtin

/-!
# Worker pools in a container

Services that are worker pools take the container's calls and no others, and their own steps are
steps of their pools. A container takes a pool from stage to stage; no pool moves to another stage
by itself, and at most one of a container's pools is not razed.
-/

namespace LoadHarness

/-- Services that are worker pools which nobody but their host calls, and whose preparations may
succeed. -/
class HostedPool (σ : Type) {μ : outParam Type} [Hosted σ μ] (κ : outParam Type) where
  plan : σ → PoolPlan κ
  pool : σ → Pool κ
  number (s : σ) (now : Nat) (kind : LifecycleCall) :
    (Hosted.call s now kind).1 = (pool s).calls.length
  call_plan (s : σ) (now : Nat) (kind : LifecycleCall) : plan (Hosted.call s now kind).2 = plan s
  called (s : σ) (now : Nat) (kind : LifecycleCall) :
    (pool s).after? (plan s) ⟨now, .call kind⟩ = some (pool (Hosted.call s now kind).2)
  result?_eq (s : σ) (call : Nat) : Hosted.result? s call = (pool s).result? call
  step_plan {s s' : σ} {now : Nat} {m : μ} : Hosted.step s now m = some s' → plan s' = plan s
  stepped {s s' : σ} {now : Nat} {m : μ} : Hosted.step s now m = some s' →
    ∃ own, own.isCall = false ∧ (pool s).after? (plan s) ⟨now, own⟩ = some (pool s')
  prepares {s : σ} {now call : Nat} {p : Pool κ} :
    (pool s).after? (plan s) ⟨now, .prepared call (.ok ())⟩ = some p →
      ∃ m s', Hosted.step s now m = some s' ∧ pool s' = p

namespace PoolService

/-- A step of the service is one of its pool under its plan. -/
theorem poolStep_eq (s : PoolService) (now : Nat) (m : PoolMove WorkerContext) :
    s.poolStep now m = (s.pool.after? s.plan ⟨now, m⟩).map fun p => { s with pool := p } := by
  unfold poolStep Pool.after?
  rw [Option.map_map]
  rfl

theorem poolStep_of_step {s s' : PoolService} {now : Nat} {m : PoolMove WorkerContext}
    (stepped : Hosted.step s now m = some s') :
    m.isCall = false ∧ s.poolStep now m = some s' := by
  cases m with
  | call => cases stepped
  | prepared i r => exact ⟨rfl, (Option.ite_none_right_eq_some.1 stepped).2⟩
  | _ => exact ⟨rfl, stepped⟩

instance : HostedPool PoolService WorkerContext where
  plan := PoolService.plan
  pool := PoolService.pool
  number _ _ _ := rfl
  call_plan _ _ _ := rfl
  called _ _ _ := rfl
  result?_eq _ _ := rfl
  step_plan stepped := by
    obtain ⟨-, stepped⟩ := poolStep_of_step stepped
    rw [poolStep_eq] at stepped
    obtain ⟨p, -, rfl⟩ := Option.map_eq_some_iff.1 stepped
    rfl
  stepped stepped := by
    obtain ⟨own, stepped⟩ := poolStep_of_step stepped
    rw [poolStep_eq] at stepped
    obtain ⟨p, made, rfl⟩ := Option.map_eq_some_iff.1 stepped
    exact ⟨_, own, made⟩
  prepares {s now call p} made := by
    have stepped := s.poolStep_eq now (.prepared call (.ok ()))
    rw [made] at stepped
    refine ⟨.prepared call (.ok ()), { s with pool := p }, ?_, rfl⟩
    exact (if_pos (by cases s.workload <;> rfl)).trans stepped

end PoolService

/-- How far the host of a pool has taken it. -/
inductive Stage where
  /-- It has made the creation. -/
  | comingUp
  /-- It has made the start, which has succeeded. -/
  | started (call : Nat)
  /-- It may have made a stop. -/
  | up
  /-- It has made the destruction. -/
  | goingDown (call : Nat)
  | razed

/-- The pool is at a stage. -/
def Pool.At {κ : Type} (plan : PoolPlan κ) (p : Pool κ) : Stage → Prop
  | .comingUp => ComingUp plan p
  | .started call => Up plan none p ∧ p.result? call = some (.ok ())
  | .up => Up plan none p
  | .goingDown call => Up plan (some call) p
  | .razed => Razed plan p

/-- The step: a pool does not leave its stage by itself. -/
theorem Pool.At.step {κ : Type} {plan : PoolPlan κ} {p q : Pool κ} {m : PoolMove κ} {now : Nat}
    {x : Stage} (h : p.At plan x) (moved : Moves plan p now m q) (own : m.isCall = false) :
    q.At plan x := by
  have other (kind : LifecycleCall) : m ≠ .call kind := by
    rintro rfl
    cases own
  cases x with
  | comingUp => exact ComingUp.step h moved own
  | started call => exact ⟨Up.step h.1 moved (other _) (other _), result?_kept moved h.2⟩
  | up => exact Up.step h moved (other _) (other _)
  | goingDown call => exact Up.step h moved (other _) (other _)
  | razed => exact Razed.step h moved (other _)

namespace Container

open HostedPool

variable {σ μ κ : Type} [Hosted σ μ] [HostedPool σ κ]

/-- The service's pool is at a stage. -/
def At (x : Stage) (s : σ) : Prop := (pool s).At (plan s) x

variable {s s' : σ} {x y : Stage} {m : μ} {now call i : Nat} {services : List σ}

/-! ## Calls of a service -/

theorem moves_of_call (s : σ) (now : Nat) (kind : LifecycleCall) :
    Pool.Moves (plan s) (pool s) now (.call kind) (pool (Hosted.call s now kind).2) :=
  Pool.moves_of_after (called s now kind)

/-- A service stays where it stands, whatever it does on its own. -/
theorem At.step (h : At x s) (stepped : Hosted.step s now m = some s') : At x s' := by
  obtain ⟨own, uncalled, made⟩ := HostedPool.stepped stepped
  unfold At
  rw [step_plan stepped]
  exact Pool.At.step h (Pool.moves_of_after made) uncalled

/-- A new service that is told to create comes up. -/
theorem at_of_create (fresh : pool s = .fresh (plan s)) (now : Nat) :
    At .comingUp (Hosted.call s now .create).2 := by
  unfold At
  rw [call_plan]
  exact Pool.comingUp_of_create fresh (moves_of_call s now .create)

/-- When the creation has returned well, a start brings the service up. -/
theorem At.created (h : At .comingUp s) (good : Hosted.result? s call = some (.ok ()))
    (now : Nat) :
    At (.started (Hosted.call s now .start).1) (Hosted.call s now .start).2 := by
  rw [result?_eq] at good
  unfold At
  rw [call_plan, number]
  exact Pool.ComingUp.started h good (moves_of_call s now .start)

/-- When it has failed, the service is as good as gone. -/
theorem At.uncreated {e : ServiceError} (h : At .comingUp s)
    (bad : Hosted.result? s call = some (.error e)) : At .razed s :=
  Pool.ComingUp.failed h ((result?_eq s call).symm.trans bad)

/-- A start of a created pool does not fail. -/
theorem At.not_unstarted {e : ServiceError} (h : At (.started call) s) :
    Hosted.result? s call ≠ some (.error e) := by
  rw [result?_eq, h.2]
  nofun

theorem At.up (h : At (.started call) s) : At .up s := h.1

/-- A stop leaves a service up until it is destroyed. -/
theorem At.stopped (h : At .up s) (now : Nat) : At .up (Hosted.call s now .stop).2 := by
  unfold At
  rw [call_plan]
  exact Pool.Up.step h (moves_of_call s now .stop) nofun nofun

/-- A destruction takes a service down. -/
theorem At.destroyed (h : At .up s) (now : Nat) :
    At (.goingDown (Hosted.call s now .destroy).1) (Hosted.call s now .destroy).2 := by
  unfold At
  rw [call_plan, number]
  exact Pool.Up.destroying h (moves_of_call s now .destroy)

/-- When it has returned, nothing is left of the service. -/
theorem At.gone {r : Except ServiceError Unit} (h : At (.goingDown call) s)
    (done : Hosted.result? s call = some r) : At .razed s :=
  Pool.Up.razed h ((result?_eq s call).symm.trans done)

/-- Only a creation brings a razed pool back. -/
theorem At.still_razed (h : At .razed s) (now : Nat) (kind : LifecycleCall)
    (other : kind ≠ .create) : At .razed (Hosted.call s now kind).2 := by
  unfold At
  rw [call_plan]
  exact Pool.Razed.step h (moves_of_call s now kind) fun same => other (PoolMove.call.inj same)

/-! ## The services of a container -/

/-- Service `i` is at a stage, and all others are razed. -/
structure Apart (services : List σ) (i : Nat) (x : Stage) : Prop where
  here : ∃ s, services[i]? = some s ∧ At x s
  others : ∀ (j : Nat) s, j ≠ i → services[j]? = some s → At .razed s

theorem Apart.lt (h : Apart services i x) : i < services.length := by
  obtain ⟨s, here, -⟩ := h.here
  exact (List.getElem?_eq_some_iff.1 here).1

theorem Apart.mono (h : Apart services i x) (further : ∀ s : σ, At x s → At y s) :
    Apart services i y := by
  obtain ⟨s, here, stands⟩ := h.here
  exact ⟨⟨s, here, further s stands⟩, h.others⟩

/-- The container takes service `i` to another stage. -/
theorem Apart.set (h : Apart services i x) (stands : At y s') :
    Apart (services.set i s') i y := by
  refine ⟨⟨s', List.getElem?_set_self h.lt, stands⟩, fun j s other there => ?_⟩
  rw [List.getElem?_set_ne other.symm] at there
  exact h.others j s other there

/-- A service takes a step of its own. -/
theorem Apart.serves {j : Nat} (h : Apart services i x) (there : services[j]? = some s)
    (stepped : Hosted.step s now m = some s') : Apart (services.set j s') i x := by
  by_cases own : j = i
  · subst own
    obtain ⟨s'', here, stands⟩ := h.here
    cases here.symm.trans there
    exact h.set (stands.step stepped)
  · obtain ⟨s'', here, stands⟩ := h.here
    refine ⟨⟨s'', (List.getElem?_set_ne own).trans here, stands⟩, fun k s₁ other at_k => ?_⟩
    by_cases same : j = k
    · subst same
      rw [List.getElem?_set_self (List.getElem?_eq_some_iff.1 there).1] at at_k
      cases at_k
      exact (h.others j s other there).step stepped
    · rw [List.getElem?_set_ne same] at at_k
      exact h.others k s₁ other at_k

/-- A new service stands apart from those that are gone. -/
theorem apart_of_built (razed : ∀ s ∈ services, At .razed s) (stands : At x s') :
    Apart (services ++ [s']) services.length x := by
  refine ⟨⟨s', List.getElem?_concat_length, stands⟩, fun j s other there => ?_⟩
  have within := (List.getElem?_eq_some_iff.1 there).1
  simp only [List.length_append, List.length_singleton] at within
  rw [List.getElem?_append_left (by omega)] at there
  exact razed s (List.mem_of_getElem? there)

/-- When the one that stands apart is gone, all are. -/
theorem Apart.all_razed (h : Apart services i .razed) : ∀ s ∈ services, At .razed s := by
  intro s member
  obtain ⟨j, there⟩ := List.mem_iff_getElem?.1 member
  by_cases own : j = i
  · subst own
    obtain ⟨s', here, stands⟩ := h.here
    cases here.symm.trans there
    exact stands
  · exact h.others j s own there

/-! ## Building services -/

/-- The services with which a factory answers are pools that nothing has been done with. -/
def Builds (m : ContainerMove σ μ) : Prop :=
  ∀ s, m.answer? = some (.ok s) → pool s = .fresh (HostedPool.plan s)

open PoolService (Identities assemble)

/-- A service that has been assembled has a fresh pool. -/
theorem fresh_of_assemble {identities : Identities} {name : String} {settings : Settings}
    {mix : Mix} {workload : Workload} {s : PoolService}
    (built : assemble identities name settings mix workload = .ok s) : s.pool = .fresh s.plan := by
  unfold assemble at built
  cases full : (Bucket.full settings.driver.rates 0 : Except LimiterError (Bucket Float)).mapError
      ServiceError.limiter with
  | error e => rw [full] at built; cases built
  | ok bucket => rw [full] at built; cases built; rfl

/-- So has the synthetic one. -/
theorem fresh_of_synthetic {identities : Identities} {settings : Settings} {s : PoolService}
    (built : Synthetic.build identities settings = .ok s) : s.pool = .fresh s.plan := by
  unfold Synthetic.build at built
  cases mixed : (settings.workload.mixOr Synthetic.weights Synthetic.tags).mapError
      ServiceError.mix with
  | error e => rw [mixed] at built; cases built
  | ok mix => rw [mixed] at built; exact fresh_of_assemble built

/-- So has the one that pings a database. -/
theorem fresh_of_ping {faults : AddressFaults} {identities : Identities}
    {settings : Settings} {s : PoolService}
    (built : Ping.build faults identities settings = .ok s) : s.pool = .fresh s.plan := by
  unfold Ping.build at built
  split at built
  · cases built
  · cases mixed : (settings.workload.mixOr [100] [Ping.tag]).mapError ServiceError.mix with
    | error e => rw [mixed] at built; cases built
    | ok mix =>
      rw [mixed] at built
      dsimp only [bind, Except.bind] at built
      split at built
      · cases built
      · exact fresh_of_assemble built

/-- So are those of the built-in registry. -/
theorem fresh_of_builtin {faults : AddressFaults} {identities : Identities} {name : String}
    {settings : Settings} {s : PoolService}
    (built : (Registry.builtin faults identities).create name settings = .ok s) :
    s.pool = .fresh s.plan := by
  have entries : (Registry.builtin faults identities).entries =
      [(Ping.name, Ping.build faults identities),
        (Synthetic.name, Synthetic.build identities)] := rfl
  unfold Registry.create at built
  split at built
  · next found =>
    have member := List.mem_of_find?_eq_some found
    rw [entries, List.mem_cons, List.mem_singleton] at member
    rcases member with ping | synthetic
    · cases ping
      exact fresh_of_ping built
    · cases synthetic
      exact fresh_of_synthetic built
  · cases built

end Container

end LoadHarness
