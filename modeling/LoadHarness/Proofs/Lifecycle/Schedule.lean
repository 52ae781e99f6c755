import LoadHarness.Proofs.Lifecycle.Steps
import LoadHarness.Proofs.Run

/-!
# Schedules

A schedule lists the steps that a pool is made to take and the instants at which it takes them, in
any order that the pool allows. What holds after all schedules holds for every interleaving of
calls and workers.
-/

namespace LoadHarness

variable {κ : Type}

/-- A step that a pool is made to take at an instant. -/
structure PoolEvent (κ : Type) where
  now : Nat
  move : PoolMove κ

namespace Pool

/-- The pool after an event; nothing when its step is not possible. -/
def after? (plan : PoolPlan κ) (p : Pool κ) (e : PoolEvent κ) : Option (Pool κ) :=
  (p.step plan e.now e.move).map (·.1)

/-- The pool after several events. -/
def run (plan : PoolPlan κ) : Pool κ → List (PoolEvent κ) → Option (Pool κ)
  | p, [] => some p
  | p, e :: es => (p.after? plan e).bind fun q => run plan q es

variable {plan : PoolPlan κ} {p q r : Pool κ} {e : PoolEvent κ} {es fs : List (PoolEvent κ)}

theorem run_eq_foldlM : run plan p es = es.foldlM (after? plan) p := by
  induction es generalizing p with
  | nil => rfl
  | cons e es ih => exact congrArg _ (funext fun q => ih)

theorem run_append :
    run plan p (es ++ fs) = (run plan p es).bind fun q => run plan q fs := by
  simp only [run_eq_foldlM, List.foldlM_append, Option.bind_eq_bind]

theorem run_append_of_run (first : run plan p es = some q) :
    run plan p (es ++ fs) = run plan q fs := by
  rw [run_append, first]
  rfl

theorem run_singleton : run plan p [e] = p.after? plan e :=
  Option.bind_fun_some _

/-- The last event of a schedule. -/
theorem run_concat_iff :
    run plan p (es ++ [e]) = some r ↔ ∃ q, run plan p es = some q ∧ q.after? plan e = some r := by
  simp only [run_eq_foldlM, foldlM_concat_iff]

/-- What holds at first and is kept by every event of a schedule holds after all of them. -/
theorem run_induction (Inv : List (PoolEvent κ) → Pool κ → Prop) (start : Inv [] p)
    (keep : ∀ {es q e r}, run plan p es = some q → Inv es q → q.after? plan e = some r →
      Inv (es ++ [e]) r)
    (ran : run plan p es = some q) : Inv es q :=
  foldlM_induction Inv start (fun before => keep (run_eq_foldlM.trans before))
    (run_eq_foldlM.symm.trans ran)

/-- The same for what every event of some kind keeps, if all are of that kind. -/
theorem run_induction_of {Kind : PoolEvent κ → Prop} (all : ∀ e ∈ es, Kind e)
    (Inv : List (PoolEvent κ) → Pool κ → Prop) (start : Inv [] p)
    (keep : ∀ {es q e r}, run plan p es = some q → Inv es q → Kind e → q.after? plan e = some r →
      Inv (es ++ [e]) r)
    (ran : run plan p es = some q) : Inv es q :=
  foldlM_induction_of all Inv start (fun before => keep (run_eq_foldlM.trans before))
    (run_eq_foldlM.symm.trans ran)

/-- What every event of one kind keeps is kept by schedules of such events. -/
theorem run_keeps {P : PoolEvent κ → Prop} (Inv : Pool κ → Prop)
    (keep : ∀ {q e r}, P e → Inv q → q.after? plan e = some r → Inv r) (all : ∀ e ∈ es, P e)
    (start : Inv p) (ran : run plan p es = some q) : Inv q := by
  induction es generalizing p with
  | nil =>
    cases ran
    exact start
  | cons e es ih =>
    obtain ⟨mid, made, rest⟩ := Option.bind_eq_some_iff.1 ran
    obtain ⟨now, later⟩ := List.forall_mem_cons.1 all
    exact ih later (keep now start made) rest

/-- Every step of a schedule is allowed where the pool takes it. -/
def heeds (plan : PoolPlan κ) (allowed : Pool κ → PoolMove κ → Bool) :
    Pool κ → List (PoolEvent κ) → Bool
  | _, [] => true
  | p, e :: es =>
    allowed p e.move && ((p.after? plan e).map fun q => heeds plan allowed q es).getD true

theorem heeds_append {allowed : Pool κ → PoolMove κ → Bool} (ran : run plan p es = some q) :
    heeds plan allowed p (es ++ fs) = (heeds plan allowed p es && heeds plan allowed q fs) := by
  induction es generalizing p with
  | nil =>
    cases ran
    rfl
  | cons e es ih =>
    obtain ⟨mid, made, rest⟩ := Option.bind_eq_some_iff.1 ran
    simp only [List.cons_append, heeds, made, Option.map_some, Option.getD_some, ih rest,
      Bool.and_assoc]

/-- The last step of a schedule that is allowed throughout. -/
theorem heeds_concat {allowed : Pool κ → PoolMove κ → Bool} (ran : run plan p es = some q)
    (all : heeds plan allowed p (es ++ [e]) = true) :
    heeds plan allowed p es = true ∧ allowed q e.move = true := by
  rw [heeds_append ran, Bool.and_eq_true] at all
  obtain ⟨before, last⟩ := all
  rw [heeds, Bool.and_eq_true] at last
  exact ⟨before, last.1⟩

/-- The steps of a schedule are steps of the pool. -/
theorem moves_of_after (made : p.after? plan e = some q) : Moves plan p e.now e.move q := by
  obtain ⟨⟨q', said⟩, stepped, rfl⟩ := Option.map_eq_some_iff.1 made
  exact moves_of_step stepped

/-- Two workers, one kind of operation, and no contexts or reports. -/
def pair : PoolPlan Unit where
  threads := 2
  mix := ⟨[⟨0, "OP", 100, 100⟩], List.cons_ne_nil _ _⟩
  policy := .standard
  reports := .off
  context _ := ()

end Pool

end LoadHarness
