import LoadHarness.Proofs.Lifecycle.Calls
import LoadHarness.Proofs.Lifecycle.Standing

/-!
# Preparations

A creation looks at the status, has the workload prepare itself, and only then moves the status. Two
creations can both be between the look and the move. Then the workload is prepared twice, although
only one of them creates the pool, and the other one may return an error in a pool that has been
created: see `prepared_twice`. As long as no creation begins while another one prepares, every
preparation that goes well creates the pool, and one that fails leaves it destroyed. That is
`prepared_once`.
-/

namespace LoadHarness

variable {κ : Type}

/-- The call waits for the workload's preparation. -/
def PoolCall.isPreparing (c : PoolCall) : Bool :=
  match c.phase with
  | .settingUp => true
  | _ => false

namespace PoolMove

/-- A creation is called. -/
def isCreate : PoolMove κ → Bool
  | .call .create => true
  | _ => false

/-- The workload has prepared itself. -/
def isPrepared : PoolMove κ → Bool
  | .prepared _ (.ok ()) => true
  | _ => false

end PoolMove

namespace Pool

/-- Calls that wait for the preparation. -/
def preparing (p : Pool κ) : Nat := p.calls.countP (·.isPreparing)

/-- The pool is anywhere between its creation and its destruction. -/
def isUp (p : Pool κ) : Bool := p.status != .destroyed

/-- Steps of a schedule of which something holds, with the pools before and after them. -/
def countSteps (plan : PoolPlan κ) (P : Pool κ → PoolMove κ → Pool κ → Bool) :
    Pool κ → List (PoolEvent κ) → Nat
  | _, [] => 0
  | p, e :: es =>
    match p.after? plan e with
    | none => 0
    | some q => (P p e.move q).toNat + countSteps plan P q es

/-- Preparations that went well in a schedule. -/
def preparations (plan : PoolPlan κ) : Pool κ → List (PoolEvent κ) → Nat :=
  countSteps plan fun _ m _ => m.isPrepared

/-- Moves away from the destroyed status in a schedule. -/
def creations (plan : PoolPlan κ) : Pool κ → List (PoolEvent κ) → Nat :=
  countSteps plan fun p _ q => !p.isUp && q.isUp

/-- Moves to the destroyed status in a schedule. -/
def destructions (plan : PoolPlan κ) : Pool κ → List (PoolEvent κ) → Nat :=
  countSteps plan fun p _ q => p.isUp && !q.isUp

/-- In a schedule no creation is called while another one prepares. -/
def solitary (plan : PoolPlan κ) (es : List (PoolEvent κ)) : Bool :=
  heeds plan (fun p m => !(m.isCreate && decide (0 < p.preparing))) (fresh plan) es

variable {plan : PoolPlan κ} {p q r : Pool κ} {m : PoolMove κ} {now i : Nat} {e : PoolEvent κ}
  {es fs : List (PoolEvent κ)} {P : Pool κ → PoolMove κ → Pool κ → Bool}

/-- What the last event adds to a count. -/
theorem countSteps_concat (ran : run plan p es = some q) (made : q.after? plan e = some r) :
    countSteps plan P p (es ++ [e]) = countSteps plan P p es + (P q e.move r).toNat := by
  induction es generalizing p with
  | nil =>
    cases ran
    simp only [List.nil_append, countSteps, made, Nat.zero_add, Nat.add_zero]
  | cons e' es ih =>
    obtain ⟨mid, first, rest⟩ := Option.bind_eq_some_iff.1 ran
    simp only [List.cons_append, countSteps, first, ih rest, Nat.add_assoc]

/-- Creations and destructions take turns. -/
theorem creations_balance (ran : run plan p es = some q) :
    creations plan p es + p.isUp.toNat = destructions plan p es + q.isUp.toNat := by
  refine run_induction (fun es q =>
    creations plan p es + p.isUp.toNat = destructions plan p es + q.isUp.toNat) rfl ?_ ran
  intro es q e r ran ih made
  have crossing (a b : Bool) : (!a && b).toNat + a.toNat = (a && !b).toNat + b.toNat := by
    cases a <;> cases b <;> rfl
  have here := crossing q.isUp r.isUp
  unfold creations destructions at ih ⊢
  rw [countSteps_concat ran made, countSteps_concat ran made]
  omega

/-! ## Steps -/

/-- Preparations are counted by the calls alone. -/
theorem preparing_of_calls (same : q.calls = p.calls) : q.preparing = p.preparing := by
  rw [preparing, preparing, same]

/-- A call that goes on changes the count by itself only. -/
theorem preparing_setCall {c : PoolCall} (called : p.calls[i]? = some c) (phase : CallPhase) :
    (p.setCall i phase).preparing + c.isPreparing.toNat =
      p.preparing + (PoolCall.mk c.kind phase).isPreparing.toNat := by
  have : Inhabited PoolCall := ⟨c⟩
  unfold preparing setCall
  rw [List.modify_eq_set, called]
  exact countP_set_add called _ _

/-- Nobody goes on to prepare. -/
theorem not_preparing_of_callGoes {kind : LifecycleCall} {phase phase' : CallPhase}
    (goes : CallGoes plan p i m kind phase q phase') :
    (PoolCall.mk kind phase').isPreparing = false := by
  cases goes <;> rfl

/-- A stop brings a pool neither up nor down. -/
theorem isUp_halt (p : Pool κ) : p.halt.isUp = p.isUp := by
  by_cases was : p.status = .started
  · simp only [isUp, halt, ServiceStatus.move, was]
    rfl
  · simp only [halt, ServiceStatus.move, if_neg was]

/-- Nor does a start. -/
theorem isUp_launch (p : Pool κ) (now : Nat) : (p.launch now).isUp = p.isUp := by
  by_cases was : p.status = .created
  · simp only [isUp, launch, ServiceStatus.move, was]
    rfl
  · simp only [launch, ServiceStatus.move, if_neg was]

/-- No call moves a pool into or out of the destroyed status at once. -/
theorem isUp_beginCall (plan : PoolPlan κ) (p : Pool κ) (now : Nat) (kind : LifecycleCall) :
    (p.beginCall plan now kind).1.isUp = p.isUp := by
  cases kind with
  | create => rfl
  | start => exact isUp_launch p now
  | stop => exact isUp_halt p
  | destroy => exact isUp_halt p

/-- Only a creation that finds its pool destroyed begins to prepare. -/
theorem prepares_of_beginCall {kind : LifecycleCall} {phase : CallPhase}
    (begun : p.beginCall plan now kind = (q, phase))
    (prepares : (PoolCall.mk kind phase).isPreparing = true) :
    kind = .create ∧ p.isUp = false := by
  cases kind with
  | create =>
    cases begun
    unfold beginCreate at prepares
    split at prepares
    · cases prepares
    · split at prepares
      · cases prepares
      · next free => exact ⟨rfl, bne_eq_false_iff_eq.2 (not_not.1 free)⟩
  | _ => cases begun; cases prepares

theorem isUp_workerGoes {w : Worker κ} {m : WorkerMove κ} (goes : WorkerGoes p i w m q) :
    q.isUp = p.isUp := by
  cases goes with
  | faults => exact isUp_halt p
  | _ => rfl

/-- The step: no more than one call prepares, and none in a pool that is up, as long as no creation
is called while another one prepares. Then it is the preparations that go well that bring pools
up. -/
theorem solitary_step (alone : p.preparing + p.isUp.toNat ≤ 1) (moved : Moves plan p now m q)
    (allowed : (!(m.isCreate && decide (0 < p.preparing))) = true) :
    q.preparing + q.isUp.toNat ≤ 1 ∧ m.isPrepared = (!p.isUp && q.isUp) := by
  have still {r : Pool κ} {m : PoolMove κ} (calls : r.preparing ≤ p.preparing)
      (up : r.isUp = p.isUp) (other : m.isPrepared = false) :
      r.preparing + r.isUp.toNat ≤ 1 ∧ m.isPrepared = (!p.isUp && r.isUp) := by
    rw [up, other, Bool.not_and_self]
    exact ⟨by omega, rfl⟩
  cases moved with
  | @calls kind q' phase begun =>
    have same : q'.calls = p.calls := by
      have := beginCall_calls plan p now kind
      rwa [begun] at this
    have up : q'.isUp = p.isUp := by
      have := isUp_beginCall plan p now kind
      rwa [begun] at this
    have count : ({ q' with calls := q'.calls ++ [⟨kind, phase⟩] } : Pool κ).preparing =
        p.preparing + (PoolCall.mk kind phase).isPreparing.toNat := by
      unfold preparing
      rw [List.countP_append, same, List.countP_singleton]
      cases (PoolCall.mk kind phase).isPreparing <;> rfl
    cases prepares : (PoolCall.mk kind phase).isPreparing with
    | false =>
      rw [prepares] at count
      exact still (Nat.le_of_eq count) up rfl
    | true =>
      obtain ⟨rfl, down⟩ := prepares_of_beginCall begun prepares
      have nobody : p.preparing = 0 := by simpa [PoolMove.isCreate] using allowed
      rw [prepares, nobody] at count
      refine ⟨?_, ?_⟩
      · rw [count]
        show 0 + 1 + q'.isUp.toNat ≤ 1
        rw [up, down]
        exact Nat.le_refl 1
      · show false = (!p.isUp && q'.isUp)
        rw [up, Bool.not_and_self]
  | @goes j m c q' phase called goes =>
    have same : q'.calls = p.calls := callGoes_calls goes
    have count := preparing_setCall (same ▸ called) phase
    have idle : (PoolCall.mk c.kind phase).isPreparing = false := not_preparing_of_callGoes goes
    rw [preparing_of_calls same, idle, Bool.toNat_false, Nat.add_zero] at count
    have fewer : (q'.setCall j phase).preparing ≤ p.preparing := by omega
    obtain ⟨kind, waits⟩ := c
    have down {r : Pool κ} (few : r.preparing ≤ p.preparing) (gone : r.isUp = false) :
        r.preparing + r.isUp.toNat ≤ 1 ∧ false = (!p.isUp && r.isUp) := by
      rw [gone, Bool.and_false]
      exact ⟨Nat.le_trans few (by omega), rfl⟩
    cases goes with
    | overtaken busy =>
      have prepares : (PoolCall.mk kind .settingUp).isPreparing.toNat = 1 := rfl
      have up : p.isUp.toNat = 1 := congrArg Bool.toNat (bne_iff_ne.2 busy)
      omega
    | created free =>
      have prepares : (PoolCall.mk kind .settingUp).isPreparing.toNat = 1 := rfl
      have was : p.isUp = false := bne_eq_false_iff_eq.2 free
      rw [was]
      refine ⟨?_, rfl⟩
      show _ + 1 ≤ 1
      omega
    | discarded => exact down fewer rfl
    | drains => exact down fewer rfl
    | _ => exact still fewer rfl rfl
  | reports own =>
    obtain ⟨loop, rfl | rfl⟩ := own <;> exact still (Nat.le_refl _) rfl rfl
  | works _ goes =>
    exact still (Nat.le_of_eq (preparing_of_calls (workerGoes_calls goes))) (isUp_workerGoes goes)
      rfl

/-- What becomes of a preparation: an error goes to the call that waits for it, and so does a success
that finds the pool up; neither touches anything else. -/
theorem prepared_of_after {result : Except OperationError Unit}
    (made : p.after? plan ⟨now, .prepared i result⟩ = some q) :
    (∃ kind, p.calls[i]? = some ⟨kind, .settingUp⟩) ∧
      (∀ e, result = .error e → q = p.setCall i (.returned (.error (.resource e)))) ∧
      (result = .ok () → p.isUp = true → q = p.setCall i (.returned (.ok ()))) := by
  have moved := moves_of_after made
  dsimp only at moved
  cases moved with
  | @goes j _ c q' phase called goes =>
    obtain ⟨kind, waits⟩ := c
    cases goes with
    | refused => exact ⟨⟨kind, called⟩, fun e same => by cases same; rfl, nofun⟩
    | overtaken => exact ⟨⟨kind, called⟩, nofun, fun _ _ => rfl⟩
    | created free =>
      refine ⟨⟨kind, called⟩, nofun, fun _ up => ?_⟩
      exact absurd free (bne_iff_ne.1 up)
  | reports own => obtain ⟨_, tick | silence⟩ := own <;> contradiction

/-! ## Runs -/

/-- The run: in a solitary schedule no more than one call prepares, and none in a pool that is
up. -/
theorem preparing_le_of_run (alone : solitary plan es = true)
    (ran : run plan (fresh plan) es = some p) : p.preparing + p.isUp.toNat ≤ 1 := by
  have start : (fresh plan).preparing + (fresh plan).isUp.toNat ≤ 1 := Nat.zero_le 1
  refine run_induction (fun es p => solitary plan es = true → p.preparing + p.isUp.toNat ≤ 1)
    (fun _ => start) ?_ ran alone
  intro es p e q ran ih made alone
  obtain ⟨before, allowed⟩ := heeds_concat ran alone
  exact (solitary_step (ih before) (moves_of_after made) allowed).1

/-- The run: in a solitary schedule every preparation that goes well brings its pool up, and nothing
else does. -/
theorem preparations_eq_creations {before : List (PoolEvent κ)}
    (alone : solitary plan (before ++ es) = true) (reached : run plan (fresh plan) before = some p)
    (ran : run plan p es = some q) : preparations plan p es = creations plan p es := by
  refine run_induction (fun es _ => solitary plan (before ++ es) = true →
    preparations plan p es = creations plan p es) (fun _ => rfl) ?_ ran alone
  intro es q e r ran ih made alone
  have whole : run plan (fresh plan) (before ++ es) = some q :=
    (run_append_of_run reached).trans ran
  rw [← List.append_assoc] at alone
  obtain ⟨first, allowed⟩ := heeds_concat whole alone
  obtain ⟨-, same⟩ :=
    solitary_step (preparing_le_of_run first whole) (moves_of_after made) allowed
  have sofar := ih first
  unfold preparations creations at sofar ⊢
  rw [countSteps_concat ran made, countSteps_concat ran made, sofar, same]

/-- **Preparations are for one creation each, if creations do not overlap.** Whatever is done with a
pool, and when: between two moves to the destroyed status it is created at most once; an error of a
preparation, or a success that finds the pool up, changes nothing but the call that waited for it.
If moreover no creation is called while another one prepares, every preparation that goes well
creates the pool, so that there is at most one between two moves to the destroyed status, and a
creation that returns the error of its preparation leaves the pool destroyed. -/
theorem prepared_once (plan : PoolPlan κ) {before es : List (PoolEvent κ)} {p q : Pool κ}
    (reached : run plan (fresh plan) before = some p) (ran : run plan p es = some q) :
    creations plan p es ≤ destructions plan p es + 1 ∧
    (∀ now call result r, q.after? plan ⟨now, .prepared call result⟩ = some r →
      (∀ e, result = .error e → r = q.setCall call (.returned (.error (.resource e)))) ∧
      (result = .ok () → q.isUp = true → r = q.setCall call (.returned (.ok ())))) ∧
    (solitary plan (before ++ es) = true →
      preparations plan p es = creations plan p es ∧
      preparations plan p es ≤ destructions plan p es + 1 ∧
      ∀ now call e r, q.after? plan ⟨now, .prepared call (.error e)⟩ = some r →
        r.result? call = some (.error (.resource e)) ∧ r.status = .destroyed) := by
  have crossings := creations_balance ran
  have one : q.isUp.toNat ≤ 1 := Bool.toNat_le _
  refine ⟨by omega, fun now call result r made => (prepared_of_after made).2, fun alone => ?_⟩
  have same := preparations_eq_creations alone reached ran
  refine ⟨same, by omega, ?_⟩
  intro now call e r made
  obtain ⟨⟨kind, waits⟩, fails, -⟩ := prepared_of_after made
  have outcome : r = q.setCall call (.returned (.error (.resource e))) := fails e rfl
  -- somebody prepares, so the pool is not up
  have few := preparing_le_of_run alone ((run_append_of_run reached).trans ran)
  have counted : 0 < q.preparing :=
    List.countP_pos_iff.2 ⟨_, List.mem_of_getElem? waits, rfl⟩
  have down : q.isUp = false := by
    cases up : q.isUp with
    | false => rfl
    | true =>
      rw [up, Bool.toNat_true] at few
      omega
  rw [outcome]
  refine ⟨?_, bne_eq_false_iff_eq.1 down⟩
  unfold result?
  rw [setCall_here waits]

/-- A creation whose preparation fails, a second try, and the end of what it created. -/
def falseStart : List (PoolEvent Unit) :=
  [.call .create, .prepared 0 (.error (.connection "refused")), .call .create,
    .prepared 1 (.ok ()), .call .destroy, .proceed 2].map fun m => ⟨1, m⟩

/-- The pool is created anew, and another creation begins before it is destroyed. -/
def anew : List (PoolEvent Unit) :=
  [.call .create, .prepared 3 (.ok ()), .call .create, .call .destroy, .proceed 5,
    .call .create].map fun m => ⟨2, m⟩

/-- A pool created anew after a destruction: two preparations for two creations, of which the
second may still fail. -/
theorem prepared_once_anew :
    ∃ p q r, run pair (fresh pair) falseStart = some p ∧ run pair p anew = some q ∧
      solitary pair (falseStart ++ anew) = true ∧ destructions pair p anew = 1 ∧
      preparations pair p anew = creations pair p anew ∧ preparations pair p anew ≤ 2 ∧
      q.after? pair ⟨3, .prepared 6 (.error (.connection "refused"))⟩ = some r ∧
      r.result? 6 = some (.error (.resource (.connection "refused"))) ∧ r.status = .destroyed := by
  obtain ⟨p, reached⟩ : ∃ p, run pair (fresh pair) falseStart = some p := ⟨_, rfl⟩
  obtain ⟨q, ran⟩ : ∃ q, run pair p anew = some q := by cases reached; exact ⟨_, rfl⟩
  obtain ⟨r, made⟩ : ∃ r, q.after? pair ⟨3, .prepared 6 (.error (.connection "refused"))⟩ =
      some r := by
    cases reached; cases ran; exact ⟨_, rfl⟩
  have alone : solitary pair (falseStart ++ anew) = true := by decide
  have once : destructions pair p anew = 1 := by cases reached; rfl
  obtain ⟨-, -, apart⟩ := prepared_once pair reached ran
  obtain ⟨same, few, errors⟩ := apart alone
  obtain ⟨returned, destroyed⟩ := errors 3 6 (.connection "refused") r made
  rw [once] at few
  exact ⟨p, q, r, reached, ran, alone, once, same, few, made, returned, destroyed⟩

/-- Two creations that overlap. -/
def rush : List (PoolEvent Unit) :=
  [.call .create, .call .create, .prepared 0 (.ok ())].map fun m => ⟨1, m⟩

/-- Both may prepare the workload, and the second one may return an error in a pool that has been
created. -/
theorem prepared_twice :
    (∃ p, run pair (fresh pair) (rush ++ [⟨2, .prepared 1 (.ok ())⟩]) = some p ∧
      destructions pair (fresh pair) (rush ++ [⟨2, .prepared 1 (.ok ())⟩]) = 0 ∧
      preparations pair (fresh pair) (rush ++ [⟨2, .prepared 1 (.ok ())⟩]) = 2) ∧
    ∃ p q, run pair (fresh pair) rush = some p ∧
      p.after? pair ⟨2, .prepared 1 (.error (.connection "refused"))⟩ = some q ∧
      q.result? 1 = some (.error (.resource (.connection "refused"))) ∧ q.status = .created :=
  ⟨⟨_, rfl, rfl, rfl⟩, _, _, rfl, rfl, rfl, rfl⟩

end Pool

end LoadHarness
