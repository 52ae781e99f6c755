import LoadHarness.Proofs.Lifecycle.Schedule

/-!
# What becomes of calls

A call keeps its kind, waits only for what calls of its kind wait for, and once it has returned it
stays so. Only the step that makes it and the steps with which it goes on change it, and a creation
that fails leaves everything else alone in all of these.
-/

namespace LoadHarness

variable {κ : Type}

/-- A call of this kind can be in this phase. -/
def LifecycleCall.Fits : LifecycleCall → CallPhase → Prop
  | _, .returned _ => True
  | .create, .settingUp => True
  | .stop, .silencing _ => True
  | .destroy, .silencing _ => True
  | .destroy, .draining _ => True
  | .destroy, .joining _ => True
  | _, _ => False

theorem LifecycleCall.fits_returned (kind : LifecycleCall) (r : Except ServiceError Unit) :
    kind.Fits (.returned r) := by
  cases kind <;> trivial

namespace Pool

variable {plan : PoolPlan κ} {p q : Pool κ} {m : PoolMove κ} {now i : Nat}
  {es : List (PoolEvent κ)}

theorem halt_calls (p : Pool κ) : p.halt.calls = p.calls := by
  unfold halt
  split <;> rfl

theorem beginCall_calls (plan : PoolPlan κ) (p : Pool κ) (now : Nat) (kind : LifecycleCall) :
    (p.beginCall plan now kind).1.calls = p.calls := by
  cases kind with
  | create => rfl
  | start =>
    simp only [beginCall, launch]
    split <;> rfl
  | stop => exact halt_calls p
  | destroy => exact halt_calls p

theorem callGoes_calls {kind : LifecycleCall} {phase phase' : CallPhase}
    (goes : CallGoes plan p i m kind phase q phase') : q.calls = p.calls := by
  cases goes <;> rfl

/-- A call that has returned does not go on. -/
theorem not_returned_of_callGoes {kind : LifecycleCall} {phase phase' : CallPhase}
    (goes : CallGoes plan p i m kind phase q phase') (r : Except ServiceError Unit) :
    phase ≠ .returned r := by
  cases goes <;> nofun

theorem workerGoes_calls {w : Worker κ} {m : WorkerMove κ} (goes : WorkerGoes p i w m q) :
    q.calls = p.calls := by
  cases goes with
  | works => rfl
  | faults => exact halt_calls p
  | releases => rfl

theorem setCall_here {c : PoolCall} (called : p.calls[i]? = some c) (phase : CallPhase) :
    (p.setCall i phase).calls[i]? = some ⟨c.kind, phase⟩ := by
  simp only [setCall, List.getElem?_modify_eq, called]
  rfl

theorem setCall_elsewhere {j : Nat} (other : j ≠ i) (phase : CallPhase) :
    (p.setCall j phase).calls[i]? = p.calls[i]? :=
  List.getElem?_modify_ne _ _ other

/-- How a step leaves a call: as it was, just made, or gone on. -/
inductive CallStep (plan : PoolPlan κ) (p : Pool κ) (now : Nat) (m : PoolMove κ) (q : Pool κ)
    (i : Nat) (c' : PoolCall) : Prop where
  | kept (same : p.calls[i]? = some c')
  | made {q'} (none : p.calls[i]? = none) (move : m = .call c'.kind)
      (begun : p.beginCall plan now c'.kind = (q', c'.phase))
      (whole : q = { q' with calls := p.calls ++ [c'] })
  | gone {phase q'} (called : p.calls[i]? = some ⟨c'.kind, phase⟩)
      (goes : CallGoes plan p i m c'.kind phase q' c'.phase) (whole : q = q'.setCall i c'.phase)

/-- Every call after a step has come there in one of these ways. -/
theorem callStep_of_moves (moved : Moves plan p now m q) {c' : PoolCall}
    (here : q.calls[i]? = some c') : CallStep plan p now m q i c' := by
  cases moved with
  | @calls kind q' phase begun =>
    have calls : q'.calls = p.calls := by
      have := beginCall_calls plan p now kind
      rwa [begun] at this
    simp only [calls] at here
    by_cases old : i < p.calls.length
    · rw [List.getElem?_append_left old] at here
      exact .kept here
    · have last : i = p.calls.length := by
        have := (List.getElem?_eq_some_iff.1 here).1
        simp only [List.length_append, List.length_singleton] at this
        omega
      rw [last, List.getElem?_concat_length] at here
      cases here
      exact .made (List.getElem?_eq_none (by omega)) rfl begun (by rw [calls])
  | @goes j _ c q' phase called goes =>
    have calls : q'.calls = p.calls := callGoes_calls goes
    by_cases own : j = i
    · subst own
      rw [setCall_here (calls ▸ called)] at here
      cases here
      exact .gone called goes rfl
    · rw [setCall_elsewhere own, calls] at here
      exact .kept here
  | reports => exact .kept here
  | works launched goes => exact .kept (workerGoes_calls goes ▸ here)

/-- A call that has been made stays, with its kind, and does not come back once it has returned. -/
theorem call_kept (moved : Moves plan p now m q) {c : PoolCall} (called : p.calls[i]? = some c) :
    ∃ phase, q.calls[i]? = some ⟨c.kind, phase⟩ ∧
      ∀ r, c.phase = .returned r → phase = .returned r := by
  cases moved with
  | @calls kind q' phase begun =>
    have calls : q'.calls = p.calls := by
      have := beginCall_calls plan p now kind
      rwa [begun] at this
    refine ⟨c.phase, ?_, fun _ => id⟩
    simp only [calls]
    rw [List.getElem?_append_left (List.getElem?_eq_some_iff.1 called).1]
    exact called
  | @goes j _ c' q' phase called' goes =>
    have calls : q'.calls = p.calls := callGoes_calls goes
    by_cases own : j = i
    · subst own
      cases called.symm.trans called'
      exact ⟨phase, setCall_here (calls ▸ called) phase,
        fun r gone => absurd gone (not_returned_of_callGoes goes r)⟩
    · refine ⟨c.phase, ?_, fun _ => id⟩
      rw [setCall_elsewhere own, calls]
      exact called
  | reports => exact ⟨c.phase, called, fun _ => id⟩
  | works launched goes =>
    exact ⟨c.phase, workerGoes_calls goes ▸ called, fun _ => id⟩

/-- The run: a call stays one of its kind, and what it has returned stands. -/
theorem call_kept_by_run (ran : run plan p es = some q) {c : PoolCall}
    (called : p.calls[i]? = some c) :
    ∃ phase, q.calls[i]? = some ⟨c.kind, phase⟩ ∧
      ∀ r, c.phase = .returned r → phase = .returned r := by
  refine run_induction (fun _ q => ∃ phase, q.calls[i]? = some ⟨c.kind, phase⟩ ∧
    ∀ r, c.phase = .returned r → phase = .returned r) ⟨c.phase, called, fun _ => id⟩ ?_ ran
  rintro es q e r - ⟨phase, here, stays⟩ made
  obtain ⟨phase', there, stays'⟩ := call_kept (moves_of_after made) here
  exact ⟨phase', there, fun r gone => stays' r (stays r gone)⟩

/-- A call begins in a phase of its kind. -/
theorem fits_of_beginCall {kind : LifecycleCall} {phase : CallPhase}
    (begun : p.beginCall plan now kind = (q, phase)) : kind.Fits phase := by
  cases kind with
  | create =>
    have phase_eq : p.beginCreate plan = phase := congrArg Prod.snd begun
    subst phase_eq
    unfold beginCreate
    split
    · trivial
    · split <;> trivial
  | start => cases begun; trivial
  | stop => cases begun; trivial
  | destroy => cases begun; trivial

/-- It goes on to a phase of its kind. -/
theorem fits_of_callGoes {kind : LifecycleCall} {phase phase' : CallPhase}
    (fits : kind.Fits phase) (goes : CallGoes plan p i m kind phase q phase') :
    kind.Fits phase' := by
  cases goes with
  | drains => trivial
  | drained => cases kind <;> trivial
  | _ => exact LifecycleCall.fits_returned _ _

/-- Calls only wait for what calls of their kind wait for. -/
def CallsFit (p : Pool κ) : Prop :=
  ∀ (i : Nat) (c : PoolCall), p.calls[i]? = some c → c.kind.Fits c.phase

/-- The step: phases go on fitting their calls. -/
theorem CallsFit.step (fits : p.CallsFit) (moved : Moves plan p now m q) : q.CallsFit := by
  intro i c' here
  cases callStep_of_moves moved here with
  | kept same => exact fits i c' same
  | made _ _ begun => exact fits_of_beginCall begun
  | gone called goes =>
    have before := fits i _ called
    exact fits_of_callGoes before goes

/-- The run: they do so after every schedule. -/
theorem callsFit_of_run (ran : run plan (fresh plan) es = some p) : p.CallsFit := by
  refine run_induction (fun _ p => p.CallsFit) ?_ ?_ ran
  · intro i c called
    simp [fresh] at called
  · exact fun _ fits made => fits.step (moves_of_after made)

/-- A creation changes nothing but itself before it returns, nor when it returns an error. -/
theorem create_leaves_alone (fits : p.CallsFit)
    (moved : Moves plan p now m q) {phase : CallPhase}
    (here : q.calls[i]? = some ⟨.create, phase⟩) (changed : p.calls[i]? ≠ q.calls[i]?)
    (bad : phase ≠ .returned (.ok ())) : q = { p with calls := q.calls } := by
  cases callStep_of_moves moved here with
  | kept same => exact absurd (same.trans here.symm) changed
  | made _ _ begun whole =>
    cases begun
    rw [whole]
  | gone called goes whole =>
    have waits := fits i _ called
    rw [whole]
    cases goes with
    | refused => rfl
    | overtaken => exact absurd rfl bad
    | created => exact absurd rfl bad
    | silenced => cases waits
    | drained => cases waits
    | joined => cases waits

/-- A creation that has returned an error has changed nothing but itself in any of its steps. -/
theorem failed_create_leaves_alone {before after : List (PoolEvent κ)} {e : PoolEvent κ}
    {q' : Pool κ} {failure : ServiceError} (reached : run plan (fresh plan) before = some q)
    (made : q.after? plan e = some q') (rest : run plan q' after = some p)
    (failed : p.calls[i]? = some ⟨.create, .returned (.error failure)⟩)
    (changed : q.calls[i]? ≠ q'.calls[i]?) : q' = { q with calls := q'.calls } := by
  have moved := moves_of_after made
  obtain ⟨c, here⟩ : ∃ c, q'.calls[i]? = some c := by
    cases called : q.calls[i]? with
    | some c =>
      obtain ⟨phase, here, -⟩ := call_kept moved called
      exact ⟨_, here⟩
    | none => exact Option.ne_none_iff_exists'.1 fun none => changed (called.trans none.symm)
  obtain ⟨phase, there, stays⟩ := call_kept_by_run rest here
  have same := Option.some.inj (there.symm.trans failed)
  obtain ⟨kind, phase'⟩ := c
  cases same
  refine create_leaves_alone (callsFit_of_run reached) moved here changed fun good => ?_
  cases stays _ good

end Pool

end LoadHarness
