import LoadHarness.Proofs.Lifecycle.Schedule

/-!
# The reporting of a pool

A reporter remembers the loop that it has begun until it tells it to end, and that is the only loop
not told. A stop tells it before it waits for anything, and only after it has halted the pool; so
while the stop waits the pool is no longer started, whatever becomes of its status meanwhile, and a
start that comes in between finds no loop remembered and begins one. Hence a started pool has its
one loop.
-/

namespace LoadHarness

variable {κ : Type}

namespace Reporter

variable {r s : Reporter} {l : ReportLoop} {i now : Nat}

/-- Loops that have not been told to end. -/
def untold (r : Reporter) : Nat := r.loops.countP (!·.told)

/-- A reporter that is on: the loop it remembers goes on, and all others have been told to end. -/
structure Sound (r : Reporter) : Prop where
  on : r.isOn = true
  untold : r.untold = r.running.isSome.toNat
  going : ∀ i, r.running = some i →
    ∃ l, r.loops[i]? = some l ∧ l.told = false ∧ l.ended = false

/-- A new reporter is sound. -/
theorem sound_ofSettings {settings : ReportSettings} (on : (ofSettings settings).isOn = true) :
    (ofSettings settings).Sound := by
  constructor
  · exact on
  · rfl
  · intro i running
    cases running

/-- A loop that changes counts by what it has been told before and after. -/
theorem untold_modify (here : r.loops[i]? = some l) (f : ReportLoop → ReportLoop) :
    (r.loops.modify i f).countP (!·.told) + (!l.told).toNat = r.untold + (!(f l).told).toNat := by
  have : Inhabited ReportLoop := ⟨l⟩
  rw [List.modify_eq_set, here]
  exact Pool.countP_set_add here _ _

/-- A start begins a loop if none is remembered. -/
theorem Sound.start (sound : r.Sound) (now : Nat) :
    (r.start now).Sound ∧ (r.start now).running.isSome = true := by
  unfold Reporter.start
  rw [sound.on, Bool.true_and]
  cases running : r.running with
  | some i =>
    exact ⟨sound, congrArg Option.isSome running⟩
  | none =>
    have none : r.loops.countP (!·.told) = 0 := sound.untold.trans (by rw [running]; rfl)
    refine ⟨⟨sound.on, ?_, ?_⟩, rfl⟩
    · simp [Reporter.untold, none]
    · rintro i begun
      cases begun
      exact ⟨_, List.getElem?_concat_length, rfl, rfl⟩

/-- Telling leaves no loop that has not been told. -/
theorem Sound.tell (sound : r.Sound) : r.tell.2.Sound := by
  unfold Reporter.tell
  cases running : r.running with
  | none =>
    exact sound
  | some i =>
    obtain ⟨l, here, told, -⟩ := sound.going i running
    have one : r.untold = 1 := sound.untold.trans (by rw [running]; rfl)
    have counted := untold_modify here fun l => { l with told := true }
    rw [told, one] at counted
    refine ⟨sound.on, ?_, ?_⟩
    · exact Nat.succ_inj.1 counted
    · intro j
      exact nofun

/-- A loop that changes without being told, and without ending unless it has been told. -/
theorem Sound.modify (sound : r.Sound) (here : r.loops[i]? = some l) {f : ReportLoop → ReportLoop}
    (told : (f l).told = l.told) (ended : l.told = false → (f l).ended = l.ended) :
    ({ r with loops := r.loops.modify i f } : Reporter).Sound := by
  constructor
  · exact sound.on
  · have counted := untold_modify here f
    rw [told] at counted
    exact (Nat.add_right_cancel counted).trans sound.untold
  · intro j running
    obtain ⟨l', there, untold, going⟩ := sound.going j running
    by_cases own : i = j
    · subst own
      obtain rfl : l = l' := Option.some.inj (here.symm.trans there)
      refine ⟨f l, ?_, told.trans untold, (ended untold).trans going⟩
      rw [List.getElem?_modify_eq, here]
      rfl
    · refine ⟨l', ?_, untold, going⟩
      rw [List.getElem?_modify_ne _ _ own, there]

/-- A report leaves a sound reporter sound. -/
theorem Sound.tick (sound : r.Sound) (ticked : r.tick i now = some s) :
    s.Sound ∧ s.running = r.running := by
  unfold Reporter.tick at ticked
  split at ticked
  · next l here =>
    split at ticked
    · cases ticked
    · cases ticked
      exact ⟨sound.modify here rfl fun _ => rfl, rfl⟩
  · cases ticked

/-- So does the end of a loop. -/
theorem Sound.finish (sound : r.Sound) (finished : r.finish i = some s) :
    s.Sound ∧ s.running = r.running := by
  unfold Reporter.finish at finished
  split at finished
  · next l here =>
    split at finished
    · next told =>
      cases finished
      rw [Bool.and_eq_true] at told
      exact ⟨sound.modify here rfl fun untold => absurd (untold.symm.trans told.1) nofun, rfl⟩
    · cases finished
  · cases finished

end Reporter

namespace Pool

variable {plan : PoolPlan κ} {p q : Pool κ} {m : PoolMove κ} {now : Nat} {said : List Notice}

/-- What a step means for the reporting. -/
inductive Reports (p : Pool κ) (now : Nat) (q : Pool κ) : Prop where
  | begins (reporter : q.reporter = p.reporter.start now)
  | ends (reporter : q.reporter = p.reporter.tell.2) (halted : q.status ≠ .started)
  | writes (i : Nat) (ticked : p.reporter.tick i now = some q.reporter)
      (status : q.status = p.status)
  | finishes (i : Nat) (finished : p.reporter.finish i = some q.reporter)
      (status : q.status = p.status)
  /-- Nothing; and only a start makes a pool started. -/
  | rests (reporter : q.reporter = p.reporter) (status : q.status = .started → p.status = .started)

theorem halt_reporter (p : Pool κ) : p.halt.reporter = p.reporter := by
  unfold halt
  split <;> rfl

/-- A pool that has been stopped is not started. -/
theorem halt_status (p : Pool κ) : p.halt.status ≠ .started := by
  by_cases was : p.status = .started
  · simp [halt, ServiceStatus.move, was]
  · simp [halt, ServiceStatus.move, was]

/-- A launch starts the reporter, or does nothing. -/
theorem reporter_of_launch (p : Pool κ) (now : Nat) :
    (p.launch now).reporter = p.reporter.start now ∨ p.launch now = p := by
  by_cases was : p.status = .created
  · refine .inl ?_
    simp only [launch, ServiceStatus.move, if_pos was]
  · refine .inr ?_
    simp only [launch, ServiceStatus.move, if_neg was]

/-- How a call that goes on leaves the reporter. -/
theorem reports_of_goes {i : Nat} {kind : LifecycleCall} {phase phase' : CallPhase}
    (goes : CallGoes plan p i m kind phase q phase') : Reports p now (q.setCall i phase') := by
  cases goes with
  | created => exact .rests rfl nofun
  | discarded => exact .rests rfl nofun
  | drains => exact .rests rfl nofun
  | _ => exact .rests rfl id

/-- How a worker leaves it. -/
theorem reports_of_works {i : Nat} {w : Worker κ} {m : WorkerMove κ}
    (goes : WorkerGoes p i w m q) : Reports p now q := by
  cases goes with
  | works => exact .rests rfl id
  | faults => exact .rests p.halt_reporter fun on => absurd on p.halt_status
  | releases => exact .rests rfl id

/-- Every step means one of these. -/
theorem reports_of_step (stepped : p.step plan now m = some (q, said)) : Reports p now q := by
  cases moves_of_step stepped with
  | @calls kind _ _ begun =>
    cases kind with
    | create =>
      cases begun
      exact .rests rfl id
    | start =>
      cases begun
      rcases p.reporter_of_launch now with begun | same
      · exact .begins begun
      · have reporter : (p.launch now).reporter = p.reporter := congrArg _ same
        have status : (p.launch now).status = p.status := congrArg _ same
        exact .rests reporter fun on => status.symm.trans on
    | stop =>
      cases begun
      exact .ends (congrArg (·.tell.2) p.halt_reporter) p.halt_status
    | destroy =>
      cases begun
      exact .ends (congrArg (·.tell.2) p.halt_reporter) p.halt_status
  | goes _ goes => exact reports_of_goes goes
  | reports own =>
    obtain ⟨i, rfl | rfl⟩ := own
    · obtain ⟨r, ticked, made⟩ := Option.map_eq_some_iff.1 stepped
      cases made
      exact .writes i ticked rfl
    · obtain ⟨r, finished, made⟩ := Option.map_eq_some_iff.1 stepped
      cases made
      exact .finishes i finished rfl
  | works _ goes => exact reports_of_works goes

/-- The reporting is sound, and goes on while the pool is started. -/
structure Reported (p : Pool κ) : Prop where
  sound : p.reporter.Sound
  going : p.status = .started → p.reporter.running.isSome = true

/-- The step: whatever happens to a pool, its reporting stays sound. -/
theorem Reported.step (reported : p.Reported) (reports : Reports p now q) : q.Reported := by
  obtain ⟨sound, going⟩ := reported
  cases reports with
  | begins reporter =>
    have begun := sound.start now
    rw [← reporter] at begun
    exact ⟨begun.1, fun _ => begun.2⟩
  | ends reporter halted =>
    exact ⟨reporter ▸ sound.tell, fun on => absurd on halted⟩
  | writes i ticked status =>
    obtain ⟨still, running⟩ := sound.tick ticked
    exact ⟨still, fun on => running ▸ going (status ▸ on)⟩
  | finishes i finished status =>
    obtain ⟨still, running⟩ := sound.finish finished
    exact ⟨still, fun on => running ▸ going (status ▸ on)⟩
  | rests reporter status =>
    exact ⟨reporter ▸ sound, fun on => reporter ▸ going (status on)⟩

/-- The run: the reporting of a pool stays sound throughout. -/
theorem reported_of_run {es : List (PoolEvent κ)} (start : p.Reported)
    (ran : run plan p es = some q) : q.Reported := by
  refine run_induction (fun _ q => q.Reported) start ?_ ran
  intro es q e r _ reported made
  obtain ⟨⟨r', said⟩, stepped, rfl⟩ := Option.map_eq_some_iff.1 made
  exact reported.step (reports_of_step stepped)

/-- A loop that goes on writes its report when it is due. -/
theorem step_tick {i : Nat} {l : ReportLoop} (here : p.reporter.loops[i]? = some l)
    (going : l.ended = false) (due : l.due ≤ now) :
    ∃ q, p.step plan now (.tick i) = some (q, [.report p.timers]) := by
  have late : ¬now < l.due := Nat.not_lt.2 due
  simp [step, Reporter.tick, here, going, late]

/-- **A started pool has one reporting loop.** Whatever calls are made, however they overlap and
whatever the workers do: of the loops that the reporter has begun at most one has not been told to
end, and while the pool is started there is one; that loop goes on and writes a report when one is
due. -/
theorem reported_while_started (plan : PoolPlan κ) (enabled : plan.reports.enabled = true)
    (spaced : plan.reports.interval ≠ .zero) {es : List (PoolEvent κ)} {p : Pool κ}
    (ran : run plan (fresh plan) es = some p) :
    p.reporter.untold ≤ 1 ∧
    (p.status = .started →
      p.reporter.untold = 1 ∧ p.reporter.isRunning = true ∧
      ∃ i l, p.reporter.loops[i]? = some l ∧ l.told = false ∧
        ∀ now, l.due ≤ now → ∃ q, p.step plan now (.tick i) = some (q, [.report p.timers])) := by
  have on : (Reporter.ofSettings plan.reports).isOn = true := by
    have long : plan.reports.interval.isZero = false := by
      apply beq_false_of_ne
      intro zero
      exact spaced (Duration.ext_nanos zero)
    simp [Reporter.isOn, Reporter.ofSettings, enabled, long]
  have start : (fresh plan).Reported := ⟨Reporter.sound_ofSettings on, nofun⟩
  obtain ⟨sound, going⟩ := reported_of_run start ran
  constructor
  · rw [sound.untold]
    exact Bool.toNat_le _
  · intro started
    have remembered := going started
    obtain ⟨i, running⟩ := Option.isSome_iff_exists.1 remembered
    obtain ⟨l, here, untold, on⟩ := sound.going i running
    refine ⟨?_, ?_, i, l, here, untold, ?_⟩
    · rw [sound.untold, remembered]
      rfl
    · simp [Reporter.isRunning, running, Reporter.hasEnded, here, on]
    · intro now due
      exact step_tick here on due

/-- Two workers whose timers are reported every five seconds. -/
def watched : PoolPlan Unit := { pair with reports := ⟨true, .ofSeconds 5⟩ }

/-- A stop before anything else, and a pool that is started anew while a destruction of it still
waits for the reporting to end. -/
def handover : List (PoolEvent Unit) :=
  [⟨0, .call .stop⟩, ⟨0, .proceed 0⟩, ⟨1, .call .create⟩, ⟨1, .prepared 1 (.ok ())⟩,
    ⟨2, .call .start⟩, ⟨3, .call .destroy⟩, ⟨3, .call .destroy⟩, ⟨3, .proceed 4⟩,
    ⟨4, .call .create⟩, ⟨4, .prepared 5 (.ok ())⟩, ⟨5, .call .start⟩]

/-- Two loops while one hands over to the other: one has been told to end. -/
theorem reported_while_started_handover :
    watched.reports.enabled = true ∧ watched.reports.interval ≠ .zero ∧
      ∃ p, run watched (fresh watched) handover = some p ∧ p.status = .started ∧
        p.reporter.loops.map (·.told) = [true, false] ∧
        p.reporter.loops.map (·.ended) = [false, false] ∧ p.reporter.untold = 1 := by
  have spaced : watched.reports.interval ≠ .zero := by decide
  obtain ⟨p, ran⟩ : ∃ p, run watched (fresh watched) handover = some p := ⟨_, rfl⟩
  have started : p.status = .started := by cases ran; rfl
  have told : p.reporter.loops.map (·.told) = [true, false] := by cases ran; rfl
  have ended : p.reporter.loops.map (·.ended) = [false, false] := by cases ran; rfl
  obtain ⟨-, loop⟩ := reported_while_started watched rfl spaced ran
  exact ⟨rfl, spaced, p, ran, started, told, ended, (loop started).1⟩

end Pool

end LoadHarness
