import LoadHarness.Proofs.Lifecycle.Calls
import LoadHarness.Proofs.Lifecycle.Sound

/-!
# What a status tells

Whoever drives a pool sees only its status. `status_tells` says what can be read off it after every
schedule: the slots, the token and the count of the current generation, and for a started pool also
the start that it comes from.
-/

namespace LoadHarness

variable {κ : Type}

open Generation PoolStanding

/-- Who bears a badge: the number and the generation. -/
def Badge.bearer (b : Badge) : Nat × Nat := (b.number, b.generation)

/-- Who works: the numbers and generations of all workers. -/
def PoolStanding.bearers (s : PoolStanding κ) : List (Nat × Nat) := s.crew.map (·.bearer)

namespace Pool

variable {plan : PoolPlan κ} {p q r o : Pool κ} {m : PoolMove κ} {e : PoolEvent κ}
  {es : List (PoolEvent κ)}

/-! ## The start that made a pool started -/

/-- In a schedule, the start after which the pool was started all the time. -/
structure Launch (plan : PoolPlan κ) (es : List (PoolEvent κ)) where
  before : List (PoolEvent κ)
  now : Nat
  after : List (PoolEvent κ)
  /-- The pool before the start. -/
  origin : Pool κ
  whole : es = before ++ ⟨now, .call .start⟩ :: after
  reached : run plan (fresh plan) before = some origin
  ready : origin.status = .created
  held : ∀ part, part <+: after →
    ∃ q, run plan origin (⟨now, .call .start⟩ :: part) = some q ∧ q.status = .started

/-- The workers of a pool are those before a start and those that it launched. -/
def LaunchedFrom (plan : PoolPlan κ) (o p : Pool κ) : Prop :=
  p.current = o.current ∧
    p.standing.bearers = o.standing.bearers ++ (List.range plan.threads).map (·, o.current)

/-- A turn that ends with a started pool is a start or leaves the bearers alone. -/
theorem started_turn {s t : PoolStanding κ} (sound : s.Sound plan) (turned : Turns plan m s t)
    (on : t.status = .started) :
    (s.status = .started ∧ t.current = s.current ∧ t.bearers = s.bearers) ∨
      (s.status = .created ∧ m = .call .start ∧ t.current = s.current ∧
        t.bearers = s.bearers ++ (List.range plan.threads).map (·, s.current)) := by
  cases turned with
  | created => cases on
  | started was =>
    refine .inr ⟨was, rfl, rfl, ?_⟩
    rw [bearers, bearers, List.map_append, (sound.created was).1, PoolPlan.freshSlots]
    simp only [List.map_map]
    rfl
  | stopped => cases on
  | discarded => cases on
  | destroyed => cases on
  | finished launched =>
    refine .inl ⟨on, current_of_length (List.length_modify _ _ _), ?_⟩
    rw [bearers, bearers, List.map_set]
    exact set_of_getElem? (by rw [List.getElem?_map, launched]; rfl)

/-- A launch in a longer schedule. -/
def Launch.extend (l : Launch plan es) (ran : run plan (fresh plan) es = some q)
    (made : q.after? plan e = some r) (on : r.status = .started) : Launch plan (es ++ [e]) where
  before := l.before
  now := l.now
  after := l.after ++ [e]
  origin := l.origin
  whole := by simp [l.whole]
  reached := l.reached
  ready := l.ready
  held := by
    intro part within
    rcases List.prefix_concat_iff.1 within with whole | within
    · have upto : run plan l.origin (⟨l.now, .call .start⟩ :: l.after) = some q := by
        rw [← run_append_of_run l.reached, ← l.whole]
        exact ran
      exact ⟨r, by rw [whole, ← List.cons_append]; exact run_concat_iff.2 ⟨q, upto, made⟩, on⟩
    · exact l.held part within

/-- A schedule that ends with its launch. -/
def Launch.last (ran : run plan (fresh plan) es = some q) (ready : q.status = .created)
    (made : q.after? plan e = some r) (start : e.move = .call .start) (on : r.status = .started) :
    Launch plan (es ++ [e]) where
  before := es
  now := e.now
  after := []
  origin := q
  whole := by rw [← start]
  reached := ran
  ready := ready
  held := by
    intro part within
    rw [List.prefix_nil.1 within, ← start]
    exact ⟨r, run_singleton.trans made, on⟩

/-- The step: an event that ends with a started pool is a start or leaves the bearers alone. -/
theorem started_step (sound : q.standing.Sound plan) (follows : Follows plan m q r)
    (on : r.status = .started) :
    (q.status = .started ∧ r.current = q.current ∧ r.standing.bearers = q.standing.bearers) ∨
      (q.status = .created ∧ m = .call .start ∧ LaunchedFrom plan q r) := by
  rcases follows with same | turned
  · have status : r.status = q.status := congrArg PoolStanding.status same
    exact .inl ⟨status ▸ on, congrArg PoolStanding.current same, congrArg bearers same⟩
  · exact started_turn sound turned on

/-- The run: a started pool comes from a launch, and has its workers. -/
theorem launch_of_run (ran : run plan (fresh plan) es = some p) (on : p.status = .started) :
    ∃ l : Launch plan es, LaunchedFrom plan l.origin p := by
  refine run_induction
    (fun es p => p.status = .started → ∃ l : Launch plan es, LaunchedFrom plan l.origin p)
    (fun never => ?_) ?_ ran on
  · cases never
  intro es q e r ran ih made on
  have follows := follows_of_moves (moves_of_after made)
  rcases started_step (sound_of_run ran) follows on with ⟨was, current, bearers⟩ | ⟨was, start, new⟩
  · obtain ⟨l, launched⟩ := ih was
    exact ⟨l.extend ran made on, current.trans launched.1, bearers.trans launched.2⟩
  · exact ⟨.last ran was made start on, new⟩

/-! ## Counting workers -/

/-- What remains of a generation after a launch is what the launch has launched. -/
theorem unfinishedIn_of_launch {older newer : List Badge} {g : Nat}
    (before : ∀ b ∈ older, b.generation < g) (since : ∀ b ∈ newer, b.generation = g) :
    Badge.unfinishedIn (older ++ newer) g = newer.countP (!·.finished) := by
  have none := Badge.unfinishedIn_eq_zero before
  unfold Badge.unfinishedIn at none ⊢
  rw [List.countP_append, none, Nat.zero_add]
  refine List.countP_congr fun b member => ?_
  simp [since b member]

theorem countP_badges (workers : List (Worker κ)) :
    (workers.map (·.badge)).countP (!·.finished) = workers.countP (!·.isFinished) := by
  rw [List.countP_map]
  rfl

/-- The count of a created pool is that of its slots. -/
theorem remaining_of_created (sound : p.standing.Sound plan) (was : p.status = .created) :
    p.remaining = plan.threads := by
  obtain ⟨slots, -, older⟩ := sound.created was
  have counted : p.remaining = Badge.unfinishedIn p.standing.crew p.current +
    p.standing.waitingIn p.current := sound.counted p.current
  have launched : Badge.unfinishedIn p.standing.crew p.current = 0 :=
    Badge.unfinishedIn_eq_zero older
  have waiting : p.standing.waitingIn p.current = p.standing.slots.length := if_pos rfl
  rw [counted, launched, waiting, slots, Nat.zero_add, PoolPlan.freshSlots, List.length_map,
    List.length_range]

/-- The count of a started pool is that of the unfinished workers of its launch. -/
theorem remaining_of_launched (sound : p.standing.Sound plan) (on : p.status = .started)
    (origin : o.standing.Sound plan) (ready : o.status = .created)
    (launched : LaunchedFrom plan o p) :
    p.remaining = (p.workers.drop o.workers.length).countP (!·.isFinished) := by
  obtain ⟨current, bearers⟩ := launched
  have slots : p.standing.waitingIn p.current = 0 := waitingIn_of_no_slots (sound.started on).1 _
  have length : o.standing.bearers.length = o.workers.length := by
    simp [PoolStanding.bearers, standing]
  have older : (p.standing.crew.take o.workers.length).map (·.bearer) = o.standing.bearers := by
    rw [List.map_take]
    exact (congrArg _ bearers).trans (List.take_left' length)
  have newer : (p.standing.crew.drop o.workers.length).map (·.bearer) =
      (List.range plan.threads).map (·, o.current) := by
    rw [List.map_drop]
    exact (congrArg _ bearers).trans (List.drop_left' length)
  have counted : p.remaining = Badge.unfinishedIn p.standing.crew p.current + _ :=
    sound.counted p.current
  rw [counted, slots, Nat.add_zero, ← List.take_append_drop o.workers.length p.standing.crew,
    unfinishedIn_of_launch, ← countP_badges, List.map_drop]
  · rfl
  · intro b member
    have known : b.bearer ∈ o.standing.bearers := older ▸ List.mem_map_of_mem member
    obtain ⟨b', among, same⟩ := List.mem_map.1 known
    have generation : b'.generation = b.generation := congrArg Prod.snd same
    exact current ▸ generation ▸ (origin.created ready).2.2 b' among
  · intro b member
    have known : b.bearer ∈ (List.range plan.threads).map (·, o.current) :=
      newer ▸ List.mem_map_of_mem member
    obtain ⟨i, -, same⟩ := List.mem_map.1 known
    exact current ▸ (congrArg Prod.snd same).symm

/-- **A status tells where its pool stands.** Whatever calls are made, however they overlap and
whatever the workers do: the status moves along a life and nowhere else, each status goes with its
slots, its token and its count, the count of a started pool is that of the workers which the start
that started it has launched, and a creation that returns an error has changed nothing. -/
theorem status_tells (plan : PoolPlan κ) {es : List (PoolEvent κ)} {p : Pool κ}
    (ran : run plan (fresh plan) es = some p) :
    (∀ e q, p.after? plan e = some q → q.status = p.status ∨ p.status.Next q.status) ∧
    (p.status = .created →
      p.slots = (List.range plan.threads).map (fun i => ⟨i, plan.context i⟩) ∧
      p.remaining = plan.threads ∧ p.isCancelled p.current = false) ∧
    (p.status = .started →
      p.slots = [] ∧ p.isCancelled p.current = false ∧
      ∃ l : Launch plan es,
        p.workers.map (fun w => (w.number, w.generation)) =
          l.origin.workers.map (fun w => (w.number, w.generation)) ++
            (List.range plan.threads).map (·, p.current) ∧
        p.remaining = (p.workers.drop l.origin.workers.length).countP (!·.isFinished)) ∧
    (p.status = .stopped → p.isCancelled p.current = true) ∧
    (p.status = .destroyed → p.slots = []) ∧
    (∀ (i : Nat) failure before e after q q',
      p.calls[i]? = some ⟨.create, .returned (.error failure)⟩ → es = before ++ e :: after →
      run plan (fresh plan) before = some q → q.after? plan e = some q' →
      q.calls[i]? ≠ q'.calls[i]? → q' = { q with calls := q'.calls }) := by
  have sound : p.standing.Sound plan := sound_of_run ran
  refine ⟨?_, ?_, ?_, fun was => (sound.stopped was).2, sound.destroyed, ?_⟩
  · intro e q made
    exact status_of_follows (follows_of_moves (moves_of_after made))
  · intro was
    obtain ⟨slots, calm, -⟩ := sound.created was
    exact ⟨slots, remaining_of_created sound was, calm⟩
  · intro was
    obtain ⟨l, launched⟩ := launch_of_run ran was
    obtain ⟨slots, calm⟩ := sound.started was
    refine ⟨slots, calm, l, ?_, ?_⟩
    · have bearers := launched.2
      simp only [PoolStanding.bearers, standing, List.map_map, ← launched.1] at bearers
      exact bearers
    · exact remaining_of_launched sound was (sound_of_run l.reached) l.ready launched
  · intro i failure before e after q q' failed whole reached made changed
    have rest : run plan q' after = some p := by
      rw [whole, run_append_of_run reached, run, made] at ran
      exact ran
    exact failed_create_leaves_alone reached made rest failed changed

/-- Two workers are launched after a creation that failed and another that did not. -/
def secondTry : List (PoolEvent Unit) :=
  [⟨0, .call .create⟩, ⟨0, .prepared 0 (.error (.connection "refused"))⟩, ⟨1, .call .create⟩,
    ⟨1, .prepared 1 (.ok ())⟩, ⟨2, .call .start⟩, ⟨2, .worker 1 (.pick 0 (some 1))⟩]

/-- A creation that fails, one that does not, and a start. -/
theorem status_tells_second_try :
    ∃ p, run pair (fresh pair) secondTry = some p ∧ p.status = .started ∧ p.remaining = 2 ∧
      (∃ l : Launch pair secondTry,
        p.workers.map (fun w => (w.number, w.generation)) =
          l.origin.workers.map (fun w => (w.number, w.generation)) ++
            (List.range 2).map (·, p.current) ∧
        p.remaining = (p.workers.drop l.origin.workers.length).countP (!·.isFinished)) ∧
      p.result? 0 = some (.error (.resource (.connection "refused"))) := by
  obtain ⟨p, ran⟩ : ∃ p, run pair (fresh pair) secondTry = some p := ⟨_, rfl⟩
  have started : p.status = .started := by cases ran; rfl
  have remaining : p.remaining = 2 := by cases ran; rfl
  have refused : p.result? 0 = some (.error (.resource (.connection "refused"))) := by
    cases ran; rfl
  obtain ⟨-, -, launched, -⟩ := status_tells pair ran
  exact ⟨p, ran, started, remaining, (launched started).2.2, refused⟩

end Pool

end LoadHarness
