import LoadHarness.Proofs.Lifecycle.Withdrawal

/-!
# The course of a worker

A worker is launched under a live token, takes one turn after another, and at some time its token
is cancelled. What holds at the launch and is kept by every turn and by the cancellation holds of
the worker after every schedule: of its own part of the record, its token and its phase.
`course_induction` makes that argument once, whatever it is that holds.

Two facts about the pool go into it. A live token belongs to the current generation of a started
pool, so whoever finds the pool halted has been told so by its own token as well. And whoever
reports a failure has a cancelled token afterwards.
-/

namespace LoadHarness

variable {κ : Type}

open Generation

/-- The worker reports its failure. -/
def WorkerMove.isFault : WorkerMove κ → Bool
  | .fault => true
  | _ => false

/-- The part of a record that the worker at a position has left. -/
def partOf (i : Nat) (log : List (WorkEntry κ)) : List (WorkEntry κ) := log.filter (·.worker == i)

theorem partOf_append (i : Nat) (log more : List (WorkEntry κ)) :
    partOf i (log ++ more) = partOf i log ++ partOf i more := List.filter_append _ _

theorem partOf_own (x : WorkEntry κ) : partOf x.worker [x] = [x] := by
  simp [partOf]

theorem partOf_eq_nil {i : Nat} {log : List (WorkEntry κ)} (others : ∀ x ∈ log, x.worker ≠ i) :
    partOf i log = [] :=
  List.filter_eq_nil_iff.2 fun x member => by simpa using others x member

/-- The part of a worker in a record. -/
theorem mem_partOf_iff {i : Nat} {log : List (WorkEntry κ)} {x : WorkEntry κ} :
    x ∈ partOf i log ↔ x ∈ log ∧ x.worker = i := by
  simp [partOf]

namespace PoolStanding

/-- Whoever has a live token works for the current generation of a started pool. -/
def Engaged (s : PoolStanding κ) : Prop :=
  ∀ b ∈ s.crew, cancelledIn s.generations b.generation = false →
    s.status = .started ∧ b.generation = s.current

variable {plan : PoolPlan κ} {s t : PoolStanding κ} {m : PoolMove κ}

/-- The step: every turn leaves those with live tokens engaged. -/
theorem Engaged.turn (h : s.Engaged) (sound : s.Sound plan) (turned : Turns plan m s t) :
    t.Engaged := by
  -- a token that is live now was live before, when its bearer, unless launched now, was engaged
  have before : ∀ b ∈ s.crew, cancelledIn t.generations b.generation = false →
      s.status = .started ∧ b.generation = s.current := by
    intro b member live
    apply h b member
    refine Bool.eq_false_iff.2 fun cancelled => ?_
    have still := cancelled_of_turn turned cancelled
    exact absurd (live.symm.trans still) nofun
  have idle (was : s.status ≠ .started) : ∀ b ∈ s.crew,
      cancelledIn t.generations b.generation ≠ false :=
    fun b member live => was (before b member live).1
  intro b member live
  cases turned with
  | created free => exact absurd live (idle (free ▸ nofun) b member)
  | started was =>
    rcases List.mem_append.1 member with old | new
    · exact absurd live (idle (was ▸ nofun) b old)
    · obtain ⟨slot, -, rfl⟩ := List.mem_map.1 new
      exact ⟨rfl, rfl⟩
  | stopped was =>
    obtain ⟨-, current⟩ := before b member live
    have cancelled := cancelledIn_cancel sound.current_lt
    rw [current, cancelled] at live
    cases live
  | discarded was => exact absurd live (idle (was ▸ nofun) b member)
  | destroyed was => exact absurd live (idle (was ▸ nofun) b member)
  | @finished i c _ launched busy =>
    have current := current_of_length (t := { s with
      generations := s.generations.modify c.generation (.release 1)
      crew := s.crew.set i { c with finished := true } }) (List.length_modify _ _ _)
    rw [current]
    rcases List.mem_or_eq_of_mem_set member with old | rfl
    · exact before b old live
    · exact before c (List.mem_of_getElem? launched) live

end PoolStanding

namespace Pool

open PoolStanding

variable {plan : PoolPlan κ} {p q : Pool κ} {i : Nat} {w : Worker κ} {m : WorkerMove κ}
  {e : PoolEvent κ} {es : List (PoolEvent κ)}

/-- The run: those with live tokens stay engaged, whatever is done. -/
theorem engaged_of_run (sound : p.standing.Sound plan) (engaged : p.standing.Engaged)
    (ran : run plan p es = some q) : q.standing.Engaged := by
  refine run_induction (fun _ q => q.standing.Engaged) engaged ?_ ran
  intro es q e r ran engaged made
  rcases follows_of_moves (moves_of_after made) with same | turned
  · rwa [same]
  · exact engaged.turn (sound_of_continuation sound ran) turned

/-- A pool without workers has none whose token is live. -/
theorem engaged_of_nobody (nobody : p.workers = []) : p.standing.Engaged := by
  intro b member
  simp [standing, nobody] at member

/-- A live token is that of a started pool and its current generation. -/
theorem engaged_of_live (engaged : p.standing.Engaged) (launched : p.workers[i]? = some w)
    (live : p.isCancelled w.generation = false) :
    p.status = .started ∧ w.generation = p.current := by
  have member : w.badge ∈ p.standing.crew := List.mem_map_of_mem (List.mem_of_getElem? launched)
  exact engaged w.badge member live

/-- A worker that finds its pool halted has a cancelled token. -/
theorem cancelled_of_halted (engaged : p.standing.Engaged) (launched : p.workers[i]? = some w)
    (halted : p.status.isHalted = true) : p.isCancelled w.generation = true := by
  cases live : p.isCancelled w.generation with
  | true => rfl
  | false =>
    rw [(engaged_of_live engaged launched live).1] at halted
    cases halted

/-- The report of a failure cancels the token of the worker that makes it, if it is still live. -/
theorem halt_cancels (engaged : p.standing.Engaged) (sound : p.standing.Sound plan)
    (launched : p.workers[i]? = some w) : p.halt.isCancelled w.generation = true := by
  cases live : p.isCancelled w.generation with
  | true =>
    have halts : Follows plan (.call .stop) p p.halt := follows_halt (.inl rfl)
    exact cancelled_of_follows halts live
  | false =>
    obtain ⟨on, current⟩ := engaged_of_live engaged launched live
    rw [current]
    simp only [halt, ServiceStatus.move, if_pos on]
    exact cancelledIn_cancel sound.current_lt

/-- A worker that reports a failure has one, and halts its pool. -/
theorem fault_eq (launched : p.workers[i]? = some w) (made : p.after? plan e = some q)
    (move : e.move = .worker i .fault) :
    (∃ failure, w.phase = .failed failure) ∧ q = p.halt.setPhase i .leaving := by
  obtain ⟨⟨q', said⟩, stepped, rfl⟩ := Option.map_eq_some_iff.1 made
  simp only [step, move, launched] at stepped
  obtain ⟨w', turned⟩ := turned_of_workerStep launched stepped
  have failing : ∃ failure, w.phase = .failed failure := by
    have turns := turned.turns
    generalize w.phase = before, w'.phase = after at turns
    cases turns with
    | faults => exact ⟨_, rfl⟩
  obtain ⟨failure, stands⟩ := failing
  simp only [stands, workerStep, Option.some.injEq, Prod.mk.injEq] at stepped
  exact ⟨⟨failure, stands⟩, stepped.1.symm⟩

/-- The token of a worker after a step of its own. -/
theorem token_of_step (engaged : p.standing.Engaged) (sound : p.standing.Sound plan)
    (launched : p.workers[i]? = some w) (made : p.after? plan e = some q)
    (move : e.move = .worker i m) :
    q.isCancelled w.generation = (p.isCancelled w.generation || m.isFault) := by
  by_cases faulty : m.isFault = true
  · have fault : m = .fault := by cases m <;> first | rfl | cases faulty
    obtain ⟨-, rfl⟩ := fault_eq launched made (fault ▸ move)
    rw [faulty, Bool.or_true]
    exact halt_cancels engaged sound launched
  · rw [Bool.eq_false_iff.2 faulty, Bool.or_false]
    have moved := moves_of_after made
    rw [move] at moved
    cases moved with
    | reports own => obtain ⟨_, tick | silence⟩ := own <;> contradiction
    | goes _ goes => cases goes
    | works _ goes =>
      cases goes with
      | works => rfl
      | faults => exact absurd rfl faulty
      | releases => exact cancelledIn_release _ _ _

/-! ## What holds all the way -/

/-- Only workers that have been launched are on record. -/
theorem worker_lt_of_mem_record (ran : run plan p es = some q) :
    ∀ x ∈ record plan p es, x.worker < q.workers.length := by
  refine run_induction (fun es q => ∀ x ∈ record plan p es, x.worker < q.workers.length)
    (fun _ none => by cases none) ?_ ran
  intro es q e r ran known made x member
  rw [record_concat ran made] at member
  have works := works_of_after made
  generalize e.move = move at works member
  cases works with
  | turned launched turned =>
    rw [turned.workers, List.length_set]
    rcases List.mem_append.1 member with old | new
    · exact known x old
    · rw [turned.entries_eq launched] at new
      cases List.mem_singleton.1 new
      exact (List.getElem?_eq_some_iff.1 launched).1
  | joined new workers _ _ other =>
    rw [entries_of_other other, List.append_nil] at member
    rw [workers, List.length_append]
    exact Nat.lt_add_right _ (known x member)

/-- A statement about a worker's part of the record, its token and its phase that its course keeps:
it is true at the launch, and every turn and the cancellation of the token leave it true. A turn
that finds the pool halted finds the token cancelled, and a reported failure leaves it so. -/
structure CourseInvariant (plan : PoolPlan κ)
    (Inv : List (WorkEntry κ) → Bool → WorkerPhase → Prop) : Prop where
  launch : Inv [] false .looping
  cancel : ∀ {log phase}, Inv log false phase → Inv log true phase
  turn : ∀ {log cancelled halted now number i before m after}, Inv log cancelled before →
    before.Turns plan cancelled halted now number m after → (halted = true → cancelled = true) →
    Inv (log ++ [⟨i, before, m, after⟩]) (cancelled || m.isFault) after

/-- Such a statement holds of every worker there is, given the record. -/
def EachHolds (Inv : List (WorkEntry κ) → Bool → WorkerPhase → Prop) (log : List (WorkEntry κ))
    (p : Pool κ) : Prop :=
  ∀ (i : Nat) (w : Worker κ), p.workers[i]? = some w →
    Inv (partOf i log) (p.isCancelled w.generation) w.phase

variable {Inv : List (WorkEntry κ) → Bool → WorkerPhase → Prop} {log : List (WorkEntry κ)}

/-- Tokens that are cancelled on the way do not harm the invariant. -/
theorem CourseInvariant.later (keeps : CourseInvariant plan Inv) {c c' : Bool}
    {phase : WorkerPhase} (h : Inv log c phase) (still : c = true → c' = true) :
    Inv log c' phase := by
  cases c with
  | true => rwa [still rfl]
  | false =>
    cases c' with
    | true => exact keeps.cancel h
    | false => exact h

/-- One worker takes a turn; the tokens of the others may be cancelled by it. -/
theorem EachHolds.turned {w' : Worker κ} (h : p.EachHolds Inv log)
    (keeps : CourseInvariant plan Inv) (engaged : p.standing.Engaged)
    (sound : p.standing.Sound plan) (launched : p.workers[i]? = some w)
    (turned : Turned plan p e.now i w m w' q) (made : p.after? plan e = some q)
    (move : e.move = .worker i m) : q.EachHolds Inv (log ++ [⟨i, w.phase, m, w'.phase⟩]) := by
  intro j v here
  rw [partOf_append]
  by_cases own : i = j
  · subst own
    cases here.symm.trans (turned.here launched)
    rw [partOf_own ⟨i, w.phase, m, w'.phase⟩, turned.generation,
      token_of_step engaged sound launched made move]
    exact keeps.turn (h i w launched) turned.turns (cancelled_of_halted engaged launched)
  · have silent : partOf j [⟨i, w.phase, m, w'.phase⟩] = [] := partOf_eq_nil (by simpa using own)
    rw [silent, List.append_nil]
    rw [turned.workers, List.getElem?_set_ne own] at here
    exact keeps.later (h j v here)
      (cancelled_of_follows (follows_of_moves (moves_of_after made)))

/-- New workers have left nothing on record. -/
theorem EachHolds.joined {new : List (Worker κ)} (h : p.EachHolds Inv log)
    (keeps : CourseInvariant plan Inv) (known : ∀ x ∈ log, x.worker < p.workers.length)
    (workers : q.workers = p.workers ++ new) (looping : ∀ w ∈ new, w.phase = .looping)
    (made : p.after? plan e = some q) : q.EachHolds Inv log := by
  intro j v here
  rw [workers] at here
  by_cases old : j < p.workers.length
  · rw [List.getElem?_append_left old] at here
    exact keeps.later (h j v here)
      (cancelled_of_follows (follows_of_moves (moves_of_after made)))
  · have none : partOf j log = [] := partOf_eq_nil fun x member same => old (same ▸ known x member)
    rw [List.getElem?_append_right (Nat.le_of_not_lt old)] at here
    rw [none, looping v (List.mem_of_getElem? here)]
    exact keeps.later keeps.launch nofun

/-- The run: what the course of a worker keeps holds of every worker, whatever is done, if it held of
those that were there at first. -/
theorem EachHolds.of_run (start : p.EachHolds Inv []) (keeps : CourseInvariant plan Inv)
    (sound : p.standing.Sound plan) (engaged : p.standing.Engaged)
    (ran : run plan p es = some q) : q.EachHolds Inv (record plan p es) := by
  refine run_induction (fun es q => q.EachHolds Inv (record plan p es)) start ?_ ran
  intro es q e r ran ih made
  have works := works_of_after made
  rw [record_concat ran made]
  generalize move : e.move = m at works
  cases works with
  | turned launched turned =>
    rw [turned.entries_eq launched]
    exact ih.turned keeps (engaged_of_run sound engaged ran) (sound_of_continuation sound ran)
      launched turned made move
  | joined new workers looping _ other =>
    rw [entries_of_other other, List.append_nil]
    exact ih.joined keeps (worker_lt_of_mem_record ran) workers looping made

/-- So it holds in a pool that had no workers at first. -/
theorem course_induction (keeps : CourseInvariant plan Inv) (sound : p.standing.Sound plan)
    (nobody : p.workers = []) (ran : run plan p es = some q) :
    q.EachHolds Inv (record plan p es) := by
  have start : p.EachHolds Inv [] := fun i w none => by simp [nobody] at none
  exact start.of_run keeps sound (engaged_of_nobody nobody) ran

end Pool

end LoadHarness
