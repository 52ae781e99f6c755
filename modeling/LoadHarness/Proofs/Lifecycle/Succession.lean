import LoadHarness.Proofs.Lifecycle.Course
import LoadHarness.Proofs.Lifecycle.Drain

/-!
# One generation after another

A destruction gives the status up before it waits for its workers, so a creation can overtake it,
and then two generations share one status, one token cell and one list of handles. What may come of
this shows in `stopped_by_the_past`. As long as no generation begins while another one is waited
for, the generations keep apart: that is `generations_apart`.
-/

namespace LoadHarness

variable {κ : Type}

open Generation PoolStanding

namespace Pool

variable {plan : PoolPlan κ} {p q r : Pool κ} {m : PoolMove κ} {now i j g : Nat} {w : Worker κ}
  {e : PoolEvent κ} {es fs : List (PoolEvent κ)}

/-- The step completes a creation that finds its pool destroyed, and so begins a generation. -/
def begins (p : Pool κ) : PoolMove κ → Bool
  | .prepared _ (.ok ()) => p.status == .destroyed
  | _ => false

/-- In a schedule no generation begins while a destruction waits for workers. -/
def undisturbed (plan : PoolPlan κ) (es : List (PoolEvent κ)) : Bool :=
  heeds plan (fun p m => !(p.begins m && p.isDraining)) (fresh plan) es

/-- Where a creation is allowed nobody drains. -/
theorem quiet_of_allowed (follows : Follows plan m p q)
    (allowed : (!(p.begins m && p.isDraining)) = true) (free : p.status = .destroyed)
    (created : q.status = .created) : p.isDraining = false := by
  obtain ⟨call, rfl⟩ := prepared_of_follows follows free created
  have begins : p.begins (.prepared call (.ok ())) = true := beq_iff_eq.2 free
  rwa [begins, Bool.true_and, Bool.not_eq_true'] at allowed

/-- The run: generations that do not disturb each other leave the pool orderly. -/
theorem orderly_of_undisturbed (calm : undisturbed plan es = true)
    (ran : run plan (fresh plan) es = some p) : p.Orderly := by
  refine run_induction (fun es p => undisturbed plan es = true → p.Orderly)
    (fun _ => orderly_fresh) ?_ ran calm
  intro es q e r ran ih made calm
  obtain ⟨before, allowed⟩ := heeds_concat ran calm
  have moved := moves_of_after made
  exact (ih before).quiet_step (sound_of_run ran) moved
    (quiet_of_allowed (follows_of_moves moved) allowed)

/-! ## Faults -/

/-- Whoever has not finished works for the current generation. -/
theorem Orderly.current_of_busy (h : p.Orderly) (sound : p.standing.Sound plan)
    (launched : p.workers[i]? = some w) (busy : w.isFinished = false) :
    w.generation = p.current := by
  have member : w.badge ∈ p.standing.crew := List.mem_map_of_mem (List.mem_of_getElem? launched)
  have rank : w.generation ≤ p.current := sound.ranked w.badge member
  by_contra other
  have finished : w.isFinished = true := h.older w.badge member (Nat.lt_of_le_of_ne rank other)
  exact absurd (busy.symm.trans finished) nofun

/-- The report of a failure concerns the current token only. -/
theorem halt_isCancelled (other : g ≠ p.current) : p.halt.isCancelled g = p.isCancelled g := by
  unfold halt
  split
  · rfl
  · exact cancelledIn_cancel_other other

/-! ## Destructions -/

theorem halt_handles (p : Pool κ) : p.halt.handles = p.handles := by
  unfold halt
  split <;> rfl

/-- Only a start puts handles down, those of the workers that it launches. -/
theorem handles_of_moves (moved : Moves plan p now m q) {k : Nat} (member : k ∈ q.handles) :
    k ∈ p.handles ∨ k < q.workers.length := by
  cases moved with
  | @calls kind _ _ begun =>
    cases kind with
    | create => cases begun; exact .inl member
    | start =>
      cases begun
      simp only [launch] at member ⊢
      split at member
      · exact .inl member
      · obtain ⟨n, inside, rfl⟩ := List.mem_map.1 member
        refine .inr ?_
        simp only [List.length_append, List.length_map]
        exact Nat.add_lt_add_left (List.mem_range.1 inside) _
    | stop => cases begun; exact .inl (p.halt_handles ▸ member)
    | destroy => cases begun; exact .inl (p.halt_handles ▸ member)
  | @goes _ _ c _ _ _ goes =>
    obtain ⟨kind, phase⟩ := c
    cases goes with
    | drained => cases member
    | _ => exact .inl member
  | reports => exact .inl member
  | works _ goes =>
    cases goes with
    | works => exact .inl member
    | faults => exact .inl (p.halt_handles ▸ member)
    | releases => exact .inl member

/-- Workers stay where they are, and work for the same generation. -/
theorem worker_kept (made : p.after? plan e = some q) (launched : p.workers[i]? = some w) :
    ∃ w', q.workers[i]? = some w' ∧ w'.generation = w.generation := by
  have works := works_of_after made
  generalize e.move = m at works
  cases works with
  | @turned j v v' m _ here turned =>
    by_cases own : j = i
    · subst own
      cases launched.symm.trans here
      exact ⟨v', turned.here here, turned.generation⟩
    · refine ⟨w, ?_, rfl⟩
      rw [turned.workers, List.getElem?_set_ne own]
      exact launched
  | joined new workers =>
    refine ⟨w, ?_, rfl⟩
    rw [workers, List.getElem?_append_left (List.getElem?_eq_some_iff.1 launched).1]
    exact launched

/-- The run: the next destruction would wait for workers that have been launched. -/
theorem handles_launched (ran : run plan (fresh plan) es = some p) :
    ∀ k ∈ p.handles, ∃ w, p.workers[k]? = some w := by
  refine run_induction (fun _ p => ∀ k ∈ p.handles, ∃ w, p.workers[k]? = some w)
    (fun _ none => by cases none) ?_ ran
  intro es q e r _ valid made k member
  rcases handles_of_moves (moves_of_after made) member with old | inside
  · obtain ⟨w, launched⟩ := valid k old
    obtain ⟨w', here, -⟩ := worker_kept made launched
    exact ⟨w', here⟩
  · exact ⟨_, List.getElem?_eq_getElem inside⟩

/-- Call `j`, a destruction that has ended generation `g`, waits for nobody of a later one. -/
inductive WaitsUpTo (j g : Nat) (p : Pool κ) : Prop where
  | draining (here : p.calls[j]? = some ⟨.destroy, .draining g⟩)
  | joining {workers} (here : p.calls[j]? = some ⟨.destroy, .joining workers⟩)
      (ended : g ≤ p.current)
      (own : ∀ k ∈ workers, ∃ w, p.workers[k]? = some w ∧ w.generation ≤ g)
  | returned {result} (here : p.calls[j]? = some ⟨.destroy, .returned result⟩)

/-- Generations only become more. -/
theorem current_le_of_turn {s t : PoolStanding κ} (turned : Turns plan m s t) :
    s.current ≤ t.current := by
  cases turned with
  | created => simp [PoolStanding.current]
  | started => exact Nat.le_refl _
  | stopped => exact Nat.le_of_eq (current_of_length (List.length_modify _ _ _)).symm
  | discarded => exact Nat.le_of_eq (current_of_length (List.length_modify _ _ _)).symm
  | destroyed => exact Nat.le_refl _
  | finished => exact Nat.le_of_eq (current_of_length (List.length_modify _ _ _)).symm

theorem current_le_of_follows (follows : Follows plan m p q) : p.current ≤ q.current :=
  follows.lift (R := fun s t => s.current ≤ t.current) (fun _ => Nat.le_refl _) current_le_of_turn

/-- The step: a destruction that begins to join takes the handles of the generation it has ended. -/
theorem WaitsUpTo.step (h : WaitsUpTo j g p) (orderly : p.Orderly) (sound : p.standing.Sound plan)
    (valid : ∀ k ∈ p.handles, ∃ w, p.workers[k]? = some w) (made : p.after? plan e = some q) :
    WaitsUpTo j g q := by
  have moved := moves_of_after made
  have later := current_le_of_follows (follows_of_moves moved)
  cases h with
  | draining here =>
    obtain ⟨phase, there, -⟩ := call_kept moved here
    cases callStep_of_moves moved there with
    | kept same =>
      cases here.symm.trans same
      exact .draining there
    | made none => exact absurd (here.symm.trans none) nofun
    | gone called goes =>
      cases here.symm.trans called
      obtain ⟨rfl, -⟩ := orderly.own j _ _ here rfl
      generalize e.move = m at goes
      cases goes with
      | drained =>
        refine .joining there later fun k member => ?_
        obtain ⟨w, launched⟩ := valid k member
        obtain ⟨w', still, generation⟩ := worker_kept made launched
        have among : w.badge ∈ p.standing.crew :=
          List.mem_map_of_mem (List.mem_of_getElem? launched)
        exact ⟨w', still, generation ▸ sound.ranked w.badge among⟩
  | @joining workers here ended own =>
    obtain ⟨phase, there, -⟩ := call_kept moved here
    cases callStep_of_moves moved there with
    | kept same =>
      cases here.symm.trans same
      refine .joining there (Nat.le_trans ended later) fun k member => ?_
      obtain ⟨w, launched, early⟩ := own k member
      obtain ⟨w', still, generation⟩ := worker_kept made launched
      exact ⟨w', still, generation ▸ early⟩
    | made none => exact absurd (here.symm.trans none) nofun
    | gone called goes =>
      cases here.symm.trans called
      generalize e.move = m at goes
      cases goes with
      | joined => exact .returned there
  | returned here =>
    obtain ⟨phase, there, stays⟩ := call_kept moved here
    cases stays _ rfl
    exact .returned there

/-- The run: so it is after every undisturbed schedule. -/
theorem waitsUpTo_of_run (calm : undisturbed plan (es ++ fs) = true)
    (reached : run plan (fresh plan) es = some p)
    (waits : p.calls[j]? = some ⟨.destroy, .draining g⟩) (ran : run plan p fs = some q) :
    WaitsUpTo j g q := by
  refine run_induction (fun fs q => undisturbed plan (es ++ fs) = true → WaitsUpTo j g q)
    (fun _ => .draining waits) ?_ ran calm
  intro fs q e r ran ih made calm
  have all : run plan (fresh plan) (es ++ fs) = some q := (run_append_of_run reached).trans ran
  rw [← List.append_assoc] at calm
  have before := (heeds_concat all calm).1
  exact (ih before).step (orderly_of_undisturbed before all) (sound_of_run all)
    (handles_launched all) made

/-- Nobody is left to be joined when everybody has finished. -/
theorem allFinished_of {workers : List Nat}
    (all : ∀ k ∈ workers, ∀ w, p.workers[k]? = some w → w.isFinished = true) :
    p.allFinished workers = true := by
  refine List.all_eq_true.2 fun k member => ?_
  cases here : p.workers[k]? with
  | none => rfl
  | some w => exact all k member w here

theorem after?_of_resume {c : PoolCall} {phase : CallPhase} {said : List Notice}
    (called : p.calls[j]? = some c) (resumed : p.resume c.kind c.phase = some (q, phase, said)) :
    p.after? plan ⟨now, .proceed j⟩ = some (q.setCall j phase) := by
  simp only [after?, step, called, resumed]
  rfl

/-- A destruction goes on as soon as the generation that it has ended has no workers left. -/
theorem WaitsUpTo.goes_on (h : WaitsUpTo j g p) (orderly : p.Orderly)
    (sound : p.standing.Sound plan)
    (gone : ∀ w ∈ p.workers, w.generation = g → w.isFinished = true) (now : Nat) :
    (∃ result, p.result? j = some result) ∨ ∃ q, p.after? plan ⟨now, .proceed j⟩ = some q := by
  cases h with
  | draining here =>
    obtain ⟨rfl, destroyed⟩ := orderly.own j _ _ here rfl
    have counted : p.remainingOf p.current = Badge.unfinishedIn p.standing.crew p.current +
      p.standing.waitingIn p.current := sound.counted p.current
    have slots := waitingIn_of_no_slots (sound.destroyed destroyed) p.current
    have crew : Badge.unfinishedIn p.standing.crew p.current = 0 := by
      refine List.countP_eq_zero.2 fun b member => ?_
      obtain ⟨w, among, rfl⟩ := List.mem_map.1 member
      simp only [Bool.and_eq_true, beq_iff_eq, Bool.not_eq_true', not_and, Bool.not_eq_false]
      exact gone w among
    have none : p.remainingOf p.current = 0 := by rw [counted, crew, slots]
    exact .inr ⟨_, after?_of_resume here (if_pos none)⟩
  | @joining workers here ended own =>
    have joined : p.allFinished workers = true := by
      refine allFinished_of fun k member w launched => ?_
      obtain ⟨w', same, early⟩ := own k member
      cases launched.symm.trans same
      have among := List.mem_of_getElem? launched
      by_cases last : w.generation = g
      · exact gone w among last
      · have badge : w.badge ∈ p.standing.crew := List.mem_map_of_mem among
        exact orderly.older w.badge badge (show w.generation < p.current by omega)
    exact .inr ⟨_, after?_of_resume here (if_pos joined)⟩
  | @returned result here =>
    have gone : p.result? j = some result := by simp only [result?, here]
    exact .inl ⟨result, gone⟩

/-- **Generations keep apart.** Whatever calls are made, however they overlap and whatever the
workers do: as long as no generation begins while a destruction waits for workers, the report of a
fault comes from a worker of the current generation and leaves all other tokens as they are, so it
stops no later generation; and a destruction that has ended a generation waits for no worker of a
later one, but can go on as soon as all workers of its own generation have finished. -/
theorem generations_apart (plan : PoolPlan κ) {es : List (PoolEvent κ)} {p : Pool κ}
    (calm : undisturbed plan es = true) (ran : run plan (fresh plan) es = some p) :
    (∀ e q i w, p.after? plan e = some q → e.move = .worker i .fault → p.workers[i]? = some w →
      w.generation = p.current ∧
      ∀ g, g ≠ w.generation → q.isCancelled g = p.isCancelled g) ∧
    (∀ before after q j g, es = before ++ after → run plan (fresh plan) before = some q →
      q.calls[j]? = some ⟨.destroy, .draining g⟩ →
      WaitsUpTo j g p ∧
      ((∀ w ∈ p.workers, w.generation = g → w.isFinished = true) → ∀ now,
        (∃ result, p.result? j = some result) ∨
          ∃ q, p.after? plan ⟨now, .proceed j⟩ = some q)) := by
  have orderly : p.Orderly := orderly_of_undisturbed calm ran
  have sound : p.standing.Sound plan := sound_of_run ran
  constructor
  · intro e q i w made move launched
    obtain ⟨⟨failure, failed⟩, rfl⟩ := fault_eq launched made move
    have busy : w.isFinished = false := by simp only [Worker.isFinished, failed]
    have current := orderly.current_of_busy sound launched busy
    exact ⟨current, fun g other => halt_isCancelled (current ▸ other)⟩
  · rintro before after q j g rfl first waits
    have rest : run plan q after = some p := (run_append_of_run first).symm.trans ran
    have bounded := waitsUpTo_of_run calm first waits rest
    exact ⟨bounded, fun gone now => bounded.goes_on orderly sound gone now⟩

/-- The two workers of the first generation finish. -/
def stragglers : List (PoolEvent Unit) :=
  [.worker 0 .release, .worker 1 (.pick 0 none), .worker 1 .release].map fun m => ⟨6, m⟩

/-- A pool is created and started anew while a destruction still waits for the workers of the first
generation, and one of these fails. -/
def overtaken : List (PoolEvent Unit) :=
  committing ++ [⟨2, .call .destroy⟩, ⟨2, .proceed 2⟩, ⟨3, .call .create⟩,
    ⟨3, .prepared 3 (.ok ())⟩, ⟨3, .call .start⟩] ++ ruin

/-- A worker of the first generation stops the second one, and the destruction of the first one
waits for the workers of the second. -/
theorem stopped_by_the_past :
    ∃ p w q r, run pair (fresh pair) overtaken = some p ∧
      p.workers[0]? = some w ∧ w.generation = 1 ∧ p.current = 2 ∧
      p.status = .started ∧ p.isCancelled 2 = false ∧
      p.after? pair ⟨5, .worker 0 .fault⟩ = some q ∧
      q.status = .stopped ∧ q.isCancelled 2 = true ∧
      run pair q (stragglers ++ [⟨7, .proceed 2⟩]) = some r ∧
      p.calls[2]? = some ⟨.destroy, .draining 1⟩ ∧
      r.calls[2]? = some ⟨.destroy, .joining [2, 3]⟩ ∧
      r.workers.map (fun w => (w.generation, w.isFinished)) =
        [(1, true), (1, true), (2, false), (2, false)] ∧
      r.after? pair ⟨8, .proceed 2⟩ = none :=
  ⟨_, _, _, _, rfl, rfl, rfl, rfl, rfl, rfl, rfl, rfl, rfl, rfl, rfl, rfl, rfl, rfl⟩

/-- A fault ends the first generation, and a destruction begins to wait for its workers. -/
def collapse : List (PoolEvent Unit) :=
  committing ++ ruin ++ [⟨5, .worker 0 .fault⟩, ⟨5, .call .destroy⟩, ⟨5, .proceed 2⟩]

/-- Its workers finish, and a second generation is started before the destruction has returned. -/
def recovery : List (PoolEvent Unit) :=
  stragglers ++ [⟨7, .proceed 2⟩, ⟨7, .call .create⟩, ⟨7, .prepared 3 (.ok ())⟩, ⟨7, .call .start⟩]

/-- A fault of the current generation spares the one before it, and a destruction is free to go
on although a second generation has been started. -/
theorem generations_apart_recovered :
    ∃ p q r w s, run pair (fresh pair) (committing ++ ruin) = some p ∧
      p.after? pair ⟨5, .worker 0 .fault⟩ = some q ∧ p.workers[0]? = some w ∧
      w.generation = p.current ∧ q.isCancelled 0 = p.isCancelled 0 ∧
      undisturbed pair (collapse ++ recovery) = true ∧
      run pair (fresh pair) (collapse ++ recovery) = some r ∧ r.current = 2 ∧ r.remaining = 2 ∧
      WaitsUpTo 2 1 r ∧ r.after? pair ⟨8, .proceed 2⟩ = some s := by
  obtain ⟨p, first⟩ : ∃ p, run pair (fresh pair) (committing ++ ruin) = some p := ⟨_, rfl⟩
  obtain ⟨q, fault⟩ : ∃ q, p.after? pair ⟨5, .worker 0 .fault⟩ = some q := by
    cases first; exact ⟨_, rfl⟩
  obtain ⟨w, launched, older⟩ : ∃ w, p.workers[0]? = some w ∧ w.generation = 1 := by
    cases first; exact ⟨_, rfl, rfl⟩
  obtain ⟨t, half, waits⟩ : ∃ t, run pair (fresh pair) collapse = some t ∧
      t.calls[2]? = some ⟨.destroy, .draining 1⟩ := ⟨_, rfl, rfl⟩
  obtain ⟨r, whole⟩ : ∃ r, run pair (fresh pair) (collapse ++ recovery) = some r := ⟨_, rfl⟩
  have early : undisturbed pair (committing ++ ruin) = true := by decide
  have calm : undisturbed pair (collapse ++ recovery) = true := by decide
  have gone : ∀ w ∈ r.workers, w.generation = 1 → w.isFinished = true := by
    cases whole; decide
  obtain ⟨reports, -⟩ := generations_apart pair early first
  obtain ⟨current, others⟩ := reports _ q 0 w fault rfl launched
  obtain ⟨-, destructions⟩ := generations_apart pair calm whole
  obtain ⟨bounded, free⟩ := destructions collapse recovery t 2 1 rfl half waits
  have unreturned : ∀ result, r.result? 2 ≠ some result := by cases whole; nofun
  rcases free gone 8 with ⟨result, returned⟩ | ⟨s, goes⟩
  · exact absurd returned (unreturned result)
  · refine ⟨p, q, r, w, s, first, fault, launched, current, others 0 (by omega), calm, whole, ?_, ?_,
      bounded, goes⟩
    · cases whole; rfl
    · cases whole; rfl

end Pool

end LoadHarness
