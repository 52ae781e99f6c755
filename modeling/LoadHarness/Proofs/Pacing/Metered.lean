import LoadHarness.Proofs.Lifecycle.Batches
import LoadHarness.Proofs.Pacing.Window

/-!
# Pools that draw from a bucket

A pool leaves the answers of its limiter open. Here the limiter is a bucket, which others may use as
well. To the bucket the workers are callers who come anew at every look, so its law for a stretch of
time bounds what they are granted in it; and workers begin no more actions than they were granted
and still owed.
-/

namespace LoadHarness

variable {κ : Type}

/-- What a caller has heard that gets an answer of a limiter. -/
def Hearing.of : Except LimiterError Unit → Hearing
  | .ok () => .granted
  | .error e => .refused e

/-- A pool, and the bucket that its workers draw from. -/
structure Metered (κ : Type) where
  pool : Pool κ
  bucket : Bucket Rat

/-- A step of the two. -/
inductive MeteredMove (κ : Type) where
  /-- The pool takes a step; what its limiter answers is the bucket's answer. -/
  | pool (m : PoolMove κ)
  /-- A worker that waits for tokens looks at the bucket and has to look again. -/
  | wait (i : Nat)
  /-- Somebody else looks at the bucket. -/
  | visit (r : Request)

/-- A step that the two are made to take at an instant. -/
structure MeteredEvent (κ : Type) where
  now : Nat
  move : MeteredMove κ

/-- What the pool sees of an event. -/
def MeteredEvent.pool? (e : MeteredEvent κ) : Option (PoolEvent κ) :=
  match e.move with
  | .pool m => some ⟨e.now, m⟩
  | _ => none

/-- The tokens that the worker at a position waits for. -/
def Pool.costOf (p : Pool κ) (i : Nat) : Option UInt32 :=
  match p.workers[i]? with
  | some ⟨_, g, _, .pacing _ cost⟩ => if p.isCancelled g then none else some cost
  | _ => none

namespace Metered

/-- The tokens that are asked for in a step of the pool, and the answer. -/
def heard (s : Metered κ) : PoolMove κ → Option (UInt32 × Hearing)
  | .worker i (.paced answer) => (s.pool.costOf i).map (·, .of answer)
  | _ => none

/-- What a worker that waits for tokens hears when it looks, and the bucket after that. -/
def look (s : Metered κ) (now : Nat) (cost : UInt32) : Hearing × Bucket Rat :=
  s.bucket.ask now (.consume cost)

/-- The two after a step of the pool to `p` in which the bucket has had its say; nothing when it
would have said something else. -/
def answer? (s : Metered κ) (now : Nat) (p : Pool κ) :
    Option (UInt32 × Hearing) → Option (Metered κ)
  | none => some { s with pool := p }
  | some (cost, heard) =>
    if (s.look now cost).1 = heard then some ⟨p, (s.look now cost).2⟩ else none

/-- The two after an event; nothing when it is not possible. -/
def after? (plan : PoolPlan κ) (s : Metered κ) (e : MeteredEvent κ) : Option (Metered κ) :=
  match e.move with
  | .pool m => (s.pool.after? plan ⟨e.now, m⟩).bind fun p => s.answer? e.now p (s.heard m)
  | .wait i => (s.pool.costOf i).bind fun cost =>
    if (s.look e.now cost).1 = .waiting then some ⟨s.pool, (s.look e.now cost).2⟩ else none
  | .visit r => some ⟨s.pool, (s.bucket.ask e.now r).2⟩

/-- The two after several events. -/
def run (plan : PoolPlan κ) (s : Metered κ) (es : List (MeteredEvent κ)) : Option (Metered κ) :=
  es.foldlM (after? plan) s

/-- What several events leave on record. -/
def record (plan : PoolPlan κ) (s : Metered κ) (es : List (MeteredEvent κ)) : List (WorkEntry κ) :=
  s.pool.record plan (es.filterMap (·.pool?))

end Metered

/-- What the grants on record take out of a bucket at least. -/
def dueFor (log : List (WorkEntry κ)) : Rat :=
  grantedIn log - Quantity.slack * log.countP (·.isGrant)

namespace WorkEntry

theorem granted_of_not_isGrant {x : WorkEntry κ} (other : x.isGrant = false) : x.granted = 0 := by
  unfold granted
  split
  · next granted =>
    rw [isGrant, granted] at other
    cases other
  · rfl

end WorkEntry

theorem dueFor_append (log more : List (WorkEntry κ)) :
    dueFor (log ++ more) = dueFor log + dueFor more := by
  simp only [dueFor, grantedIn, List.map_append, List.sum_append, List.countP_append, Nat.cast_add]
  ring

theorem dueFor_eq_zero {log : List (WorkEntry κ)} (none : ∀ x ∈ log, x.isGrant = false) :
    dueFor log = 0 := by
  have tokens : grantedIn log = 0 := by
    refine List.sum_eq_zero_iff_forall_eq_nat.2 fun n member => ?_
    obtain ⟨x, among, rfl⟩ := List.mem_map.1 member
    exact x.granted_of_not_isGrant (none x among)
  have grants : log.countP (·.isGrant) = 0 :=
    List.countP_eq_zero.2 fun x member => by simp [none x member]
  rw [dueFor, tokens, grants]
  simp

/-- Where nothing is granted nothing is due. -/
theorem dueFor_le_debt {log : List (WorkEntry κ)} (none : ∀ x ∈ log, x.isGrant = false)
    (gs : List Grant) : dueFor log ≤ Grant.debt gs :=
  (dueFor_eq_zero none).trans_le (Grant.debt_nonneg gs)

/-- To a bucket, what has gone on was callers who looked at some of these instants, and what it has
left on record comes out of what they were granted. -/
def Draws (b : Bucket Rat) (instants : List Nat) (log : List (WorkEntry κ)) (b' : Bucket Rat) :
    Prop :=
  ∀ callers : List Caller, ∃ (cs : List CrowdEvent) (d : Crowd Rat) (gs : List Grant),
    (cs.map (·.now)).Sublist instants ∧ Crowd.run ⟨b, callers⟩ cs = some (d, gs) ∧
      d.bucket = b' ∧ dueFor log ≤ Grant.debt gs

namespace Draws

variable {b b' b'' : Bucket Rat} {log more : List (WorkEntry κ)} {instants later : List Nat}

/-- Nobody looked. -/
theorem nothing (none : ∀ x ∈ log, x.isGrant = false) : Draws b instants log b :=
  fun callers => ⟨[], ⟨b, callers⟩, [], List.nil_sublist _, rfl, rfl, dueFor_le_debt none _⟩

/-- Somebody looked once. -/
theorem look {now : Nat} {r : Request}
    (due : dueFor log ≤ Grant.debt (r.grants now (b.ask now r).1)) :
    Draws b [now] log (b.ask now r).2 := by
  intro callers
  obtain ⟨d, ran, left⟩ := Crowd.run_come ⟨b, callers⟩ now r
  exact ⟨_, d, _, List.Sublist.refl _, ran, left, due⟩

/-- Draws on a bucket follow one another. -/
theorem append (first : Draws b instants log b') (second : Draws b' later more b'') :
    Draws b (instants ++ later) (log ++ more) b'' := by
  intro callers
  obtain ⟨cs, ⟨b', others⟩, gs, during, ran, rfl, paid⟩ := first callers
  obtain ⟨cs', d, gs', during', ran', left, paid'⟩ := second others
  refine ⟨cs ++ cs', d, gs ++ gs', ?_, Crowd.run_append_of_run ran ran', left, ?_⟩
  · rw [List.map_append]
    exact during.append during'
  · rw [dueFor_append, Grant.debt_append]
    exact add_le_add paid paid'

/-- What workers are granted in a stretch of time comes out of a full bucket and what flows in
meanwhile. -/
theorem within {start stop : Nat} (first : Draws b instants log b')
    (second : Draws b' later more b'') (order : start ≤ stop) (sound : b.Sound)
    (timely : (b.filledAt :: (instants ++ later)).Pairwise (· ≤ ·))
    (inside : ∀ now ∈ later, start ≤ now ∧ now ≤ stop) :
    dueFor more ≤ b.capacity.toNat + b.flow start stop := by
  obtain ⟨cs, ⟨b', others⟩, gs, during, ran, rfl, -⟩ := first []
  obtain ⟨cs', d, gs', during', ran', -, paid⟩ := second others
  have clock : Crowd.Timely ⟨b, []⟩ (cs ++ cs') := by
    refine timely.sublist (List.Sublist.cons_cons _ ?_)
    rw [List.map_append]
    exact during.append during'
  have bound := Crowd.debt_within order sound clock (Crowd.run_append_of_run ran ran')
  have all : Grant.within start stop gs' = gs' := Grant.within_eq_self fun g member => by
    obtain ⟨c, among, same⟩ := Crowd.instants_of_run ran' g member
    rw [same]
    exact inside _ (during'.subset (List.mem_map_of_mem among))
  rw [Grant.within_append, Grant.debt_append, all] at bound
  have others := Grant.debt_nonneg (Grant.within start stop gs)
  linarith

end Draws

namespace Pool

variable {plan : PoolPlan κ} {p q : Pool κ} {now i : Nat}

/-- Answers of the limiter are for workers that wait for them. -/
theorem asks_of_paced {answer : Except LimiterError Unit}
    (made : p.after? plan ⟨now, .worker i (.paced answer)⟩ = some q) :
    ∃ (operation : OperationType) (cost : UInt32) (after : WorkerPhase), p.costOf i = some cost ∧
      p.entries q (.worker i (.paced answer)) =
        [⟨i, .pacing operation cost, .paced answer, after⟩] := by
  obtain ⟨w, w', launched, turned⟩ := turned_of_after made rfl
  have stands : p.isCancelled w.generation = false ∧
      ∃ operation cost, w.phase = .pacing operation cost := by
    have turns := turned.turns
    generalize w.phase = before at turns ⊢
    generalize p.isCancelled w.generation = cancelled at turns ⊢
    generalize w'.phase = next at turns
    cases turns with
    | granted calm => exact ⟨calm, _, _, rfl⟩
    | refused calm => exact ⟨calm, _, _, rfl⟩
  obtain ⟨calm, operation, cost, stands⟩ := stands
  refine ⟨operation, cost, w'.phase, ?_, stands ▸ turned.entries_eq launched⟩
  obtain ⟨number, g, context, phase⟩ := w
  cases stands
  simp only [costOf, launched, if_neg (Bool.eq_false_iff.1 calm)]

end Pool

namespace Metered

variable {plan : PoolPlan κ} {s t u : Metered κ} {es : List (MeteredEvent κ)} {e : MeteredEvent κ}

/-- The steps of the two. -/
inductive Moves (plan : PoolPlan κ) (s : Metered κ) (now : Nat) :
    MeteredMove κ → Metered κ → Prop where
  /-- The pool does something that does not concern the bucket. -/
  | acts {m p} (unheard : s.heard m = none) (made : s.pool.after? plan ⟨now, m⟩ = some p) :
      Moves plan s now (.pool m) ⟨p, s.bucket⟩
  | hears {i cost answer p} (asks : s.pool.costOf i = some cost)
      (said : (s.look now cost).1 = .of answer)
      (made : s.pool.after? plan ⟨now, .worker i (.paced answer)⟩ = some p) :
      Moves plan s now (.pool (.worker i (.paced answer))) ⟨p, (s.look now cost).2⟩
  | waits {i cost} (asks : s.pool.costOf i = some cost)
      (said : (s.look now cost).1 = .waiting) :
      Moves plan s now (.wait i) ⟨s.pool, (s.look now cost).2⟩
  | visits {r} : Moves plan s now (.visit r) ⟨s.pool, (s.bucket.ask now r).2⟩

/-- The two take no other steps. -/
theorem moves_of_after (made : s.after? plan e = some t) : Moves plan s e.now e.move t := by
  obtain ⟨now, move⟩ := e
  cases move with
  | pool m =>
    obtain ⟨p, stepped, answered⟩ := Option.bind_eq_some_iff.1 made
    generalize known : s.heard m = h at answered
    unfold answer? at answered
    split at answered
    · cases answered
      exact .acts known stepped
    · split at answered <;> cases answered
      next said =>
      unfold heard at known
      split at known
      · obtain ⟨cost, asks, same⟩ := Option.map_eq_some_iff.1 known
        cases same
        exact .hears asks said stepped
      · cases known
  | wait i =>
    obtain ⟨cost, asks, looked⟩ := Option.bind_eq_some_iff.1 made
    split at looked <;> cases looked
    next said => exact .waits asks said
  | visit r =>
    cases made
    exact .visits

/-- What the pool sees of a run is a schedule of its own. -/
theorem pool_of_run (ran : run plan s es = some t) :
    Pool.run plan s.pool (es.filterMap (·.pool?)) = some t.pool := by
  refine foldlM_induction
    (fun es t => Pool.run plan s.pool (es.filterMap (·.pool?)) = some t.pool) rfl ?_ ran
  intro es t e u _ ih made
  have moved := moves_of_after made
  obtain ⟨now, move⟩ := e
  rw [List.filterMap_append]
  cases moved with
  | acts _ stepped => exact (Pool.run_append_of_run ih).trans (Pool.run_singleton.trans stepped)
  | hears _ _ stepped => exact (Pool.run_append_of_run ih).trans (Pool.run_singleton.trans stepped)
  | waits => exact (congrArg _ (List.append_nil _)).trans ih
  | visits => exact (congrArg _ (List.append_nil _)).trans ih

theorem run_append_of_run {fs : List (MeteredEvent κ)} (first : run plan s es = some t) :
    run plan s (es ++ fs) = run plan t fs :=
  foldlM_append_of_run first

theorem record_append {fs : List (MeteredEvent κ)} (ran : run plan s es = some t) :
    record plan s (es ++ fs) = record plan s es ++ record plan t fs := by
  unfold record
  rw [List.filterMap_append, Pool.record_append (pool_of_run ran)]

theorem record_pool {now : Nat} {m : PoolMove κ} {p : Pool κ}
    (made : s.pool.after? plan ⟨now, m⟩ = some p) :
    record plan s [⟨now, .pool m⟩] = s.pool.entries p m := by
  show s.pool.record plan [⟨now, m⟩] = s.pool.entries p m
  simp only [Pool.record, made, List.append_nil]

/-- A step of the pool that does not concern the bucket grants nothing. -/
theorem not_isGrant_of_unheard {now : Nat} {m : PoolMove κ} {p : Pool κ}
    (unheard : s.heard m = none) (made : s.pool.after? plan ⟨now, m⟩ = some p) :
    ∀ x ∈ s.pool.entries p m, x.isGrant = false := by
  intro x member
  obtain ⟨i, before, move, after⟩ := x
  cases Pool.move_of_mem_entries member
  by_contra grant
  unfold WorkEntry.isGrant at grant
  simp only at grant
  split at grant
  · obtain ⟨operation, cost, after, asks, -⟩ := Pool.asks_of_paced made
    unfold heard at unheard
    simp [asks] at unheard
  · exact grant rfl

/-- What is on record when a worker gets its answer comes out of the bucket. -/
theorem dueFor_of_paced {now i : Nat} {cost : UInt32} {answer : Except LimiterError Unit}
    {p : Pool κ} (asks : s.pool.costOf i = some cost)
    (made : s.pool.after? plan ⟨now, .worker i (.paced answer)⟩ = some p) :
    dueFor (s.pool.entries p (.worker i (.paced answer))) ≤
      Grant.debt ((Request.consume cost).grants now (.of answer)) := by
  obtain ⟨operation, cost', after, asks', entry⟩ := Pool.asks_of_paced made
  cases asks.symm.trans asks'
  rw [entry]
  cases answer with
  | ok =>
    have due : dueFor [(⟨i, .pacing operation cost, .paced (.ok ()), after⟩ : WorkEntry κ)] =
        cost.toNat - Quantity.slack := by
      simp [dueFor, grantedIn, WorkEntry.granted, WorkEntry.isGrant]
    rw [due]
    exact Grant.le_debt_singleton now cost
  | error e => exact dueFor_le_debt (List.forall_mem_singleton.2 rfl) _

/-- The step: to the bucket, whatever the two do is at most one look. -/
theorem draws_of_after (made : s.after? plan e = some t) :
    Draws s.bucket [e.now] (record plan s [e]) t.bucket := by
  have moved := moves_of_after made
  obtain ⟨now, move⟩ := e
  cases moved with
  | acts unheard stepped =>
    rw [record_pool stepped]
    exact .nothing (not_isGrant_of_unheard unheard stepped)
  | hears asks said stepped =>
    rw [record_pool stepped]
    exact .look (said ▸ dueFor_of_paced asks stepped)
  | waits => exact .look (dueFor_le_debt (List.forall_mem_nil _) _)
  | visits => exact .look (dueFor_le_debt (List.forall_mem_nil _) _)

/-- The run: it is look after look. -/
theorem draws_of_run (ran : run plan s es = some t) :
    Draws s.bucket (es.map (·.now)) (record plan s es) t.bucket := by
  refine foldlM_induction (fun es t => Draws s.bucket (es.map (·.now)) (record plan s es) t.bucket)
    (.nothing (List.forall_mem_nil _)) ?_ ran
  intro es t e u before sofar made
  rw [List.map_append, record_append before]
  exact sofar.append (draws_of_after made)

/-- **Work is paid for in advance.** Whatever a limiter answers, the actions that workers have begun
are no more than the tokens that they were granted; the rest is what they still owe of their batches
and what they dropped when they left, and every batch that was granted has its own number of actions
of its own operation, unless its worker has left. So the workers of a pool that draws from a bucket
begin, in a stretch of time, no more actions than they owe at first, a full bucket holds, and flows
in meanwhile, up to the slack of each grant. -/
theorem paid_in_advance (plan : PoolPlan κ) :
    (∀ (es : List (PoolEvent κ)) (p : Pool κ), Pool.run plan (.fresh plan) es = some p →
      let log := Pool.record plan (.fresh plan) es
      begunIn log ≤ grantedIn log ∧ grantedIn log = begunIn log + droppedIn log + p.owing ∧
        ∀ (i : Nat) (w : Worker κ), p.workers[i]? = some w →
          Accounted (batchesOf plan.mix (partOf i log)) w.phase) ∧
    ∀ c : RateConfig, c.validate = .ok () → ∀ birth : Nat,
      ∃ b : Bucket Rat, Bucket.full c birth = .ok b ∧
        ∀ (before after : List (MeteredEvent κ)) (s t : Metered κ) (start span : Nat),
          (birth :: (before ++ after).map (·.now)).Pairwise (· ≤ ·) →
          run plan ⟨.fresh plan, b⟩ before = some s → run plan s after = some t →
          (∀ e ∈ after, start ≤ e.now ∧ e.now ≤ start + span) →
          (begunIn (record plan s after) : Rat) ≤ s.pool.owing +
            (c.capacity.toNat + c.limit.toNat * ((span : Rat) / 1000000000) +
              1 / 1000000000 * (record plan s after).countP (·.isGrant)) ∧
          ((∀ w ∈ s.pool.workers, w.isFinished = true) → s.pool.owing = 0) := by
  refine ⟨fun es p ran => ?_, fun c valid birth => ?_⟩
  · intro log
    have all : grantedIn log = begunIn log + droppedIn log + p.owing := Pool.granted_eq ran
    refine ⟨?_, all, fun i w launched => (Pool.inBatch_of_run ran launched).accounted⟩
    omega
  · refine ⟨_, Bucket.full_of_valid valid birth, ?_⟩
    intro before after s t start span timely first second inside
    refine ⟨?_, Pool.owing_eq_zero⟩
    have full : Bucket.Sound ⟨c.limit, c.capacity, (c.capacity.toNat : Rat), birth⟩ :=
      ⟨Nat.cast_nonneg _, le_refl _⟩
    rw [List.map_append] at timely
    have due := (draws_of_run first).within (draws_of_run second) (Nat.le_add_right start span) full
      timely (List.forall_mem_map.2 inside)
    have balance :=
      Pool.tokens_balance (Pool.positive_of_run (pool_of_run first)) (pool_of_run second)
    have few : begunIn (record plan s after) ≤ grantedIn (record plan s after) + s.pool.owing := by
      show begunIn (Pool.record plan s.pool _) ≤ grantedIn (Pool.record plan s.pool _) + _
      omega
    have few' : (begunIn (record plan s after) : Rat) ≤
        grantedIn (record plan s after) + s.pool.owing := by exact_mod_cast few
    simp only [dueFor, Quantity.slack_eq, Bucket.flow, Nat.cast_add, add_sub_cancel_left] at due
    linarith

/-- A pool of two is created and started. -/
def opening : List (MeteredEvent Unit) :=
  [⟨0, .pool (.call .create)⟩, ⟨0, .pool (.prepared 0 (.ok ()))⟩, ⟨1, .pool (.call .start)⟩]

/-- Two workers want three tokens each of a bucket that holds five, and somebody else takes one; the
second worker waits until enough have flowed in. -/
def scramble : List (MeteredEvent Unit) :=
  [⟨1, .pool (.worker 0 (.pick 0 (some 3)))⟩, ⟨1, .pool (.worker 1 (.pick 0 (some 3)))⟩,
    ⟨1, .pool (.worker 0 (.paced (.ok ())))⟩, ⟨1, .wait 1⟩, ⟨2, .visit (.tryConsume 1)⟩,
    ⟨3, .pool (.worker 0 .begin)⟩, ⟨200000003, .pool (.worker 1 (.paced (.ok ())))⟩,
    ⟨200000004, .pool (.worker 1 .begin)⟩]

/-- Two batches of three are granted, one action of each is begun, and four are still owed. -/
theorem paid_in_advance_scramble :
    RateConfig.trickle.validate = .ok () ∧
      ∃ (b : Bucket Rat) (s t : Metered Unit), Bucket.full .trickle 0 = .ok b ∧
        run Pool.pair ⟨.fresh Pool.pair, b⟩ opening = some s ∧
        run Pool.pair s scramble = some t ∧
        grantedIn (record Pool.pair ⟨.fresh Pool.pair, b⟩ (opening ++ scramble)) =
          begunIn (record Pool.pair ⟨.fresh Pool.pair, b⟩ (opening ++ scramble)) +
            droppedIn (record Pool.pair ⟨.fresh Pool.pair, b⟩ (opening ++ scramble)) +
            t.pool.owing ∧
        begunIn (record Pool.pair s scramble) = 2 ∧ s.pool.owing = 0 ∧ t.pool.owing = 4 ∧
        (begunIn (record Pool.pair s scramble) : Rat) ≤ s.pool.owing +
          ((5 : UInt64).toNat + (10 : UInt64).toNat * (((200000003 : Nat) : Rat) / 1000000000) +
            1 / 1000000000 * (record Pool.pair s scramble).countP (·.isGrant)) := by
  obtain ⟨paid, metered⟩ := paid_in_advance Pool.pair
  obtain ⟨b, made, law⟩ := metered .trickle rfl 0
  have heard : ((run Pool.pair ⟨.fresh Pool.pair, b⟩ opening).map fun s =>
      (s.pool.owing, (run Pool.pair s scramble).map fun t =>
        (begunIn (record Pool.pair s scramble), t.pool.owing))) = some (0, some (2, 4)) := by
    cases made
    decide +kernel
  obtain ⟨s, first, heard⟩ := Option.map_eq_some_iff.1 heard
  obtain ⟨none, heard⟩ := Prod.mk.inj heard
  obtain ⟨t, second, heard⟩ := Option.map_eq_some_iff.1 heard
  obtain ⟨begun, owing⟩ := Prod.mk.inj heard
  have whole : run Pool.pair ⟨.fresh Pool.pair, b⟩ (opening ++ scramble) = some t :=
    (run_append_of_run first).trans second
  obtain ⟨-, all, -⟩ := paid _ _ (pool_of_run whole)
  have bound := (law opening scramble s t 1 200000003 (by decide) first second (by decide)).1
  exact ⟨rfl, b, s, t, made, first, second, all, begun, none, owing, bound⟩

end Metered

end LoadHarness
