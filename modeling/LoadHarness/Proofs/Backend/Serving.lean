import LoadHarness.Backend.Memory
import LoadHarness.Proofs.Lifecycle.Ledger
import LoadHarness.Proofs.Run

/-!
# Pools served by the backend in memory

A pool leaves the answers to its calls open. Here the backend in memory gives those that are its to
give, and nobody else uses it; an operation that runs may arm the handle that it runs on. What the
backend counts is then what the ledger of the pool says, and of all that a pool relies on only the
workload and the limiter can break off.
-/

namespace LoadHarness

variable {κ : Type}

deriving instance DecidableEq for Answer

/-- The backend's answer to a call on it or on a handle of its own, with the handle and the backend
after it. The operation answers for itself. -/
def MemoryProvider.serve? (b : MemoryProvider) (h : MemoryHandle) :
    ActionCall → Option (Answer Unit × MemoryHandle × MemoryProvider)
  | .acquire =>
    match b.acquire with
    | (.ok (), b) => some (.acquired, ⟨none⟩, b)
    | (.error e, b) => some (.acquireFailed e, h, b)
  | .run => none
  | .commit =>
    match h.commit b with
    | (.ok (), h, b) => some (.committed, h, b)
    | (.error e, h, b) => some (.commitFailed e, h, b)
  | .rollback => some (.rolledBack, h, b.rolledBack)
  | .close => some (.closed, h, b.closed)

/-- A pool, and the backend that serves it. -/
structure Served (κ : Type) where
  pool : Pool κ
  provider : MemoryProvider
  /-- The handle that the worker at a position has or had last. -/
  handles : Nat → MemoryHandle

/-- A step of the two. -/
inductive ServedMove (κ : Type) where
  /-- The pool takes a step; what is the backend's to answer is answered as the backend does. -/
  | pool (m : PoolMove κ)
  /-- The operation that a worker runs makes the next commit of its handle fail. -/
  | arm (worker : Nat) (e : OperationError)

/-- A step that the two are made to take at an instant. -/
structure ServedEvent (κ : Type) where
  now : Nat
  move : ServedMove κ

/-- What the pool sees of an event. -/
def ServedEvent.pool? (e : ServedEvent κ) : Option (PoolEvent κ) :=
  match e.move with
  | .pool m => some ⟨e.now, m⟩
  | .arm _ _ => none

/-- The call that a move of an action answers, and the answer. -/
def Action.heard (a : Action Unit) : ActionMove Unit → Option (ActionCall × Answer Unit)
  | .abandon => none
  | .misjudge _ => none
  | .answer x => a.call?.map (·, x)

/-- The call that a step of a worker in this phase answers, and the answer. -/
def WorkerPhase.heard : WorkerPhase → WorkerMove κ → Option (ActionCall × Answer Unit)
  | .acting _ _ _ a, .act _ m => a.heard m
  | _, _ => none

/-- The sink or the classifier breaks off, as timers and functions never do. -/
def PoolMove.isForeign : PoolMove κ → Bool
  | .worker _ .unnoted => true
  | .worker _ (.act _ (.misjudge _)) => true
  | _ => false

namespace Served

/-- The position of the worker whose call is answered by a step of the pool, the call and the
answer. -/
def heard (s : Served κ) : PoolMove κ → Option (Nat × ActionCall × Answer Unit)
  | .worker i m => (s.pool.workers[i]?.bind fun w => w.phase.heard m).map (i, ·)
  | _ => none

/-- The operation of the worker at this position runs. -/
def isRunning (s : Served κ) (i : Nat) : Bool :=
  match s.pool.workers[i]? with
  | some ⟨_, g, _, .acting _ _ _ (.running _)⟩ => !s.pool.isCancelled g
  | _ => false

/-- The two after a step of the pool to `p` in which the backend has had its say; nothing when it
would have said something else. -/
def answer? (s : Served κ) (p : Pool κ) :
    Option (Nat × ActionCall × Answer Unit) → Option (Served κ)
  | none => some { s with pool := p }
  | some (i, c, x) =>
    match s.provider.serve? (s.handles i) c with
    | none => some { s with pool := p }
    | some (y, h, b) => if x = y then some ⟨p, b, Function.update s.handles i h⟩ else none

/-- The two after an event; nothing when it is not possible. -/
def after? (plan : PoolPlan κ) (s : Served κ) (e : ServedEvent κ) : Option (Served κ) :=
  match e.move with
  | .pool m =>
    if m.isForeign then none
    else (s.pool.after? plan ⟨e.now, m⟩).bind fun p => s.answer? p (s.heard m)
  | .arm i error =>
    if s.isRunning i then some { s with handles := Function.update s.handles i ⟨some error⟩ }
    else none

/-- The two after several events. -/
def run (plan : PoolPlan κ) (s : Served κ) (es : List (ServedEvent κ)) : Option (Served κ) :=
  es.foldlM (after? plan) s

/-- A pool that nothing has been done with, with timers for these tags, and a backend that refuses
so many acquisitions first. -/
def fresh (plan : PoolPlan κ) (tags : List String) (refusals : UInt64) : Served κ where
  pool := { Pool.fresh plan with timers := .ofTags tags }
  provider := .refusing refusals
  handles _ := ⟨none⟩

/-- What several events leave on record. -/
def record (plan : PoolPlan κ) (s : Served κ) (es : List (ServedEvent κ)) : List (WorkEntry κ) :=
  s.pool.record plan (es.filterMap (·.pool?))

variable {plan : PoolPlan κ} {s t u : Served κ} {es : List (ServedEvent κ)} {e : ServedEvent κ}

theorem answer?_pool {p : Pool κ} {h : Option (Nat × ActionCall × Answer Unit)}
    (answered : s.answer? p h = some t) : t.pool = p := by
  unfold answer? at answered
  split at answered
  · cases answered; rfl
  · split at answered
    · cases answered; rfl
    · split at answered <;> cases answered
      rfl

/-- A step of the pool within the two. -/
theorem after?_pool {now : Nat} {m : PoolMove κ} (made : s.after? plan ⟨now, .pool m⟩ = some t) :
    m.isForeign = false ∧
      ∃ p, s.pool.after? plan ⟨now, m⟩ = some p ∧ s.answer? p (s.heard m) = some t := by
  simp only [after?] at made
  split at made
  · cases made
  · next native => exact ⟨Bool.eq_false_iff.2 native, Option.bind_eq_some_iff.1 made⟩

/-- Seen from the pool a schedule of the two is a schedule of its own. -/
theorem pool_of_run (ran : run plan s es = some t) :
    Pool.run plan s.pool (es.filterMap (·.pool?)) = some t.pool := by
  refine foldlM_induction
    (fun es t => Pool.run plan s.pool (es.filterMap (·.pool?)) = some t.pool) rfl ?_ ran
  intro es t e u _ ih made
  obtain ⟨now, move⟩ := e
  rw [List.filterMap_append]
  cases move with
  | arm i error =>
    simp only [after?] at made
    split at made <;> cases made
    exact (congrArg _ (List.append_nil _)).trans ih
  | pool m =>
    obtain ⟨-, p, stepped, answered⟩ := after?_pool made
    rw [answer?_pool answered]
    exact Pool.run_concat_iff.2 ⟨t.pool, ih, stepped⟩

end Served

/-! ## Counters -/

/-- A call of which a backend counts nothing. -/
def ActionEntry.isUncounted (x : ActionEntry Unit) : Bool :=
  !x.opensHandle && !x.isCommitted && !x.isRollback && !x.isClose

/-- An operation that broke off. -/
def ActionEntry.IsLoss (x : ActionEntry Unit) : Prop :=
  ∃ text, x = .answered .run (.panicked text)

/-- The statistics of a backend that has answered these calls. -/
structure MemoryStats.Counts (stats : MemoryStats) (calls : List WorkCall) : Prop where
  acquired : stats.acquired = .ofNat (calls.countP (·.entry.opensHandle))
  committed : stats.committed = .ofNat (calls.countP (·.entry.isCommitted))
  rolledBack : stats.rolledBack = .ofNat (calls.countP (·.entry.isRollback))
  closed : stats.closed = .ofNat (calls.countP (·.entry.isClose))
  /-- The backend has not broken off over any of them. -/
  answered : ∀ c ∈ calls, c.entry.isBrokenOff = true → c.entry.IsLoss

namespace MemoryStats

variable {stats stats' : MemoryStats} {calls : List WorkCall} {x : ActionEntry Unit}

/-- One call more. -/
theorem Counts.grow (h : stats.Counts calls) (tag : String)
    (acquired : stats'.acquired = stats.acquired + .ofNat x.opensHandle.toNat)
    (committed : stats'.committed = stats.committed + .ofNat x.isCommitted.toNat)
    (rolledBack : stats'.rolledBack = stats.rolledBack + .ofNat x.isRollback.toNat)
    (closed : stats'.closed = stats.closed + .ofNat x.isClose.toNat)
    (answered : x.isBrokenOff = true → x.IsLoss) :
    stats'.Counts (calls ++ [⟨tag, x⟩]) := by
  have one (P : ActionEntry Unit → Bool) :
      UInt64.ofNat ((calls ++ [WorkCall.mk tag x]).countP fun c => P c.entry) =
        .ofNat (calls.countP fun c => P c.entry) + .ofNat (P x).toNat := by
    rw [List.countP_append, UInt64.ofNat_add, List.countP_singleton]
    cases P x <;> rfl
  refine ⟨by rw [one, acquired, h.acquired], by rw [one, committed, h.committed],
    by rw [one, rolledBack, h.rolledBack], by rw [one, closed, h.closed], fun c member => ?_⟩
  rcases List.mem_append.1 member with old | new
  · exact h.answered c old
  · cases List.mem_singleton.1 new
    exact answered

/-- One call more that is not counted. -/
theorem Counts.pass (h : stats.Counts calls) (tag : String) (quiet : x.isUncounted = true)
    (answered : x.isBrokenOff = true → x.IsLoss) : stats.Counts (calls ++ [⟨tag, x⟩]) := by
  simp only [ActionEntry.isUncounted, Bool.and_eq_true, Bool.not_eq_true'] at quiet
  obtain ⟨⟨⟨acquired, committed⟩, rolledBack⟩, closed⟩ := quiet
  have same (n : UInt64) : n = n + .ofNat false.toNat := (UInt64.add_zero n).symm
  exact h.grow tag (acquired ▸ same _) (committed ▸ same _) (rolledBack ▸ same _) (closed ▸ same _)
    answered

end MemoryStats

/-- A call that the backend answers it counts as it is. -/
theorem MemoryProvider.serve?_counts {b b' : MemoryProvider} {h h' : MemoryHandle} {c : ActionCall}
    {x : Answer Unit} {calls : List WorkCall} (counts : b.stats.Counts calls)
    (served : b.serve? h c = some (x, h', b')) (tag : String) :
    b'.stats.Counts (calls ++ [⟨tag, .answered c x⟩]) := by
  have same (n : UInt64) : n = n + .ofNat false.toNat := (UInt64.add_zero n).symm
  cases c with
  | acquire =>
    by_cases refuses : b.stats.refused < b.refuseFirst
    · simp only [serve?, acquire, if_pos refuses] at served
      cases served
      exact counts.grow tag (same _) (same _) (same _) (same _) nofun
    · simp only [serve?, acquire, if_neg refuses] at served
      cases served
      exact counts.grow tag rfl (same _) (same _) (same _) nofun
  | run => cases served
  | commit =>
    obtain ⟨armed⟩ := h
    cases armed with
    | some e =>
      cases served
      exact counts.pass tag rfl nofun
    | none =>
      cases served
      exact counts.grow tag (same _) rfl (same _) (same _) nofun
  | rollback =>
    cases served
    exact counts.grow tag (same _) (same _) rfl (same _) nofun
  | close =>
    cases served
    exact counts.grow tag (same _) (same _) (same _) rfl nofun

/-- Only the operation answers for itself. -/
theorem MemoryProvider.eq_run_of_serve? {b : MemoryProvider} {h : MemoryHandle} {c : ActionCall}
    (unserved : b.serve? h c = none) : c = .run := by
  cases c with
  | run => rfl
  | acquire => simp only [serve?] at unserved; split at unserved <;> cases unserved
  | commit => simp only [serve?] at unserved; split at unserved <;> cases unserved
  | rollback => cases unserved
  | close => cases unserved

namespace Served

variable {plan : PoolPlan κ} {s t u : Served κ} {es : List (ServedEvent κ)} {e : ServedEvent κ}
  {p : Pool κ}

/-- Where the backend is not asked it stays as it is. -/
theorem answer?_none (answered : s.answer? p none = some t) : t.provider = s.provider := by
  cases answered
  rfl

/-- What an action hears of its call is counted by the backend if it is the backend's. -/
theorem counts_of_moves {policy : RetryPolicy} {cancelled : Bool} {slot i : Nat} {a b : Action Unit}
    {m : ActionMove Unit} {calls : List WorkCall} (h : s.provider.stats.Counts calls)
    (moved : policy.Moves cancelled slot a m b) (native : ∀ text, m ≠ .misjudge text)
    (answered : s.answer? p ((a.heard m).map (i, ·)) = some t) (tag : String) :
    t.provider.stats.Counts (calls ++ (a.entries m).map (⟨tag, ·⟩)) := by
  cases m with
  | abandon =>
    rw [answer?_none answered]
    cases moved <;> exact h.pass tag rfl nofun
  | misjudge text => exact absurd rfl (native text)
  | answer x =>
    cases calling : a.call? with
    | none =>
      rw [Action.heard, calling] at answered
      rw [answer?_none answered]
      cases moved with
      | slept => exact h.pass tag rfl nofun
      | breaksOff other => cases calling.symm.trans other
      | _ => cases calling
    | some c =>
      rw [Action.heard, calling] at answered
      rw [Action.entries_of_call calling]
      simp only [Option.map_some, answer?] at answered
      split at answered
      · next unserved =>
        cases answered
        cases MemoryProvider.eq_run_of_serve? unserved
        refine h.pass tag rfl fun broken => ?_
        cases x with
        | panicked text => exact ⟨text, rfl⟩
        | _ => cases broken
      · next y h' b' served =>
        split at answered <;> cases answered
        next same =>
        exact same ▸ MemoryProvider.serve?_counts h served tag

/-- The step: the backend goes on counting what the pool leaves on record. -/
theorem counts_of_turned {now i : Nat} {w w' : Worker κ} {m : WorkerMove κ} {calls : List WorkCall}
    (h : s.provider.stats.Counts calls) (launched : s.pool.workers[i]? = some w)
    (turned : Pool.Turned plan s.pool now i w m w' p)
    (native : (PoolMove.worker i m).isForeign = false)
    (answered : s.answer? p (s.heard (.worker i m)) = some t) :
    t.provider.stats.Counts (calls ++ (WorkEntry.mk i w.phase m w'.phase).calls) := by
  have turns := turned.turns
  have heard : s.heard (.worker i m) = (w.phase.heard m).map (i, ·) := by
    simp only [Served.heard, launched, Option.bind_some]
  rw [heard] at answered
  generalize w.phase = before, w'.phase = after at turns answered
  have silent (none : before.heard m = none)
      (nothing : (WorkEntry.mk i before m after).calls = []) :
      t.provider.stats.Counts (calls ++ (WorkEntry.mk i before m after).calls) := by
    rw [none] at answered
    rw [nothing, List.append_nil, answer?_none answered]
    exact h
  cases turns with
  | acts moved =>
    refine counts_of_moves h moved ?_ answered _
    rintro text rfl
    cases native
  | _ => exact silent rfl rfl

theorem counts_fresh (plan : PoolPlan κ) (tags : List String) (refusals : UInt64) :
    (fresh plan tags refusals).provider.stats.Counts [] :=
  ⟨rfl, rfl, rfl, rfl, nofun⟩

/-- The run: the statistics of the backend are those of the ledger. -/
theorem counts_of_run (start : s.provider.stats.Counts []) (ran : run plan s es = some t) :
    t.provider.stats.Counts (callsIn (s.record plan es)) := by
  refine foldlM_induction
    (fun es t => t.provider.stats.Counts (callsIn (s.record plan es))) start ?_ ran
  intro es t e u ran h made
  obtain ⟨now, move⟩ := e
  unfold record at h ⊢
  rw [List.filterMap_append]
  cases move with
  | arm i error =>
    simp only [after?] at made
    split at made <;> cases made
    have none : ([⟨now, .arm i error⟩] : List (ServedEvent κ)).filterMap (·.pool?) = [] := rfl
    rw [none, List.append_nil]
    exact h
  | pool m =>
    obtain ⟨native, p, stepped, answered⟩ := after?_pool made
    have one : ([⟨now, .pool m⟩] : List (ServedEvent κ)).filterMap (·.pool?) = [⟨now, m⟩] := rfl
    rw [one, Pool.record_concat (pool_of_run ran) stepped, callsIn, List.flatMap_append]
    have works := Pool.works_of_after stepped
    dsimp only at works
    cases works with
    | @turned i w w' m _ launched turned =>
      rw [turned.entries_eq launched, List.flatMap_singleton]
      exact counts_of_turned h launched turned native answered
    | joined _ _ _ _ other =>
      have unheard : t.heard m = none := by
        cases m <;> first | rfl | exact absurd rfl (other _ _)
      rw [unheard] at answered
      rw [Pool.entries_of_other other, List.flatMap_nil, List.append_nil, answer?_none answered]
      exact h

end Served

end LoadHarness
