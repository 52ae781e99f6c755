import LoadHarness.Proofs.Lifecycle.Course
import LoadHarness.Proofs.Lifecycle.Ledger
import LoadHarness.Proofs.Retry.Release

/-!
# What workers leave behind

A handle is given back by the action that has it, as the last thing that the action does with it. A
call that breaks off takes its action down with it, handle and all, and nobody gives that handle
back. Along the course of a worker its actions follow one another, each with a history of its own;
`upkeep` says that between two of them every handle so far has been closed or was left in this way.
-/

namespace LoadHarness

variable {κ ρ : Type}

/-- Among the calls on a handle, the close is the last and the only one. -/
def IsClosed (calls : List (ActionEntry ρ)) : Prop :=
  calls.countP (·.isClose) = 1 ∧ calls.getLast? = some (.answered .close .closed)

/-- The calls on a handle end with one that broke off, and none is a close. -/
def IsLeft (calls : List (ActionEntry ρ)) : Prop :=
  calls.countP (·.isClose) = 0 ∧ ∃ x, calls.getLast? = some x ∧ x.isBrokenOff = true

/-- A history of which no handle is open but those that were left so. -/
structure Settled (log : List (ActionEntry ρ)) : Prop where
  /-- It does not begin in the middle of the calls on a handle. -/
  opening : (log.takeWhile (!·.isAcquire)).filter (·.isOnHandle) = []
  handles : ∀ calls ∈ callsByHandle log, IsClosed calls ∨ IsLeft calls

/-! ## Histories one after another -/

/-- What follows a history adds nothing to the calls on its last handle unless it begins with some. -/
theorem onHandle_takeWhile_append {log rest : List (ActionEntry ρ)}
    (opening : (rest.takeWhile (!·.isAcquire)).filter (·.isOnHandle) = []) :
    ((log ++ rest).takeWhile (!·.isAcquire)).filter (·.isOnHandle) =
      (log.takeWhile (!·.isAcquire)).filter (·.isOnHandle) := by
  induction log with
  | nil => exact opening
  | cons x log ih =>
    cases acquires : x.isAcquire with
    | true => simp [acquires]
    | false =>
      simp only [List.cons_append, List.takeWhile_cons, acquires, Bool.not_false, if_true,
        List.filter_cons, ih]

/-- Handles of two histories, if the second does not go on with one of the first. -/
theorem callsByHandle_append {log rest : List (ActionEntry ρ)}
    (opening : (rest.takeWhile (!·.isAcquire)).filter (·.isOnHandle) = []) :
    callsByHandle (log ++ rest) = callsByHandle log ++ callsByHandle rest := by
  induction log with
  | nil => rfl
  | cons x log ih =>
    simp only [List.cons_append, callsByHandle, onHandle_takeWhile_append opening, ih]
    split <;> rfl

/-- The calls on handles are calls of the history. -/
theorem mem_of_mem_callsByHandle {log calls : List (ActionEntry ρ)} {x : ActionEntry ρ}
    (among : calls ∈ callsByHandle log) (member : x ∈ calls) : x ∈ log := by
  induction log with
  | nil => cases among
  | cons y log ih =>
    simp only [callsByHandle] at among
    split at among
    · rcases List.mem_cons.1 among with rfl | later
      · have inside := (List.mem_filter.1 member).1
        exact List.mem_cons_of_mem _ ((List.takeWhile_subset _) inside)
      · exact List.mem_cons_of_mem _ (ih later)
    · exact List.mem_cons_of_mem _ (ih among)

theorem Settled.nil : Settled ([] : List (ActionEntry ρ)) := ⟨rfl, nofun⟩

/-- Settled histories follow one another. -/
theorem Settled.append {log rest : List (ActionEntry ρ)} (before : Settled log)
    (after : Settled rest) : Settled (log ++ rest) := by
  refine ⟨?_, fun calls among => ?_⟩
  · rw [onHandle_takeWhile_append after.opening, before.opening]
  · rw [callsByHandle_append after.opening] at among
    rcases List.mem_append.1 among with old | new
    · exact before.handles calls old
    · exact after.handles calls new

/-- Spells settle all that they take. -/
theorem Settled.spells (p : RetryPolicy) (spells : List (Spell ρ)) :
    Settled (spells.flatMap (·.entries p)) := by
  refine ⟨onHandle_takeWhile_spells p spells, fun calls among => ?_⟩
  rw [callsByHandle_spells] at among
  obtain ⟨h, -, rfl⟩ := List.mem_map.1 among
  exact .inl (h.closed_once_and_last p)

/-- A handle that was left open. -/
theorem Settled.left {calls : List (ActionEntry ρ)} (opens : ∀ x ∈ calls, x.leavesOpen = true)
    {x : ActionEntry ρ} (broken : x.isBrokenOff = true) :
    Settled (.answered .acquire .acquired :: (calls ++ [x])) := by
  have all : ∀ y ∈ calls ++ [x], y.leavesOpen = true :=
    List.forall_mem_append.2 ⟨opens, fun y last =>
      List.mem_singleton.1 last ▸ ActionEntry.leavesOpen_of_isBrokenOff broken⟩
  have on : ∀ y ∈ calls ++ [x], y.isOnHandle = true ∧ y.isAcquire = false := by
    intro y member
    have on := (Bool.and_eq_true_iff.1 (all y member)).1
    exact ⟨on, ActionEntry.isAcquire_of_isOnHandle on⟩
  have nothing : (([] : List (ActionEntry ρ)).takeWhile (!·.isAcquire)).filter (·.isOnHandle) = [] :=
    rfl
  have own := callsByHandle_acquired on nothing
  rw [List.append_nil] at own
  refine ⟨rfl, fun of among => .inr ?_⟩
  rw [own] at among
  cases List.mem_singleton.1 among
  refine ⟨List.countP_eq_zero.2 fun y member closes => ?_, x, List.getLast?_concat, broken⟩
  have opens := all y member
  rw [ActionEntry.leavesOpen, closes, Bool.not_true, Bool.and_false] at opens
  cases opens

/-- What goes before the close of a handle leaves it open. -/
theorem Mishap.leavesOpen (p : RetryPolicy) (m : Mishap ρ) (undo : Except OperationError Unit) :
    ∀ x ∈ m.calls ++ p.undoing m.error undo, x.leavesOpen = true := by
  refine List.all_eq_true.1 ?_
  cases m <;> simp only [calls, RetryPolicy.undoing] <;> split <;> rfl

namespace RetryPolicy

variable {p : RetryPolicy} {log rest : List (ActionEntry ρ)} {cancelled : Bool} {slot : Nat}
  {a b : Action ρ} {m : ActionMove ρ}

/-- An action that is over has settled its history. -/
theorem Tidy.settled (h : p.Tidy log b) (gone : b.isOver = true) : Settled log := by
  rcases h.of_isOver gone with ⟨r, past, -, ⟨spells, -, rfl⟩, rfl⟩ | ⟨-, spells, -, rfl⟩
  · have last : Settled ((Spell.held (.saved r)).entries p) := by
      have one := Settled.spells p [Spell.held (.saved r)]
      rwa [List.flatMap_singleton] at one
    exact (Settled.spells p spells).append last
  · exact Settled.spells p spells

/-- An action that has made a call on a handle has left it open so far. -/
theorem Tidy.holding {c : ActionCall} (h : p.Tidy log a) (calling : a.call? = some c)
    (on : c ≠ .acquire) : ∃ calls, p.Holding log calls ∧ ∀ x ∈ calls, x.leavesOpen = true := by
  cases a with
  | acquiring => cases calling; exact absurd rfl on
  | running => exact ⟨[], h, nofun⟩
  | committing => exact ⟨_, h, List.all_eq_true.1 rfl⟩
  | rollingBack =>
    obtain ⟨m, held, -⟩ := h
    exact ⟨_, held, fun x member => m.leavesOpen p (.ok ()) x (List.mem_append_left _ member)⟩
  | closing _ outcome =>
    cases outcome with
    | ok => exact ⟨_, h, List.all_eq_true.1 rfl⟩
    | error f =>
      obtain ⟨m, undo, held, -⟩ := h
      exact ⟨_, held, m.leavesOpen p undo⟩
  | _ => cases calling

/-- So has one that has just broken off over a call on a handle. -/
theorem Tidy.left {c : ActionCall} (h : p.Tidy log a) (calling : a.call? = some c)
    (broken : (⟨.call c, m⟩ : ActionEntry ρ).isBrokenOff = true) :
    Settled (log ++ [⟨.call c, m⟩]) := by
  have on : c ≠ .acquire := by
    rintro rfl
    cases broken
  obtain ⟨calls, ⟨past, ⟨spells, -, rfl⟩, rfl⟩, opens⟩ := h.holding calling on
  rw [List.append_assoc]
  exact (Settled.spells p spells).append (Settled.left opens broken)

/-- The history of a worker whose action is in this phase: what the earlier ones have settled, and
what this one has made of its own. -/
def Midway (p : RetryPolicy) (log : List (ActionEntry ρ)) (a : Action ρ) : Prop :=
  ∃ past own, log = past ++ own ∧ Settled past ∧
    (a.isOver = false → p.Tidy own a) ∧ (a.isOver = true → Settled own)

/-- A new action finds everything settled. -/
theorem Midway.begin (settled : Settled log) (p : RetryPolicy) (cancelled : Bool) :
    p.Midway log (p.begin cancelled : Action ρ) := by
  have tidy : p.Tidy [] (p.begin cancelled : Action ρ) := tidy_approach .nil cancelled 0 0
  exact ⟨log, [], (List.append_nil log).symm, settled, fun _ => tidy, tidy.settled⟩

/-- One that is over leaves everything settled. -/
theorem Midway.settled (h : p.Midway log a) (gone : a.isOver = true) : Settled log := by
  obtain ⟨past, own, rfl, before, -, after⟩ := h
  exact before.append (after gone)

/-- The step: an action that moves settles its history in the end, whether it breaks off or not. -/
theorem Midway.step (h : p.Midway log a) (moved : p.Moves cancelled slot a m b) :
    p.Midway (log ++ a.entries m) b := by
  obtain ⟨past, own, rfl, settled, tidy, -⟩ := h
  have now := tidy (isOver_of_moves moved)
  refine ⟨past, own ++ a.entries m, List.append_assoc _ _ _, settled, ?_⟩
  by_cases calm : ∀ x ∈ a.entries m, x.isBrokenOff = false
  · have next := now.step calm moved
    exact ⟨fun _ => next, next.settled⟩
  · have broken : m.breaksOff = true := by
      by_contra quiet
      have none := List.countP_eq_zero.1 (not_brokenOff (a := a) (Bool.eq_false_iff.2 quiet))
      exact calm fun x member => Bool.eq_false_iff.2 (none x member)
    obtain ⟨c, text, calling, rfl⟩ := over_call moved broken
    rw [Action.entries_of_call calling] at calm ⊢
    exact ⟨nofun, fun _ => now.left calling (by simpa using calm)⟩

end RetryPolicy

/-! ## The history of a worker -/

/-- What all actions on record have waited for, in order. -/
def entriesIn (log : List (WorkEntry κ)) : List (ActionEntry Unit) := (callsIn log).map (·.entry)

theorem entriesIn_append (log more : List (WorkEntry κ)) :
    entriesIn (log ++ more) = entriesIn log ++ entriesIn more := by
  simp only [entriesIn, callsIn, List.flatMap_append, List.map_append]

theorem entriesIn_act (i : Nat) (operation : OperationType) (left : UInt32) (since slot : Nat)
    (a : Action Unit) (m : ActionMove Unit) (after : WorkerPhase) :
    entriesIn [(WorkEntry.mk i (.acting operation left since a) (.act slot m) after :
      WorkEntry κ)] = a.entries m := by
  simp [entriesIn, callsIn, WorkEntry.calls, Function.comp_def]

/-- Between two actions a worker has settled its history. -/
def Upkeep (p : RetryPolicy) (log : List (WorkEntry κ)) (_ : Bool) : WorkerPhase → Prop
  | .acting _ _ _ a => p.Midway (entriesIn log) a
  | _ => Settled (entriesIn log)

theorem upkeep_afterAction {p : RetryPolicy} {log : List (WorkEntry κ)} (cancelled : Bool)
    (settled : Settled (entriesIn log)) (operation : OperationType) (left : UInt32) :
    Upkeep p log cancelled (Pool.afterAction operation left) := by
  unfold Pool.afterAction
  split <;> exact settled

/-- All its course a worker settles what it takes. -/
theorem upkeep (plan : PoolPlan κ) : Pool.CourseInvariant plan (Upkeep plan.policy) where
  launch := Settled.nil
  cancel := by
    intro log phase h
    cases phase <;> exact h
  turn := by
    intro log cancelled halted now number i before m after h turns _
    have same (none : entriesIn [(WorkEntry.mk i before m after : WorkEntry κ)] = []) :
        entriesIn (log ++ [⟨i, before, m, after⟩]) = entriesIn log := by
      rw [entriesIn_append, none, List.append_nil]
    have keeps (none : entriesIn [(WorkEntry.mk i before m after : WorkEntry κ)] = [])
        (settled : Settled (entriesIn log)) :
        Settled (entriesIn (log ++ [⟨i, before, m, after⟩])) := by
      rw [same none]
      exact settled
    cases turns with
    | acts moved =>
      show plan.policy.Midway _ _
      rw [entriesIn_append, entriesIn_act]
      exact RetryPolicy.Midway.step h moved
    | begins =>
      show plan.policy.Midway _ _
      rw [same rfl]
      exact .begin h plan.policy cancelled
    | touches =>
      show plan.policy.Midway _ _
      rw [same rfl]
      exact h
    | succeeds => exact upkeep_afterAction _ (keeps rfl (RetryPolicy.Midway.settled h rfl)) _ _
    | givesUp => exact upkeep_afterAction _ (keeps rfl (RetryPolicy.Midway.settled h rfl)) _ _
    | obeys => exact keeps rfl (RetryPolicy.Midway.settled h rfl)
    | fails => exact keeps rfl (RetryPolicy.Midway.settled h rfl)
    | unnoted => exact keeps rfl (RetryPolicy.Midway.settled h rfl)
    | crashes => exact keeps rfl (RetryPolicy.Midway.settled h rfl)
    | _ => exact keeps rfl h

end LoadHarness
