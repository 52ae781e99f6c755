import LoadHarness.Proofs.Lifecycle.Standing

/-!
# What holds wherever a pool stands

The guards of a generation are held by its unfinished workers and, while it is the current one, by
its slots. Together with what each status says about slots and token this is kept by every turn, so
it holds after every schedule.
-/

namespace LoadHarness

variable {κ : Type}

namespace Generation

/-- The guards of generation `g` that have not been released. -/
def remainingIn (gs : List Generation) (g : Nat) : Nat := (gs[g]?.map (·.remaining)).getD 0

/-- The token of generation `g` is cancelled. -/
def cancelledIn (gs : List Generation) (g : Nat) : Bool := (gs[g]?.map (·.cancelled)).getD false

variable {gs : List Generation}

theorem remainingIn_append {new : Generation} (g : Nat) :
    remainingIn (gs ++ [new]) g =
      if g = gs.length then new.remaining else remainingIn gs g := by
  unfold remainingIn
  by_cases last : g = gs.length
  · rw [if_pos last, last, List.getElem?_concat_length]
    rfl
  · rw [if_neg last]
    by_cases inside : g < gs.length
    · rw [List.getElem?_append_left inside]
    · rw [List.getElem?_eq_none (by simp only [List.length_append, List.length_singleton]; omega),
        List.getElem?_eq_none (by omega)]

theorem cancelledIn_append {new : Generation} :
    cancelledIn (gs ++ [new]) gs.length = new.cancelled := by
  unfold cancelledIn
  rw [List.getElem?_concat_length]
  rfl

theorem remainingIn_cancel (g h : Nat) : remainingIn (gs.modify g cancel) h = remainingIn gs h := by
  unfold remainingIn
  rw [List.getElem?_modify]
  cases gs[h]? with
  | none => rfl
  | some x =>
    rw [Option.map_eq_map, Option.map_some]
    split <;> rfl

theorem cancelledIn_cancel {g : Nat} (inside : g < gs.length) :
    cancelledIn (gs.modify g cancel) g = true := by
  unfold cancelledIn
  rw [List.getElem?_modify, List.getElem?_eq_getElem inside]
  simp [cancel]

theorem remainingIn_release (g h guards : Nat) :
    remainingIn (gs.modify g (release guards)) h =
      remainingIn gs h - if g = h then guards else 0 := by
  unfold remainingIn
  rw [List.getElem?_modify]
  cases gs[h]? with
  | none => exact (Nat.zero_sub _).symm
  | some x =>
    rw [Option.map_eq_map, Option.map_some]
    split <;> rfl

theorem cancelledIn_release (g h guards : Nat) :
    cancelledIn (gs.modify g (release guards)) h = cancelledIn gs h := by
  unfold cancelledIn
  rw [List.getElem?_modify]
  cases gs[h]? with
  | none => rfl
  | some x =>
    rw [Option.map_eq_map, Option.map_some]
    split <;> rfl

end Generation

open Generation

/-- Workers of generation `g` that have not finished. -/
def Badge.unfinishedIn (crew : List Badge) (g : Nat) : Nat :=
  crew.countP fun b => b.generation == g && !b.finished

namespace Badge

/-- A generation above all others has no workers. -/
theorem unfinishedIn_eq_zero {crew : List Badge} {g : Nat}
    (others : ∀ b ∈ crew, b.generation < g) : unfinishedIn crew g = 0 := by
  refine List.countP_eq_zero.2 fun b member => ?_
  have := others b member
  simp only [Bool.and_eq_true, beq_iff_eq, not_and]
  omega

/-- New workers are unfinished. -/
theorem unfinishedIn_launch (crew : List Badge) (slots : List (Slot κ)) (g h : Nat) :
    unfinishedIn (crew ++ slots.map fun x => ⟨x.worker, g, false⟩) h =
      unfinishedIn crew h + if h = g then slots.length else 0 := by
  unfold unfinishedIn
  rw [List.countP_append, List.countP_map]
  by_cases here : h = g
  · rw [if_pos here, here]
    congr 1
    exact List.countP_eq_length.2 fun x _ => by simp
  · rw [if_neg here]
    congr 1
    exact List.countP_eq_zero.2 fun x _ => by simp [Ne.symm here]

/-- A worker that finishes was the only one to do so. -/
theorem unfinishedIn_finish {crew : List Badge} {i : Nat} {b : Badge} (launched : crew[i]? = some b)
    (busy : b.finished = false) (g : Nat) :
    unfinishedIn crew g =
      unfinishedIn (crew.set i { b with finished := true }) g +
        if b.generation = g then 1 else 0 := by
  obtain ⟨bound, rfl⟩ := List.getElem?_eq_some_iff.1 launched
  unfold unfinishedIn
  rw [List.countP_set bound]
  by_cases own : crew[i].generation = g
  · have counted : 0 < crew.countP fun b => b.generation == g && !b.finished :=
      List.countP_pos_iff.2 ⟨crew[i], List.getElem_mem bound, by simp [own, busy]⟩
    simp only [own, busy, beq_self_eq_true, Bool.not_false, Bool.not_true, Bool.and_true,
      Bool.and_false, if_true, Bool.false_eq_true, if_false]
    omega
  · simp [own]

end Badge

namespace PoolStanding

/-- Guards of generation `g` that are held by slots. -/
def waitingIn (s : PoolStanding κ) (g : Nat) : Nat := if g = s.current then s.slots.length else 0

/-- What every status goes with, and who holds the guards. -/
structure Sound (plan : PoolPlan κ) (s : PoolStanding κ) : Prop where
  begun : 0 < s.generations.length
  ranked : ∀ b ∈ s.crew, b.generation ≤ s.current
  counted : ∀ g, remainingIn s.generations g = Badge.unfinishedIn s.crew g + s.waitingIn g
  created : s.status = .created → s.slots = plan.freshSlots ∧
    cancelledIn s.generations s.current = false ∧ ∀ b ∈ s.crew, b.generation < s.current
  started : s.status = .started → s.slots = [] ∧ cancelledIn s.generations s.current = false
  stopped : s.status = .stopped → s.slots = [] ∧ cancelledIn s.generations s.current = true
  destroyed : s.status = .destroyed → s.slots = []

variable {plan : PoolPlan κ} {s t : PoolStanding κ} {m : PoolMove κ}

theorem waitingIn_of_no_slots (none : s.slots = []) (g : Nat) : s.waitingIn g = 0 := by
  rw [waitingIn, none, List.length_nil, ite_self]

theorem current_of_length (same : t.generations.length = s.generations.length) :
    t.current = s.current := by
  rw [current, current, same]

theorem waitingIn_of_length (same : t.generations.length = s.generations.length)
    (slots : t.slots = s.slots) (g : Nat) : t.waitingIn g = s.waitingIn g := by
  rw [waitingIn, waitingIn, current_of_length same, slots]

theorem Sound.current_lt (h : Sound plan s) : s.current < s.generations.length := by
  have := h.begun
  simp only [current]
  omega

/-- A creation leaves a sound pool sound: its workers wait in the slots of a new generation. -/
theorem Sound.created_turn (h : Sound plan s) (free : s.status = .destroyed) :
    Sound plan
      { s with
        status := .created
        generations := s.generations ++ [⟨false, plan.threads⟩]
        slots := plan.freshSlots } := by
  have next (g : Generation) : (s.generations ++ [g]).length - 1 = s.generations.length := by simp
  have older : ∀ b ∈ s.crew, b.generation < s.generations.length := by
    intro b member
    exact Nat.lt_of_le_of_lt (h.ranked b member) h.current_lt
  refine ⟨by simp, ?_, ?_, fun _ => ⟨rfl, ?_, ?_⟩, nofun, nofun, nofun⟩
  · intro b member
    simpa only [current, next] using Nat.le_of_lt (older b member)
  · intro g
    have width : plan.freshSlots.length = plan.threads := by simp [PoolPlan.freshSlots]
    simp only [waitingIn, current, next, remainingIn_append, width]
    by_cases last : g = s.generations.length
    · rw [if_pos last, if_pos last, last, Badge.unfinishedIn_eq_zero older, Nat.zero_add]
    · rw [if_neg last, if_neg last, h.counted g, waitingIn_of_no_slots (h.destroyed free)]
  · simpa only [current, next] using cancelledIn_append
  · simpa only [current, next] using older

/-- So does a start, which makes workers of the slots. -/
theorem Sound.started_turn (h : Sound plan s) (was : s.status = .created) :
    Sound plan
      { s with
        status := .started
        slots := []
        crew := s.crew ++ s.slots.map fun x => ⟨x.worker, s.current, false⟩ } := by
  obtain ⟨-, calm, -⟩ := h.created was
  refine ⟨h.begun, ?_, ?_, nofun, fun _ => ⟨rfl, calm⟩, nofun, nofun⟩
  · intro b member
    rcases List.mem_append.1 member with old | new
    · exact h.ranked b old
    · obtain ⟨x, -, rfl⟩ := List.mem_map.1 new
      exact Nat.le_refl _
  · intro g
    rw [Badge.unfinishedIn_launch, waitingIn_of_no_slots rfl, h.counted g]
    rfl

/-- So does a stop, which cancels the current token. -/
theorem Sound.stopped_turn (h : Sound plan s) (was : s.status = .started)
    (status : t.status = .stopped)
    (generations : t.generations = s.generations.modify s.current .cancel)
    (slots : t.slots = s.slots) (crew : t.crew = s.crew) : Sound plan t := by
  have length : t.generations.length = s.generations.length := by
    rw [generations, List.length_modify]
  have current : t.current = s.current := current_of_length length
  have cancelled : cancelledIn t.generations t.current = true := by
    rw [generations, current]
    exact cancelledIn_cancel h.current_lt
  refine ⟨length ▸ h.begun, ?_, ?_, ?_, ?_, fun _ => ⟨slots.trans (h.started was).1, cancelled⟩, ?_⟩
  · rw [current, crew]
    exact h.ranked
  · intro g
    rw [generations, remainingIn_cancel, waitingIn_of_length length slots, crew]
    exact h.counted g
  all_goals rw [status]; nofun

/-- So does the destruction of a pool that never started. -/
theorem Sound.discarded_turn (h : Sound plan s) (status : t.status = .destroyed)
    (generations : t.generations = s.generations.modify s.current (.release s.slots.length))
    (slots : t.slots = []) (crew : t.crew = s.crew) : Sound plan t := by
  have length : t.generations.length = s.generations.length := by
    rw [generations, List.length_modify]
  refine ⟨length ▸ h.begun, ?_, ?_, ?_, ?_, ?_, fun _ => slots⟩
  · rw [current_of_length length, crew]
    exact h.ranked
  · intro g
    have before := h.counted g
    rw [generations, remainingIn_release, waitingIn_of_no_slots slots, crew, before, waitingIn]
    by_cases here : g = s.current
    · rw [if_pos here, if_pos here.symm]
      omega
    · rw [if_neg here, if_neg (Ne.symm here)]
      omega
  all_goals rw [status]; nofun

/-- So does that of a stopped one. -/
theorem Sound.destroyed_turn (h : Sound plan s) (was : s.status = .stopped) :
    Sound plan { s with status := .destroyed } :=
  ⟨h.begun, h.ranked, h.counted, nofun, nofun, nofun, fun _ => (h.stopped was).1⟩

/-- So does a worker that finishes. -/
theorem Sound.finished_turn (h : Sound plan s) {i : Nat} {b : Badge}
    (launched : s.crew[i]? = some b) (busy : b.finished = false) (status : t.status = s.status)
    (generations : t.generations = s.generations.modify b.generation (.release 1))
    (slots : t.slots = s.slots) (crew : t.crew = s.crew.set i { b with finished := true }) :
    Sound plan t := by
  have length : t.generations.length = s.generations.length := by
    rw [generations, List.length_modify]
  have current : t.current = s.current := current_of_length length
  have token : cancelledIn t.generations t.current = cancelledIn s.generations s.current := by
    rw [generations, current, cancelledIn_release]
  have known (P : Nat → Prop) (all : ∀ b ∈ s.crew, P b.generation) :
      ∀ c ∈ t.crew, P c.generation := by
    intro c member
    rcases List.mem_or_eq_of_mem_set (crew ▸ member) with old | rfl
    · exact all c old
    · exact all b (List.mem_of_getElem? launched)
  refine ⟨length ▸ h.begun, ?_, ?_, ?_, ?_, ?_, ?_⟩
  · rw [current]
    exact known (· ≤ s.current) h.ranked
  · intro g
    have before := h.counted g
    have one := Badge.unfinishedIn_finish launched busy g
    rw [generations, remainingIn_release, waitingIn_of_length length slots, crew]
    omega
  · rw [status, slots, token, current]
    intro was
    obtain ⟨fresh, calm, older⟩ := h.created was
    exact ⟨fresh, calm, known (· < s.current) older⟩
  · rw [status, slots, token]
    exact h.started
  · rw [status, slots, token]
    exact h.stopped
  · rw [status, slots]
    exact h.destroyed

/-- The step: every turn leaves a sound standing sound. -/
theorem Sound.turn (h : Sound plan s) (turned : Turns plan m s t) : Sound plan t := by
  cases turned with
  | created free => exact h.created_turn free
  | started was => exact h.started_turn was
  | stopped was => exact h.stopped_turn was rfl rfl rfl rfl
  | discarded => exact h.discarded_turn rfl rfl rfl rfl
  | destroyed was => exact h.destroyed_turn was
  | finished launched busy => exact h.finished_turn launched busy rfl rfl rfl rfl

end PoolStanding

namespace Pool

variable {plan : PoolPlan κ} {p q : Pool κ} {m : PoolMove κ} {es : List (PoolEvent κ)}

theorem sound_fresh : (fresh plan).standing.Sound plan := by
  refine ⟨Nat.one_pos, nofun, ?_, nofun, nofun, nofun, fun _ => rfl⟩
  rintro (_ | g)
  · rfl
  · simp [fresh, standing, remainingIn, Badge.unfinishedIn, PoolStanding.waitingIn]

/-- The step: a sound pool stays sound. -/
theorem sound_of_follows (h : p.standing.Sound plan) (follows : Follows plan m p q) :
    q.standing.Sound plan := by
  rcases follows with same | turned
  · rwa [same]
  · exact h.turn turned

/-- The run: whatever happens to a pool in a sound standing, its standing stays sound. -/
theorem sound_of_continuation (sound : p.standing.Sound plan) (ran : run plan p es = some q) :
    q.standing.Sound plan :=
  run_induction (fun _ q => q.standing.Sound plan) sound
    (fun _ h made => sound_of_follows h (follows_of_moves (moves_of_after made))) ran

/-- Every schedule leads to a sound standing. -/
theorem sound_of_run (ran : run plan (fresh plan) es = some p) : p.standing.Sound plan :=
  sound_of_continuation sound_fresh ran

/-- No generation gets more workers than the plan says. -/
theorem remainingOf_le_threads (start : ∀ g, p.remainingOf g ≤ plan.threads)
    (ran : run plan p es = some q) (g : Nat) : q.remainingOf g ≤ plan.threads := by
  refine run_induction (fun _ q => ∀ g, q.remainingOf g ≤ plan.threads) start ?_ ran g
  intro es q e r _ h made g
  have follows := follows_of_moves (moves_of_after made)
  generalize e.move = m at follows
  refine follows.lift (R := fun s t => (∀ g, remainingIn s.generations g ≤ plan.threads) →
    remainingIn t.generations g ≤ plan.threads) (fun _ h => h g) (fun turned h => ?_) h
  have fewer {gs : List Generation} (k guards : Nat) (h : ∀ g, remainingIn gs g ≤ plan.threads) :
      remainingIn (gs.modify k (.release guards)) g ≤ plan.threads := by
    rw [remainingIn_release]
    exact Nat.le_trans (Nat.sub_le _ _) (h g)
  cases turned with
  | created =>
    rw [remainingIn_append]
    split
    · exact Nat.le_refl _
    · exact h g
  | stopped => rw [remainingIn_cancel]; exact h g
  | discarded => exact fewer _ _ h
  | finished => exact fewer _ _ h
  | started => exact h g
  | destroyed => exact h g

theorem remainingOf_fresh (plan : PoolPlan κ) (g : Nat) : (fresh plan).remainingOf g = 0 := by
  cases g with
  | zero => rfl
  | succ g => simp [fresh, remainingOf]

end Pool

end LoadHarness
