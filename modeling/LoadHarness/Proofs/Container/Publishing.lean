import LoadHarness.Proofs.Container.Turns

/-!
# What a container publishes

A container has a queue for its changes from its first listener on, and nothing that it publishes
before that is kept. So what a step publishes is taken to be what it would put into an empty queue.
Calls and services never look at the queue, so that with another queue they do the same and put the
same into it. A container publishes that it has started once at most, and then that it has stopped
once at most.
-/

namespace LoadHarness

variable {σ μ : Type} [Hosted σ μ]

namespace Container

/-- The container with another queue. -/
def withQueue (c : Container σ) (q : Option (List ContainerStatus)) : Container σ :=
  { c with queue := q }

/-- The changes that a step publishes. -/
def publishes (plan : ContainerPlan σ) (c : Container σ) (e : ContainerEvent σ μ) :
    List ContainerStatus :=
  (((c.withQueue (some [])).after? plan e).bind (·.queue)).getD []

/-- The changes that several events publish, up to the first that is not possible. -/
def published (plan : ContainerPlan σ) : Container σ → List (ContainerEvent σ μ) →
    List ContainerStatus
  | _, [] => []
  | c, e :: es =>
    match c.after? plan e with
    | none => []
    | some c' => c.publishes plan e ++ published plan c' es

variable {plan : ContainerPlan σ} {c c' d : Container σ} {e : ContainerEvent σ μ}
  {es fs : List (ContainerEvent σ μ)} {now t i : Nat} {q : Option (List ContainerStatus)}
  {told : List ContainerStatus}

/-- What follows a run goes on where it ends. -/
theorem run_append_of_run (ran : run plan c es = some d) :
    run plan c (es ++ fs) = run plan d fs :=
  foldlM_append_of_run ran

/-- What two runs one after the other publish. -/
theorem published_append (ran : run plan c es = some d) :
    published plan c (es ++ fs) = published plan c es ++ published plan d fs := by
  induction es generalizing c with
  | nil =>
    cases ran
    rfl
  | cons e es ih =>
    obtain ⟨mid, made, rest⟩ := Option.bind_eq_some_iff.1 ran
    simp only [List.cons_append, published, made, ih rest, List.append_assoc]

/-- What the last event of a run publishes. -/
theorem published_concat (ran : run plan c es = some d) (made : d.after? plan e = some c') :
    published plan c (es ++ [e]) = published plan c es ++ d.publishes plan e := by
  have last : published plan d [e] = d.publishes plan e ++ [] := by simp only [published, made]
  rw [published_append ran, last, List.append_nil]

/-! ## Another queue -/

/-- Another queue gets what was put into the empty one. -/
def refile (q : Option (List ContainerStatus)) (x : Container σ × List Deed) :
    Container σ × List Deed :=
  (x.1.withQueue (q.map (· ++ x.1.queue.getD [])), x.2)

/-- What puts nothing into its queue leaves another one as it is. -/
theorem refile_silent (q : Option (List ContainerStatus)) (c : Container σ) (deeds : List Deed) :
    refile q (c.withQueue (some []), deeds) = (c.withQueue q, deeds) := by
  have same : q.map (· ++ []) = q := by cases q <;> simp
  show (c.withQueue (q.map (· ++ [])), deeds) = (c.withQueue q, deeds)
  rw [same]

theorem callService_withQueue (c : Container σ) (q : Option (List ContainerStatus))
    (now i : Nat) (kind : LifecycleCall) :
    (c.withQueue q).callService now i kind =
      ((c.callService now i kind).1, (c.callService now i kind).2.1.withQueue q,
        (c.callService now i kind).2.2) := by
  unfold callService withQueue
  dsimp only
  split <;> rfl

theorem beginTearDown_withQueue (c : Container σ) (q : Option (List ContainerStatus))
    (now t i : Nat) (why : TearDown) :
    (c.withQueue q).beginTearDown now t i why =
      ((c.beginTearDown now t i why).1.withQueue q, (c.beginTearDown now t i why).2) := by
  simp only [beginTearDown, callService_withQueue]
  rfl

theorem beginStart_withQueue (plan : ContainerPlan σ) (c : Container σ)
    (q : Option (List ContainerStatus)) (now t : Nat) (answer : Except ServiceError σ) :
    (c.withQueue q).beginStart plan now t answer =
      ((c.beginStart plan now t answer).1.withQueue q, (c.beginStart plan now t answer).2) := by
  unfold beginStart
  by_cases on : c.status = .started
  · rw [if_pos on, if_pos (show (c.withQueue q).status = .started from on)]
    rfl
  rw [if_neg on, if_neg (show (c.withQueue q).status ≠ .started from on)]
  by_cases done : c.finished = true
  · rw [if_pos done, if_pos (show (c.withQueue q).finished = true from done)]
    rfl
  rw [if_neg done, if_neg (show ¬(c.withQueue q).finished = true from done)]
  cases plan.settings.validate with
  | error e => rfl
  | ok =>
    dsimp only
    cases plan.registry.contains plan.settings.service with
    | false => rfl
    | true =>
      cases answer with
      | error e => rfl
      | ok s =>
        have calls := callService_withQueue { c with services := c.services ++ [s] } q now
          c.services.length .create
        dsimp only [withQueue] at calls ⊢
        rw [calls]
        rfl

/-- Taking down puts the same into every queue. -/
theorem beginTearDown_refile (c : Container σ) (q : Option (List ContainerStatus))
    (now t i : Nat) (why : TearDown) :
    (c.withQueue q).beginTearDown now t i why =
      refile q ((c.withQueue (some [])).beginTearDown now t i why) := by
  rw [beginTearDown_withQueue c q, beginTearDown_withQueue c (some []), refile_silent]

/-- So does a start that has got the lock. -/
theorem beginStart_refile (plan : ContainerPlan σ) (c : Container σ)
    (q : Option (List ContainerStatus)) (now t : Nat) (answer : Except ServiceError σ) :
    (c.withQueue q).beginStart plan now t answer =
      refile q ((c.withQueue (some [])).beginStart plan now t answer) := by
  rw [beginStart_withQueue plan c q, beginStart_withQueue plan c (some []), refile_silent]

/-- So does a stop. -/
theorem beginStop_refile (c : Container σ) (q : Option (List ContainerStatus)) (now t : Nat) :
    (c.withQueue q).beginStop now t = refile q ((c.withQueue (some [])).beginStop now t) := by
  unfold beginStop
  by_cases off : c.status = .stopped
  · have off' (q : Option (List ContainerStatus)) : (c.withQueue q).status = .stopped := off
    rw [if_pos (off' q), if_pos (off' _)]
    exact (refile_silent q (c.finish t (.ok ())) []).symm
  · have on' (q : Option (List ContainerStatus)) : (c.withQueue q).status ≠ .stopped := off
    have kept (q : Option (List ContainerStatus)) : (c.withQueue q).kept = c.kept := rfl
    rw [if_neg (on' q), if_neg (on' _), kept, kept]
    cases c.kept with
    | nil => rfl
    | cons i rest => exact beginTearDown_refile c q now t i (.halt rest)

/-- Another call of service `i`, for which call `t` waits then. -/
theorem goOn_refile (c : Container σ) (q : Option (List ContainerStatus)) (now t i : Nat)
    (kind : LifecycleCall) (phase : Nat → TurnPhase) :
    (let (n, c', deeds) := (c.withQueue q).callService now i kind
     (c'.setPhase t (phase n), deeds)) =
      refile q
        (let (n, c', deeds) := (c.withQueue (some [])).callService now i kind
         (c'.setPhase t (phase n), deeds)) := by
  rw [callService_withQueue c q, callService_withQueue c (some [])]
  exact (refile_silent q ((c.callService now i kind).2.1.setPhase t _) _).symm

/-- Calls go on past the queue. -/
theorem resume_refile (plan : ContainerPlan σ) (c : Container σ)
    (q : Option (List ContainerStatus)) (now t : Nat) (phase : TurnPhase) :
    (c.withQueue q).resume plan now t phase =
      ((c.withQueue (some [])).resume plan now t phase).map (refile q) := by
  -- what a call hears of its service does not depend on the queue
  have hears (i call : Nat) (f g : Except ServiceError Unit → Container σ × List Deed)
      (each : ∀ r, f r = refile q (g r)) :
      ((c.withQueue q).result? i call).map f =
        (((c.withQueue (some [])).result? i call).map g).map (refile q) := by
    show (c.result? i call).map f = ((c.result? i call).map g).map (refile q)
    rw [Option.map_map]
    exact congrArg (fun h => (c.result? i call).map h) (funext each)
  unfold resume
  cases phase with
  | creating i call =>
    refine hears i call _ _ fun r => ?_
    cases r with
    | ok => exact goOn_refile c q now t i .start (.starting i)
    | error e => exact beginTearDown_refile c q now t i (.undo e)
  | starting i call =>
    refine hears i call _ _ fun r => ?_
    cases r with
    | ok => rfl
    | error e => exact beginTearDown_refile c q now t i (.undo e)
  | stopping i call why =>
    exact hears i call _ _ fun _ => goOn_refile c q now t i .destroy (.destroying i · why)
  | destroying i call why =>
    refine hears i call _ _ fun r => ?_
    cases why with
    | undo e => exact (refile_silent q (c.finish t _) []).symm
    | halt rest =>
      cases rest with
      | nil => rfl
      | cons j rest => exact beginTearDown_refile c q now t j (.halt rest)
  | waiting =>
    by_cases word : c.shutdown = true
    · have word' (q : Option (List ContainerStatus)) : (c.withQueue q).shutdown = true := word
      rw [if_pos (word' q), if_pos (word' _)]
      exact congrArg some (refile_silent q (c.setPhase t _) []).symm
    · have word' (q : Option (List ContainerStatus)) : ¬(c.withQueue q).shutdown = true := word
      rw [if_neg (word' q), if_neg (word' _)]
      rfl
  | queued => rfl
  | returned => rfl

/-- So does every step that is no business of listeners. -/
theorem step_refile (plan : ContainerPlan σ) (c : Container σ) (q : Option (List ContainerStatus))
    (now : Nat) {m : ContainerMove σ μ} (other : m.isHearing = false) :
    (c.withQueue q).step plan now m = ((c.withQueue (some [])).step plan now m).map (refile q) := by
  cases m with
  | ask kind =>
    exact congrArg some
      (refile_silent q { c with turns := c.turns ++ [⟨kind, .queued⟩] } []).symm
  | lock t answer =>
    have held (q : Option (List ContainerStatus)) : (c.withQueue q).holder = c.holder := rfl
    have asked (q : Option (List ContainerStatus)) : (c.withQueue q).turns = c.turns := rfl
    unfold step
    dsimp only
    rw [held, held, asked, asked]
    split
    · next kind _ _ =>
      cases kind with
      | start =>
        exact congrArg some (beginStart_refile plan { c with holder := some t } q now t answer)
      | stop => exact congrArg some (beginStop_refile { c with holder := some t } q now t)
    · rfl
  | proceed t =>
    have asked (q : Option (List ContainerStatus)) : (c.withQueue q).turns = c.turns := rfl
    unfold step
    dsimp only
    rw [asked, asked]
    split
    · exact resume_refile plan c q now t _
    · rfl
  | service i m =>
    have there (q : Option (List ContainerStatus)) : (c.withQueue q).services = c.services := rfl
    unfold step
    dsimp only
    rw [there, there, Option.map_map]
    congr 1
    funext s
    exact (refile_silent q { c with services := c.services.set i s } []).symm
  | listen => cases other
  | dispatch => cases other
  | deliver => cases other

/-- A step that is no business of listeners is that of a container with an empty queue, and what it
puts there goes into the real one. -/
theorem publishes_of_after (made : c.after? plan e = some c') (other : e.move.isHearing = false) :
    ∃ d, (c.withQueue (some [])).after? plan e = some d ∧ d.queue = some (c.publishes plan e) ∧
      c' = d.withQueue (c.queue.map (· ++ c.publishes plan e)) := by
  obtain ⟨x, stepped, rfl⟩ := Option.map_eq_some_iff.1 made
  have refiled := step_refile plan c c.queue e.now other
  obtain ⟨y, first, rfl⟩ := Option.map_eq_some_iff.1 (refiled.symm.trans stepped)
  have own := step_refile plan c (some []) e.now other
  rw [first] at own
  have kept : y.1.queue = some (y.1.queue.getD []) :=
    congrArg (fun x : Container σ × List Deed => x.1.queue) (Option.some.inj own)
  have after : (c.withQueue (some [])).after? plan e = some y.1 := congrArg _ first
  have said : c.publishes plan e = y.1.queue.getD [] := by
    rw [publishes, after]
    rfl
  rw [said]
  exact ⟨y.1, after, kept, rfl⟩

/-- A step that is none of hearing adds to the queue what it publishes. -/
theorem queue_of_after (made : c.after? plan e = some c') (other : e.move.isHearing = false) :
    c'.queue = c.queue.map (· ++ c.publishes plan e) := by
  obtain ⟨d, -, -, rfl⟩ := publishes_of_after made other
  rfl

/-- What listeners and the dispatcher do. -/
inductive Hears (c : Container σ) : ContainerMove σ μ → Container σ → Prop where
  | registers :
      Hears c .listen
        { c with listeners := c.listeners ++ [⟨[]⟩], queue := some (c.queue.getD []) }
  | takes {s rest} (idle : c.delivery = none) (queued : c.queue = some (s :: rest)) :
      Hears c .dispatch
        { c with queue := some rest, delivery := some (s, List.range c.listeners.length) }
  | hears {breaksOff s i rest} (delivers : c.delivery = some (s, i :: rest)) :
      Hears c (.deliver breaksOff)
        { c with
          listeners := c.listeners.modify i fun l => { l with heard := l.heard ++ [s] }
          delivery := some (s, rest) }
  | delivered {breaksOff s} (delivers : c.delivery = some (s, [])) :
      Hears c (.deliver breaksOff) { c with delivery := none }

/-- The steps of hearing are the ones above. -/
theorem hears_of_after (made : c.after? plan e = some c') (own : e.move.isHearing = true) :
    Hears c e.move c' := by
  obtain ⟨now, m⟩ := e
  obtain ⟨⟨d, deeds⟩, stepped, rfl⟩ := Option.map_eq_some_iff.1 made
  cases m with
  | listen => cases stepped; exact .registers
  | dispatch =>
    simp only [step] at stepped
    split at stepped <;> cases stepped
    next idle queued => exact .takes idle queued
  | deliver =>
    simp only [step] at stepped
    split at stepped <;> cases stepped
    · next delivers => exact .hears delivers
    · next delivers => exact .delivered delivers
  | _ => cases own

/-- Listeners and the dispatcher publish nothing. -/
theorem publishes_of_hearing (own : e.move.isHearing = true) : c.publishes plan e = [] := by
  unfold publishes
  cases made : (c.withQueue (some [])).after? plan e with
  | none => rfl
  | some d =>
    have hears := hears_of_after made own
    generalize e.move = m at hears
    cases hears with
    | takes _ queued => cases queued
    | _ => rfl

/-! ## What is published -/

/-- How far a container has come, by its status and whether it has been stopped after it ran, and
what it has published until then. -/
inductive Chapter : ContainerStatus → Bool → List ContainerStatus → Prop where
  | before : Chapter .stopped false []
  | during : Chapter .started false [.started]
  | after : Chapter .stopped true [.started, .stopped]

/-- A chapter is told from its beginning. -/
theorem Chapter.prefix_of {s : ContainerStatus} {finished : Bool} (chapter : Chapter s finished told) :
    told <+: [.started, .stopped] := by
  cases chapter with
  | before => exact List.nil_prefix
  | during => exact ⟨[.stopped], rfl⟩
  | after => exact List.prefix_refl _

end Container

/-- The status of a container that this call is at work on. -/
def TurnPhase.worksOn? : TurnPhase → Option ContainerStatus
  | creating _ _ => some .stopped
  | starting _ _ => some .stopped
  | stopping _ _ (.undo _) => some .stopped
  | destroying _ _ (.undo _) => some .stopped
  | stopping _ _ (.halt _) => some .started
  | destroying _ _ (.halt _) => some .started
  | _ => none

namespace Container

variable {plan : ContainerPlan σ} {c c' : Container σ} {e : ContainerEvent σ μ}
  {es : List (ContainerEvent σ μ)} {m : ContainerMove σ μ} {now t : Nat} {told : List ContainerStatus}
  {kind : ContainerCall} {phase : TurnPhase} {turn : Turn} {answer : Except ServiceError σ}

/-- The container is as far as it has published, and only the holder of the lock is at work, on a
container that has not been stopped after it ran. -/
structure Telling (told : List ContainerStatus) (c : Container σ) : Prop where
  chapter : Chapter c.status c.finished told
  works : ∀ (u : Nat) turn s, c.turns[u]? = some turn → turn.phase.worksOn? = some s →
    c.holder = some u ∧ c.status = s ∧ c.finished = false

/-- Only turn `t` changes, and nobody else holds the lock. -/
theorem Telling.turns (h : Telling told c) (phase : TurnPhase) {said : List ContainerStatus}
    (alone : ∀ u, c.holder = some u → u = t) (same : c'.turns = (c.setPhase t phase).turns)
    (chapter : Chapter c'.status c'.finished said)
    (own : ∀ s, phase.worksOn? = some s →
      c'.holder = some t ∧ c'.status = s ∧ c'.finished = false) : Telling said c' := by
  refine ⟨chapter, fun u turn s here works => ?_⟩
  rw [same] at here
  by_cases mine : u = t
  · subst mine
    rw [setPhase, List.getElem?_modify_eq] at here
    obtain ⟨turn', -, rfl⟩ := Option.map_eq_some_iff.1 here
    exact own s works
  · rw [setPhase_elsewhere mine] at here
    exact absurd (alone u (h.works u turn s here works).1) mine

/-- Call `t` makes a call of a service and goes on being at work. -/
theorem Telling.advance (h : Telling told c) {s : ContainerStatus} {i : Nat} {call : LifecycleCall}
    {next : Nat → TurnPhase} {d : Container σ} (alone : ∀ u, c.holder = some u → u = t)
    (turns : d.turns = c.turns) (held : d.holder = some t) (status : d.status = c.status)
    (finished : d.finished = c.finished) (unfinished : c.finished = false) (on : c.status = s)
    (works : ∀ n, (next n).worksOn? = some s) : Telling told (d.advance now t i call next) := by
  obtain ⟨n, services, same⟩ := exists_advance d now t i call next
  rw [same]
  refine h.turns (next n) alone ?_ ?_ ?_
  · show (d.setPhase t (next n)).turns = (c.setPhase t (next n)).turns
    rw [setPhase, setPhase, turns]
  · show Chapter d.status d.finished told
    rw [status, finished]
    exact h.chapter
  · intro s' works'
    cases (works n).symm.trans works'
    exact ⟨held, status.trans on, finished.trans unfinished⟩

theorem advance_queue (c : Container σ) (now t i : Nat) (kind : LifecycleCall)
    (phase : Nat → TurnPhase) : (c.advance now t i kind phase).queue = c.queue := by
  obtain ⟨n, services, same⟩ := exists_advance c now t i kind phase
  rw [same]
  rfl

/-- A container that stops has started before. -/
theorem Chapter.closes {s : ContainerStatus} {finished : Bool} (chapter : Chapter s finished told)
    (on : s = .started) : Chapter .stopped true (told ++ [.stopped]) := by
  cases chapter with
  | before => cases on
  | during => exact .after
  | after => cases on

/-- A container that starts has not started before. -/
theorem Chapter.starts {s : ContainerStatus} {finished : Bool} (chapter : Chapter s finished told)
    (off : s = .stopped) (unfinished : finished = false) :
    Chapter .started finished (told ++ [.started]) := by
  cases chapter with
  | before => exact .during
  | during => cases off
  | after => cases unfinished

/-- A container that is started has not finished. -/
theorem Chapter.unfinished {s : ContainerStatus} {finished : Bool} (chapter : Chapter s finished told)
    (on : s = .started) : finished = false := by
  cases chapter with
  | before => cases on
  | during => rfl
  | after => cases on

/-- A step that publishes nothing goes on with the story. -/
theorem Telling.silent (h : Telling told c) (empty : c.queue = some []) :
    Telling (told ++ c.queue.getD []) c := by
  have none : told ++ c.queue.getD [] = told := by
    rw [empty]
    exact List.append_nil told
  rwa [none]

/-- So does one that publishes the next transition. -/
theorem Telling.puts {s : ContainerStatus} (h : Telling (told ++ [s]) c)
    (said : c.queue = some [s]) : Telling (told ++ c.queue.getD []) c := by
  rwa [said]

theorem publish_queue (empty : c.queue = some []) (s : ContainerStatus) :
    (c.publish s).queue = some [s] := by
  rw [publish, empty]
  rfl

/-- A call that gets the lock publishes at most that the container has stopped. -/
theorem Telling.locks (h : Telling told c) (empty : c.queue = some []) (free : c.holder = none)
    (locked : Locks plan c now t answer kind c') : Telling (told ++ c'.queue.getD []) c' := by
  have alone : ∀ u, c.holder = some u → u = t := fun u held => by cases free.symm.trans held
  cases locked with
  | again | late | refused | idle =>
    exact Telling.silent (h.turns (.returned _) alone rfl h.chapter nofun) empty
  | builds off unfinished =>
    refine Telling.silent ?_ ((advance_queue _ _ _ _ _ _).trans empty)
    exact h.advance alone rfl rfl rfl rfl unfinished off fun _ => rfl
  | closes on =>
    have closed : Telling (told ++ [.stopped]) (c.close t) :=
      h.turns (.returned _) alone rfl (h.chapter.closes on) nofun
    exact closed.puts (publish_queue empty .stopped)
  | halts on =>
    refine Telling.silent ?_ ((advance_queue _ _ _ _ _ _).trans empty)
    exact h.advance alone rfl rfl rfl rfl (h.chapter.unfinished on) on fun _ => rfl

/-- A call that goes on publishes at most one change, the next one. -/
theorem Telling.goes (h : Telling told c) (empty : c.queue = some [])
    (here : c.turns[t]? = some turn) (goes : Goes plan c now t turn.phase c') :
    Telling (told ++ c'.queue.getD []) c' := by
  obtain ⟨kind, phase⟩ := turn
  have working {s : ContainerStatus} (works : phase.worksOn? = some s) :
      c.holder = some t ∧ c.status = s ∧ c.finished = false := h.works t _ s here works
  have alone (held : c.holder = some t) : ∀ u, c.holder = some u → u = t :=
    fun u held' => Option.some.inj (held'.symm.trans held)
  have advances {s : ContainerStatus} {i : Nat} {call : LifecycleCall} {next : Nat → TurnPhase}
      (works : phase.worksOn? = some s) (still : ∀ n, (next n).worksOn? = some s) :
      Telling (told ++ (c.advance now t i call next).queue.getD []) (c.advance now t i call next) := by
    obtain ⟨held, on, unfinished⟩ := working works
    refine Telling.silent ?_ ((advance_queue _ _ _ _ _ _).trans empty)
    exact h.advance (alone held) rfl held rfl rfl unfinished on still
  cases goes with
  | created | uncreated | unstarted => exact advances rfl fun _ => rfl
  | started =>
    obtain ⟨held, off, unfinished⟩ := working (s := .stopped) rfl
    refine Telling.puts ?_ (publish_queue empty .started)
    exact h.turns .waiting (alone held) rfl (h.chapter.starts off unfinished) nofun
  | @stopped i call why =>
    cases why with
    | undo e => exact advances rfl fun _ => rfl
    | halt rest => exact advances rfl fun _ => rfl
  | undone =>
    obtain ⟨held, -, -⟩ := working (s := .stopped) rfl
    exact Telling.silent (h.turns (.returned _) (alone held) rfl h.chapter nofun) empty
  | closes =>
    obtain ⟨held, on, -⟩ := working (s := .started) rfl
    have closed : Telling (told ++ [.stopped]) (c.close t) :=
      h.turns (.returned _) (alone held) rfl (h.chapter.closes on) nofun
    exact closed.puts (publish_queue empty .stopped)
  | halts => exact advances rfl fun _ => rfl
  | woken =>
    -- a start that waits does not hold the lock, so others may be at work
    refine Telling.silent ⟨h.chapter, fun u turn s there works => ?_⟩ empty
    by_cases mine : u = t
    · subst mine
      cases (setPhase_here here _).symm.trans there
      cases works
    · rw [setPhase_elsewhere mine] at there
      exact h.works u turn s there works

/-- The step, of calls and services on an empty queue: what is put there comes next. -/
theorem Telling.step (h : Telling told c) (empty : c.queue = some []) (moved : Moves plan c now m c')
    (other : m.isHearing = false) : Telling (told ++ c'.queue.getD []) c' := by
  cases moved with
  | asks =>
    refine Telling.silent ⟨h.chapter, fun u turn s here works => ?_⟩ empty
    by_cases within : u < c.turns.length
    · rw [List.getElem?_append_left within] at here
      exact h.works u turn s here works
    · rw [List.getElem?_append_right (Nat.le_of_not_lt within)] at here
      cases List.mem_singleton.1 (List.mem_of_getElem? here)
      cases works
  | locks free _ locked => exact h.locks empty free locked
  | goes here goes => exact h.goes empty here goes
  | tells own => cases own.symm.trans other
  | serves => exact Telling.silent ⟨h.chapter, h.works⟩ empty

/-- The step: a container stays as far as it has published. -/
theorem Telling.after (h : Telling told c) (made : c.after? plan e = some c') :
    Telling (told ++ c.publishes plan e) c' := by
  by_cases own : e.move.isHearing = true
  · rw [publishes_of_hearing own, List.append_nil]
    have moved := moves_of_after made
    generalize e.move = m at own moved
    cases moved with
    | tells => exact ⟨h.chapter, h.works⟩
    | _ => cases own
  · obtain ⟨d, first, said, rfl⟩ := publishes_of_after made (Bool.eq_false_iff.2 own)
    have empty : Telling told (c.withQueue (some [])) := ⟨h.chapter, h.works⟩
    have tells := empty.step rfl (moves_of_after first) (Bool.eq_false_iff.2 own)
    rw [said] at tells
    exact ⟨tells.chapter, tells.works⟩

/-- The run: so it is after every schedule. -/
theorem telling_of_run (ran : run plan fresh es = some c) : Telling (published plan fresh es) c := by
  have start : Telling [] (fresh : Container σ) := ⟨.before, fun u turn s here => by cases here⟩
  refine foldlM_induction (fun es c => Telling (published plan fresh es) c) start ?_ ran
  intro es c e d ran h made
  rw [published_concat ran made]
  exact h.after made

end Container

end LoadHarness
