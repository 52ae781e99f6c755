import LoadHarness.Proofs.Container.Lifetime
import LoadHarness.Proofs.Container.Publishing

/-!
# What listeners hear

A change waits in the queue, is handed by the dispatcher to those who listen at that time, and is
heard by one of them after the other. What a listener has heard, what it is still to hear of the
change that is being delivered, and what is queued make up its due. Every step adds to the due what
it publishes and nothing else, so that nothing is lost, repeated or put in another order on the
way, whoever breaks off. That a listener registers is one step here: until there is a queue nothing
is kept, and once there is one it makes no difference who else registers meanwhile.
-/

namespace LoadHarness

variable {σ μ : Type} [Hosted σ μ]

/-- The same event with a listener that does not break off. -/
def ContainerEvent.mute (e : ContainerEvent σ μ) : ContainerEvent σ μ :=
  match e.move with
  | .deliver _ => { e with move := .deliver false }
  | _ => e

namespace Container

/-- The change that is being delivered, if listener `i` is still to hear it. -/
def pending (c : Container σ) (i : Nat) : List ContainerStatus :=
  match c.delivery with
  | some (s, rest) => if i ∈ rest then [s] else []
  | none => []

/-- What listener `i` has heard, and what is on the way to it. -/
def due (c : Container σ) (i : Nat) (l : Listener) : List ContainerStatus :=
  l.heard ++ c.pending i ++ c.queue.getD []

/-- Nothing is queued, and the dispatcher waits. -/
def Quiet (c : Container σ) : Prop := c.queue.getD [] = [] ∧ c.delivery = none

/-- There is a queue for those who listen, and changes are delivered to each of them once at most. -/
structure Attended (c : Container σ) : Prop where
  queued : c.queue = none → c.listeners = []
  delivers : ∀ s rest, c.delivery = some (s, rest) →
    rest.Nodup ∧ ∀ i ∈ rest, i < c.listeners.length

variable {plan : ContainerPlan σ} {c c' d : Container σ} {e : ContainerEvent σ μ}
  {es fs : List (ContainerEvent σ μ)} {m : ContainerMove σ μ} {now t i : Nat} {l : Listener}
  {told : List ContainerStatus}

/-- When nothing is on the way, a listener has heard all that it is due. -/
theorem due_of_quiet (quiet : c.Quiet) (i : Nat) (l : Listener) : c.due i l = l.heard := by
  obtain ⟨empty, idle⟩ := quiet
  simp only [due, pending, empty, idle, List.append_nil]

/-! ## Steps -/

/-- Turns that go on leave the listeners and the delivery alone. -/
theorem bystanders_of_advance (c : Container σ) (now t i : Nat) (kind : LifecycleCall)
    (phase : Nat → TurnPhase) :
    (c.advance now t i kind phase).listeners = c.listeners ∧
      (c.advance now t i kind phase).delivery = c.delivery := by
  obtain ⟨n, services, same⟩ := exists_advance c now t i kind phase
  rw [same]
  exact ⟨rfl, rfl⟩

/-- Calls and services leave listeners and the dispatcher alone. -/
theorem bystanders_of_moves (moved : Moves plan c now m c') (other : m.isHearing = false) :
    c'.listeners = c.listeners ∧ c'.delivery = c.delivery := by
  cases moved with
  | asks => exact ⟨rfl, rfl⟩
  | locks _ _ locked =>
    cases locked with
    | builds | halts => exact bystanders_of_advance _ _ _ _ _ _
    | _ => exact ⟨rfl, rfl⟩
  | @goes t turn _ _ goes =>
    obtain ⟨kind, phase⟩ := turn
    cases goes with
    | created | uncreated | unstarted | stopped | halts =>
      exact bystanders_of_advance _ _ _ _ _ _
    | _ => exact ⟨rfl, rfl⟩
  | tells own => cases own.symm.trans other
  | serves => exact ⟨rfl, rfl⟩

/-- What is pending depends on the delivery alone. -/
theorem pending_of_delivery (same : c'.delivery = c.delivery) (i : Nat) :
    c'.pending i = c.pending i := by
  rw [pending, pending, same]

theorem Attended.some_queue (h : c.Attended) (here : c.listeners[i]? = some l) :
    ∃ q, c.queue = some q := by
  cases queue : c.queue with
  | none =>
    rw [h.queued queue] at here
    cases here
  | some q => exact ⟨q, rfl⟩

/-- The step: a listener stays, and its due grows by what is published. -/
theorem due_of_after (h : c.Attended) (made : c.after? plan e = some c')
    (here : c.listeners[i]? = some l) :
    ∃ l', c'.listeners[i]? = some l' ∧ c'.due i l' = c.due i l ++ c.publishes plan e := by
  have within : i < c.listeners.length := (List.getElem?_eq_some_iff.1 here).1
  by_cases own : e.move.isHearing = true
  · rw [publishes_of_hearing own, List.append_nil]
    have hears := hears_of_after made own
    generalize e.move = m at hears
    cases hears with
    | registers => exact ⟨l, (List.getElem?_append_left within).trans here, rfl⟩
    | takes idle queued =>
      refine ⟨l, here, ?_⟩
      simp only [due, pending, idle, queued, if_pos (List.mem_range.2 within), Option.getD_some,
        List.append_nil, List.append_assoc, List.singleton_append]
    | @hears b s j rest delivers =>
      obtain ⟨once, -⟩ := h.delivers _ _ delivers
      obtain ⟨gone, -⟩ := List.nodup_cons.1 once
      by_cases mine : j = i
      · subst mine
        refine ⟨{ l with heard := l.heard ++ [s] }, ?_, ?_⟩
        · rw [List.getElem?_modify_eq, here]
          rfl
        · simp only [due, pending, delivers, if_neg gone, if_pos (List.mem_cons_self (a := j)),
            List.append_nil]
      · refine ⟨l, (List.getElem?_modify_ne _ _ mine).trans here, ?_⟩
        have same : i ∈ j :: rest ↔ i ∈ rest := by simp [Ne.symm mine]
        simp only [due, pending, delivers, same]
    | delivered delivers =>
      refine ⟨l, here, ?_⟩
      simp only [due, pending, delivers, List.not_mem_nil, if_false]
  · have other := Bool.eq_false_iff.2 own
    obtain ⟨listeners, delivery⟩ := bystanders_of_moves (moves_of_after made) other
    obtain ⟨q, queue⟩ := h.some_queue here
    refine ⟨l, listeners ▸ here, ?_⟩
    unfold due
    rw [pending_of_delivery delivery, queue_of_after made other, queue, Option.map_some,
      Option.getD_some, Option.getD_some, List.append_assoc (l.heard ++ _)]

/-- The step: listeners are attended to. -/
theorem Attended.step (h : c.Attended) (made : c.after? plan e = some c') : c'.Attended := by
  by_cases own : e.move.isHearing = true
  · have hears := hears_of_after made own
    generalize e.move = m at hears
    cases hears with
    | registers =>
      refine ⟨nofun, fun s rest delivers => ?_⟩
      obtain ⟨once, within⟩ := h.delivers s rest delivers
      refine ⟨once, fun i member => ?_⟩
      rw [List.length_append]
      exact Nat.lt_add_right _ (within i member)
    | takes idle queued =>
      refine ⟨nofun, fun s rest delivers => ?_⟩
      cases delivers
      exact ⟨List.nodup_range, fun i member => List.mem_range.1 member⟩
    | @hears b s j rest delivers =>
      obtain ⟨once, within⟩ := h.delivers _ _ delivers
      refine ⟨fun none => ?_, fun s' rest' delivers' => ?_⟩
      · show c.listeners.modify j _ = []
        rw [h.queued none, List.modify_nil]
      · cases delivers'
        refine ⟨(List.nodup_cons.1 once).2, fun i member => ?_⟩
        rw [List.length_modify]
        exact within i (List.mem_cons_of_mem _ member)
    | delivered => exact ⟨h.queued, nofun⟩
  · have other := Bool.eq_false_iff.2 own
    obtain ⟨listeners, delivery⟩ := bystanders_of_moves (moves_of_after made) other
    refine ⟨fun none => ?_, ?_⟩
    · rw [queue_of_after made other, Option.map_eq_none_iff] at none
      exact listeners.trans (h.queued none)
    · rw [listeners, delivery]
      exact h.delivers

/-- The run: so it is after any number of events. -/
theorem attended_of_run (h : c.Attended) (ran : run plan c es = some d) : d.Attended :=
  foldlM_induction (fun _ d => d.Attended) h (fun _ h made => h.step made) ran

theorem attended_fresh : (fresh : Container σ).Attended := ⟨fun _ => rfl, nofun⟩

/-- The run: a listener that is there stays, and its due grows by all that is published. -/
theorem due_of_run (h : c.Attended) (here : c.listeners[i]? = some l)
    (ran : run plan c es = some d) :
    ∃ l', d.listeners[i]? = some l' ∧ d.due i l' = c.due i l ++ published plan c es := by
  refine foldlM_induction (fun es d => ∃ l', d.listeners[i]? = some l' ∧
    d.due i l' = c.due i l ++ published plan c es) ⟨l, here, (List.append_nil _).symm⟩ ?_ ran
  rintro es d e d' ran ⟨l', there, due⟩ made
  obtain ⟨l'', here', grows⟩ := due_of_after (attended_of_run h ran) made there
  refine ⟨l'', here', ?_⟩
  rw [grows, due, published_concat ran made, List.append_assoc]

/-- Whether a listener breaks off makes no difference to the container. -/
theorem after_mute (plan : ContainerPlan σ) (c : Container σ) (e : ContainerEvent σ μ) :
    c.after? plan e.mute = c.after? plan e ∧ c.publishes plan e.mute = c.publishes plan e := by
  obtain ⟨now, m⟩ := e
  cases m <;> exact ⟨rfl, rfl⟩

/-- Whoever breaks off, the same happens and the same is published. -/
theorem run_mute (plan : ContainerPlan σ) (c : Container σ) (es : List (ContainerEvent σ μ)) :
    run plan c (es.map (·.mute)) = run plan c es ∧
      published plan c (es.map (·.mute)) = published plan c es := by
  induction es generalizing c with
  | nil => exact ⟨rfl, rfl⟩
  | cons e es ih =>
    obtain ⟨goes, same⟩ := after_mute plan c e
    unfold run at ih ⊢
    rw [List.map_cons, List.foldlM_cons, List.foldlM_cons, published, published, goes, same]
    cases c.after? plan e with
    | none => exact ⟨rfl, rfl⟩
    | some d => exact ⟨(ih d).1, congrArg _ (ih d).2⟩

/-- What has been published ends with what is queued, and with the due of every listener. -/
structure Attuned (told : List ContainerStatus) (c : Container σ) : Prop where
  queued : c.queue.getD [] <:+ told
  dues : ∀ (i : Nat) l, c.listeners[i]? = some l → c.due i l <:+ told

/-- A listener was there before, or has just registered and has heard nothing. -/
theorem listener_of_after (made : c.after? plan e = some c') {l' : Listener}
    (there : c'.listeners[i]? = some l') :
    (∃ l, c.listeners[i]? = some l) ∨ i = c.listeners.length ∧ l' = ⟨[]⟩ ∧
      c'.delivery = c.delivery ∧ c'.queue = some (c.queue.getD []) := by
  by_cases own : e.move.isHearing = true
  · have hears := hears_of_after made own
    generalize e.move = m at hears
    cases hears with
    | registers =>
      by_cases within : i < c.listeners.length
      · exact .inl ⟨_, List.getElem?_eq_getElem within⟩
      · have last : i = c.listeners.length := by
          have bound := (List.getElem?_eq_some_iff.1 there).1
          rw [List.length_append, List.length_singleton] at bound
          omega
        subst last
        rw [List.getElem?_concat_length] at there
        exact .inr ⟨rfl, (Option.some.inj there).symm, rfl, rfl⟩
    | takes | delivered => exact .inl ⟨l', there⟩
    | @hears b s j rest =>
      have within := (List.getElem?_eq_some_iff.1 there).1
      rw [List.length_modify] at within
      exact .inl ⟨_, List.getElem?_eq_getElem within⟩
  · obtain ⟨listeners, -⟩ := bystanders_of_moves (moves_of_after made) (Bool.eq_false_iff.2 own)
    exact .inl ⟨l', listeners ▸ there⟩

/-- The queue loses its first change to the dispatcher, and gets what is published. -/
theorem queued_of_after (h : c.queue.getD [] <:+ told) (made : c.after? plan e = some c') :
    c'.queue.getD [] <:+ told ++ c.publishes plan e := by
  by_cases own : e.move.isHearing = true
  · rw [publishes_of_hearing own, List.append_nil]
    have hears := hears_of_after made own
    generalize e.move = m at hears
    cases hears with
    | takes _ queued =>
      rw [queued] at h
      exact (List.suffix_cons _ _).trans h
    | _ => exact h
  · rw [queue_of_after made (Bool.eq_false_iff.2 own)]
    cases queue : c.queue with
    | none => exact List.nil_suffix
    | some q =>
      rw [queue] at h
      exact List.suffix_append_self_iff.2 h

/-- The step: so it stays. -/
theorem Attuned.step (h : Attuned told c) (attended : c.Attended)
    (made : c.after? plan e = some c') : Attuned (told ++ c.publishes plan e) c' := by
  have queued := queued_of_after h.queued made
  refine ⟨queued, fun i l' there => ?_⟩
  rcases listener_of_after made there with ⟨l, here⟩ | ⟨last, rfl, delivery, queue⟩
  · obtain ⟨l'', there', grows⟩ := due_of_after attended made here
    cases there.symm.trans there'
    rw [grows]
    exact List.suffix_append_self_iff.2 (h.dues i l here)
  · -- whoever has just registered is not among those that hear the change on its way
    have none : c.pending i = [] := by
      unfold pending
      split
      · next s rest delivers =>
        obtain ⟨-, within⟩ := attended.delivers s rest delivers
        exact if_neg fun member => absurd (within i member) (last ▸ Nat.lt_irrefl _)
      · rfl
    unfold due
    rw [pending_of_delivery delivery, none]
    exact queued

/-- The run: each listener is attuned to what has been published. -/
theorem attuned_of_run (ran : run plan fresh es = some c) :
    Attuned (published plan fresh es) c := by
  have start : Attuned [] (fresh : Container σ) := ⟨List.nil_suffix, fun _ _ here => by cases here⟩
  refine foldlM_induction (fun es c => Attuned (published plan fresh es) c) start ?_ ran
  intro es c e d ran h made
  rw [published_concat ran made]
  exact h.step (attended_of_run attended_fresh ran) made

/-- **Listeners hear of every change once and in order.** Whatever services a container runs, however
many listeners, starts and stops there are and whenever they come, and whoever breaks off over which
change: a container publishes that it has started and then that it has stopped, each once at most.
Whenever nothing is queued and the dispatcher waits, what a listener has heard is the end of what was
published, without repetition, and has all that was published since it registered. Whoever breaks
off, the same is published and everybody hears the same. -/
theorem heard_in_order (plan : ContainerPlan σ) {es : List (ContainerEvent σ μ)} {c : Container σ}
    (ran : run plan fresh es = some c) :
    published plan fresh es <+: [.started, .stopped] ∧
    (c.Quiet → ∀ (i : Nat) l, c.listeners[i]? = some l →
      l.heard <:+ published plan fresh es ∧ l.heard.Nodup) ∧
    (∀ before now after b b', es = before ++ ⟨now, .listen⟩ :: after →
      run plan fresh before = some b → b.after? plan ⟨now, .listen⟩ = some b' →
      ∃ l, c.listeners[b.listeners.length]? = some l ∧
        (c.Quiet → published plan b' after <:+ l.heard)) ∧
    (∀ fs, fs.map (·.mute) = es.map (·.mute) →
      run plan fresh fs = some c ∧ published plan fresh fs = published plan fresh es) := by
  have told := (telling_of_run ran).chapter.prefix_of
  refine ⟨told, fun quiet i l here => ?_, ?_, fun fs same => ?_⟩
  · have heard := (attuned_of_run ran).dues i l here
    rw [due_of_quiet quiet] at heard
    have once : ([.started, .stopped] : List ContainerStatus).Nodup := by decide
    exact ⟨heard, once.sublist (heard.sublist.trans told.sublist)⟩
  · rintro before now after b b' rfl first made
    have whole : run plan fresh ((before ++ [⟨now, .listen⟩]) ++ after) = some c := by
      rw [List.append_assoc]
      exact ran
    have rest : run plan b' after = some c :=
      (run_append_of_run (foldlM_concat_iff.2 ⟨b, first, made⟩)).symm.trans whole
    have attended := (attended_of_run attended_fresh first).step made
    have registered : b'.listeners[b.listeners.length]? = some ⟨[]⟩ := by
      cases made
      exact List.getElem?_concat_length
    obtain ⟨l, here, due⟩ := due_of_run attended registered rest
    refine ⟨l, here, fun quiet => ?_⟩
    rw [due_of_quiet quiet] at due
    rw [due]
    exact List.suffix_append _ _
  · obtain ⟨goes, same'⟩ := run_mute plan fresh es
    obtain ⟨goes', same''⟩ := run_mute plan fresh fs
    rw [same] at goes' same''
    exact ⟨(goes'.symm.trans goes).trans ran, same''.symm.trans same'⟩

/-- A listener that breaks off, and a start that it hears of. -/
def announced : List (ContainerEvent PoolService (PoolMove WorkerContext)) :=
  [.listen, .ask .start, .lock 0 pinger, .service 0 (.prepared 0 (.ok ())), .proceed 0, .proceed 0,
    .dispatch, .deliver true, .deliver false].map fun m => ⟨1, m⟩

/-- A stop, of which two listeners hear. -/
def farewell : List (ContainerEvent PoolService (PoolMove WorkerContext)) :=
  [.ask .stop, .lock 1 pinger, .service 0 (.proceed 2), .proceed 1, .service 0 (.proceed 3),
    .service 0 (.worker 0 (.pick 0 none)), .service 0 (.worker 0 .release),
    .service 0 (.proceed 3), .service 0 (.proceed 3), .proceed 1, .dispatch, .deliver true,
    .deliver false, .deliver false].map fun m => ⟨3, m⟩

/-- One listener from the start, one from the middle, and each hears the rest in order. -/
theorem heard_in_order_farewell :
    ∃ b b' c l, run pinging fresh announced = some b ∧ b.after? pinging ⟨2, .listen⟩ = some b' ∧
      run pinging fresh (announced ++ ⟨2, .listen⟩ :: farewell) = some c ∧ c.Quiet ∧
      published pinging fresh (announced ++ ⟨2, .listen⟩ :: farewell) = [.started, .stopped] ∧
      c.listeners.map (·.heard) = [[.started, .stopped], [.stopped]] ∧
      (∀ (i : Nat) l, c.listeners[i]? = some l → l.heard.Nodup) ∧
      c.listeners[1]? = some l ∧ published pinging b' farewell <:+ l.heard ∧
      run pinging fresh ((announced ++ ⟨2, .listen⟩ :: farewell).map (·.mute)) = some c := by
  obtain ⟨b, first⟩ : ∃ b, run pinging fresh announced = some b := ⟨_, rfl⟩
  obtain ⟨b', made⟩ : ∃ b', b.after? pinging ⟨2, .listen⟩ = some b' := ⟨_, rfl⟩
  obtain ⟨c, ran⟩ : ∃ c, run pinging fresh (announced ++ ⟨2, .listen⟩ :: farewell) = some c :=
    ⟨_, rfl⟩
  have quiet : c.Quiet := by cases ran; exact ⟨rfl, rfl⟩
  have second : b.listeners.length = 1 := by cases first; rfl
  obtain ⟨-, heard, since, mute⟩ := heard_in_order pinging ran
  obtain ⟨l, here, all⟩ := since announced 2 farewell b b' rfl first made
  rw [second] at here
  have same : ((announced ++ ⟨2, .listen⟩ :: farewell).map (·.mute)).map (·.mute) =
      (announced ++ ⟨2, .listen⟩ :: farewell).map (·.mute) := rfl
  refine ⟨b, b', c, l, first, made, ran, quiet, rfl, ?_, fun i l here => (heard quiet i l here).2,
    here, all quiet, (mute _ same).1⟩
  cases ran
  rfl

end Container

end LoadHarness
