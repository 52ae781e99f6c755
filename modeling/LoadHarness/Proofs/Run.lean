import Mathlib.Data.List.Induction

/-!
# Runs

A run makes a system take one event after another, and ends where one of them is not possible.
-/

namespace LoadHarness

variable {α ε : Type} {step : α → ε → Option α} {a b c : α} {e : ε} {es fs : List ε}

/-- What follows a run goes on where it ends. -/
theorem foldlM_append_of_run (ran : es.foldlM step a = some b) :
    (es ++ fs).foldlM step a = fs.foldlM step b := by
  rw [List.foldlM_append, ran]
  rfl

/-- The last event of a run. -/
theorem foldlM_concat_iff :
    (es ++ [e]).foldlM step a = some c ↔ ∃ b, es.foldlM step a = some b ∧ step b e = some c := by
  rw [List.foldlM_append, Option.bind_eq_bind, Option.bind_eq_some_iff]
  simp only [List.foldlM_cons, List.foldlM_nil, Option.pure_def, Option.bind_eq_bind,
    Option.bind_fun_some]

/-- What holds at first and is kept by every event holds after all of them. -/
theorem foldlM_induction (Inv : List ε → α → Prop) (start : Inv [] a)
    (keep : ∀ {es b e c}, es.foldlM step a = some b → Inv es b → step b e = some c →
      Inv (es ++ [e]) c)
    (ran : es.foldlM step a = some b) : Inv es b := by
  induction es using List.reverseRecOn generalizing b with
  | nil => cases ran; exact start
  | append_singleton es e ih =>
    obtain ⟨mid, before, last⟩ := foldlM_concat_iff.1 ran
    exact keep before (ih before) last

/-- The same for what is kept by every event of some kind, if all are of that kind. -/
theorem foldlM_induction_of {Kind : ε → Prop} (all : ∀ e ∈ es, Kind e) (Inv : List ε → α → Prop)
    (start : Inv [] a)
    (keep : ∀ {es b e c}, es.foldlM step a = some b → Inv es b → Kind e → step b e = some c →
      Inv (es ++ [e]) c)
    (ran : es.foldlM step a = some b) : Inv es b := by
  refine foldlM_induction (fun es b => (∀ e ∈ es, Kind e) → Inv es b) (fun _ => start) ?_ ran all
  intro es b e c ran ih made all
  have before : ∀ x ∈ es, Kind x := fun x member => all x (List.mem_append_left _ member)
  have last : Kind e := all e (List.mem_append_right _ List.mem_cons_self)
  exact keep ran (ih before) last made

end LoadHarness
