import Mathlib.Tactic.TypeStar

/-! # Runs of a transition system

A system takes one event at a time; a step can end in a fault. A run is a list
of events each of which the environment allows in the state it meets and none
of which faults. What one step keeps, every run keeps.
-/
namespace Transition
variable {State Event Fault : Type*}

inductive Run (step : State → Event → Except Fault State) (allowed : State → Event → Prop) :
    State → List Event → State → Prop
  | nil (s : State) : Run step allowed s [] s
  | cons {s s' s'' : State} {e : Event} {es : List Event} (hallowed : allowed s e)
      (hstep : step s e = .ok s') (hrun : Run step allowed s' es s'') :
      Run step allowed s (e :: es) s''

namespace Run
variable {step : State → Event → Except Fault State} {allowed : State → Event → Prop}
  {s s' s'' : State} {es : List Event}

/-- An invariant that every step keeps holds at the end of every run. -/
theorem invariant (h : Run step allowed s es s') {I : State → Prop}
    (hstep : ∀ s e s', I s → allowed s e → step s e = .ok s' → I s') (hI : I s) : I s' := by
  induction h with
  | nil => exact hI
  | cons ha hs _ ih => exact ih (hstep _ _ _ hI ha hs)

/-- A relation to a second system that every step keeps holds at the end of
every run, when the second system takes the same events. -/
theorem simulates (h : Run step allowed s es s') {Abstract : Type*}
    {next : Abstract → Event → Abstract} {R : State → Abstract → Prop}
    (hstep : ∀ s e s' a, R s a → allowed s e → step s e = .ok s' → R s' (next a e))
    {a : Abstract} (hR : R s a) : R s' (es.foldl next a) := by
  induction h generalizing a with
  | nil => exact hR
  | cons ha hs _ ih => exact ih (hstep _ _ _ _ hR ha hs)

theorem append (h : Run step allowed s es s') {es' : List Event}
    (h' : Run step allowed s' es' s'') : Run step allowed s (es ++ es') s'' := by
  induction h with
  | nil s => exact h'
  | cons ha hs _ ih => exact .cons ha hs (ih h')

/-- Events that the environment always allows and that do not fault make a run. -/
theorem of_foldlM (hallowed : ∀ e ∈ es, ∀ s, allowed s e) (h : es.foldlM step s = .ok s') :
    Run step allowed s es s' := by
  induction es generalizing s with
  | nil =>
    cases h
    exact .nil _
  | cons e es ih =>
    rw [List.foldlM_cons] at h
    cases hstep : step s e with
    | error fault =>
      rw [hstep] at h
      cases h
    | ok s₁ =>
      rw [hstep] at h
      rw [List.forall_mem_cons] at hallowed
      exact .cons (hallowed.1 s) hstep (ih hallowed.2 h)

theorem mono (h : Run step allowed s es s') {allowed' : State → Event → Prop}
    (hle : ∀ s e, allowed s e → allowed' s e) : Run step allowed' s es s' := by
  induction h with
  | nil s => exact .nil s
  | cons ha hs _ ih => exact .cons (hle _ _ ha) hs ih

end Run

section Fallible
variable {α β : Type*} {x : Except Fault α} {b : β}

theorem ok_of_map {f : α → β} (h : x.map f = .ok b) : ∃ a, x = .ok a ∧ f a = b := by
  cases x with
  | error fault => cases h
  | ok a => exact ⟨a, rfl, Except.ok.inj h⟩

/-- When a composite step does not fault, its first part did not. -/
theorem ok_of_bind {f : α → Except Fault β} (h : x.bind f = .ok b) :
    ∃ a, x = .ok a ∧ f a = .ok b := by
  cases x with
  | error fault => cases h
  | ok a => exact ⟨a, rfl, h⟩

end Fallible
end Transition
