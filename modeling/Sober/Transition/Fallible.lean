import Mathlib.Control.Basic

/-! # Related fallible computations

Two computations that fail with the same errors and otherwise end in related results.
-/
namespace Transition

universe u
variable {ε S T S' T' A : Type u} {R : S → T → Prop} {R' : S' → T' → Prop}

inductive Refines (R : S → T → Prop) : Except ε S → Except ε T → Prop
  | ok {s : S} {t : T} (h : R s t) : Refines R (.ok s) (.ok t)
  | error (e : ε) : Refines R (.error e) (.error e)

namespace Refines
variable {x : Except ε S} {y : Except ε T}

theorem refl (x : Except ε S) : Refines Eq x x := by
  cases x with
  | ok s => exact .ok rfl
  | error e => exact .error e

theorem bind (h : Refines R x y) {f : S → Except ε S'} {g : T → Except ε T'}
    (hfg : ∀ s t, R s t → Refines R' (f s) (g t)) : Refines R' (x >>= f) (y >>= g) := by
  cases h with
  | ok h => exact hfg _ _ h
  | error e => exact .error e

/-- The right side need not be a bind: it fails when `y` does. -/
theorem bind_left (h : Refines R x y) {f : S → Except ε S'} {z : Except ε T'}
    (herror : ∀ e, y = .error e → z = .error e)
    (hok : ∀ s t, R s t → y = .ok t → Refines R' (f s) z) : Refines R' (x >>= f) z := by
  cases h with
  | ok h => exact hok _ _ h rfl
  | error e =>
    rw [herror e rfl]
    exact .error e

/-- The same fallible choice made on both sides. -/
theorem bind_same (x : Except ε A) {f : A → Except ε S} {g : A → Except ε T}
    (hfg : ∀ a, x = .ok a → Refines R (f a) (g a)) : Refines R (x >>= f) (x >>= g) := by
  cases x with
  | ok a => exact hfg a rfl
  | error e => exact .error e

theorem map_eq (h : Refines R x y) {view : S → T} (hview : ∀ s t, R s t → view s = t) :
    x.map view = y := by
  cases h with
  | ok h => exact congrArg Except.ok (hview _ _ h)
  | error e => rfl

end Refines
end Transition
