import Mathlib.Logic.Function.Basic

/-! # Cells with one holder each

Holders point to heap cells. Ownership says that what a holder points to is
allocated and that no two holders point to the same cell; it is kept by handing
a new cell to a holder, by writing a cell, by passing a pointer on, and by
freeing what a holder gives up.
-/
namespace Heap
variable {Holder Address Cell : Type*}

structure Owned (holds : Holder → Option Address) (heap : Address → Option Cell) : Prop where
  live : ∀ h p, holds h = some p → ∃ cell, heap p = some cell
  unique : ∀ h h' p, holds h = some p → holds h' = some p → h = h'

namespace Owned
variable {holds : Holder → Option Address} {heap : Address → Option Cell}
  {h h' : Holder} {p : Address}

theorem empty (heap : Address → Option Cell) : Owned (fun _ : Holder => none) heap :=
  ⟨fun _ _ hp => (nomatch hp), fun _ _ _ hp => (nomatch hp)⟩

theorem not_fresh (own : Owned holds heap) (hfree : heap p = none) : holds h ≠ some p := by
  intro hp
  obtain ⟨cell, hcell⟩ := own.live h p hp
  rw [hfree] at hcell
  cases hcell

/-- A write leaves the holders' cells allocated. -/
theorem write [DecidableEq Address] (own : Owned holds heap) (p : Address) (cell : Cell) :
    Owned holds (Function.update heap p (some cell)) := by
  constructor
  · intro h q hq
    by_cases hqp : q = p
    · subst hqp
      exact ⟨cell, Function.update_self _ _ _⟩
    · rw [Function.update_of_ne hqp]
      exact own.live h q hq
  · exact own.unique

variable [DecidableEq Holder]

/-- A holder gives up its cell, which stays allocated. -/
theorem drop (own : Owned holds heap) (h : Holder) :
    Owned (Function.update holds h none) heap := by
  have hkept : ∀ h' q, Function.update holds h none h' = some q → holds h' = some q := by
    intro h' q hq
    by_cases hh : h' = h
    · subst hh
      rw [Function.update_self] at hq
      cases hq
    · rwa [Function.update_of_ne hh] at hq
  exact ⟨fun h' q hq => own.live h' q (hkept h' q hq),
    fun h₁ h₂ q h₁q h₂q => own.unique h₁ h₂ q (hkept h₁ q h₁q) (hkept h₂ q h₂q)⟩

/-- A holder passes its pointer on to one that had none. -/
theorem pass (own : Owned holds heap) (hp : holds h = some p) (hne : h' ≠ h) :
    Owned (Function.update (Function.update holds h none) h' (some p)) heap := by
  have hother : ∀ h₁ q, h₁ ≠ h' →
      Function.update (Function.update holds h none) h' (some p) h₁ = some q →
      h₁ ≠ h ∧ holds h₁ = some q := by
    intro h₁ q hh₁ hq
    rw [Function.update_of_ne hh₁] at hq
    by_cases hh : h₁ = h
    · subst hh
      rw [Function.update_self] at hq
      cases hq
    · exact ⟨hh, by rwa [Function.update_of_ne hh] at hq⟩
  constructor
  · intro h₁ q hq
    by_cases hh₁ : h₁ = h'
    · subst hh₁
      rw [Function.update_self, Option.some.injEq] at hq
      exact hq ▸ own.live h p hp
    · exact own.live h₁ q (hother h₁ q hh₁ hq).2
  · intro h₁ h₂ q h₁q h₂q
    by_cases hh₁ : h₁ = h' <;> by_cases hh₂ : h₂ = h'
    · rw [hh₁, hh₂]
    · subst hh₁
      rw [Function.update_self] at h₁q
      obtain ⟨hne₂, h₂p⟩ := hother h₂ q hh₂ h₂q
      exact absurd (own.unique h₂ h p (h₂p.trans h₁q.symm) hp) hne₂
    · subst hh₂
      rw [Function.update_self] at h₂q
      obtain ⟨hne₁, h₁p⟩ := hother h₁ q hh₁ h₁q
      exact absurd (own.unique h₁ h p (h₁p.trans h₂q.symm) hp) hne₁
    · exact own.unique h₁ h₂ q (hother h₁ q hh₁ h₁q).2 (hother h₂ q hh₂ h₂q).2

variable [DecidableEq Address]

/-- A new cell goes to a holder that had none. -/
theorem give (own : Owned holds heap) (hfree : heap p = none) (h : Holder) (cell : Cell) :
    Owned (Function.update holds h (some p)) (Function.update heap p (some cell)) := by
  have hnot : ∀ h', holds h' ≠ some p := fun h' => own.not_fresh hfree
  constructor
  · intro h' q hq
    by_cases hh : h' = h
    · subst hh
      rw [Function.update_self, Option.some.injEq] at hq
      exact ⟨cell, by rw [← hq, Function.update_self]⟩
    · rw [Function.update_of_ne hh] at hq
      have hqp : q ≠ p := fun he => hnot h' (he ▸ hq)
      rw [Function.update_of_ne hqp]
      exact own.live h' q hq
  · intro h₁ h₂ q h₁q h₂q
    by_cases hh₁ : h₁ = h <;> by_cases hh₂ : h₂ = h
    · rw [hh₁, hh₂]
    · rw [Function.update_of_ne hh₂] at h₂q
      subst hh₁
      rw [Function.update_self] at h₁q
      exact absurd (h₂q.trans h₁q.symm) (hnot h₂)
    · rw [Function.update_of_ne hh₁] at h₁q
      subst hh₂
      rw [Function.update_self] at h₂q
      exact absurd (h₁q.trans h₂q.symm) (hnot h₁)
    · rw [Function.update_of_ne hh₁] at h₁q
      rw [Function.update_of_ne hh₂] at h₂q
      exact own.unique h₁ h₂ q h₁q h₂q

/-- A holder frees its cell. -/
theorem free (own : Owned holds heap) (hp : holds h = some p) :
    Owned (Function.update holds h none) (Function.update heap p none) := by
  constructor
  · intro h' q hq
    by_cases hh : h' = h
    · subst hh
      rw [Function.update_self] at hq
      cases hq
    · rw [Function.update_of_ne hh] at hq
      have hqp : q ≠ p := fun he => hh (own.unique h' h p (he ▸ hq) hp)
      rw [Function.update_of_ne hqp]
      exact own.live h' q hq
  · exact (own.drop h).unique

end Owned
end Heap
