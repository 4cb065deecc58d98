import Mathlib.Data.Nat.Notation
import Mathlib.Logic.Relation
import Mathlib.Tactic.ByContra

/-! # Reaching a goal in a finitely branching graph

A graph is given by the list of successors of each node. A bounded search finds
paths to a goal; a set of nodes that is closed under successors and avoids the
goal has none.
-/
namespace Graph

section Reach
variable {α : Type*} (next : α → List α) (goal : α → Bool)

/-- Some path from the node leads to a goal. -/
def Reaches (a : α) : Prop := ∃ b, Relation.ReflTransGen (fun x y => y ∈ next x) a b ∧ goal b

/-- Depth-first search for a goal, to a bounded depth. -/
def search : ℕ → α → Bool
  | 0, a => goal a
  | n + 1, a => goal a || (next a).any (search n)

variable {next goal}

theorem Reaches.step {a b : α} (hmem : b ∈ next a) (h : Reaches next goal b) :
    Reaches next goal a := by
  rcases h with ⟨c, hpath, hc⟩
  exact ⟨c, hpath.head hmem, hc⟩

theorem reaches_of_search (n : ℕ) {a : α} (h : search next goal n a = true) :
    Reaches next goal a := by
  induction n generalizing a with
  | zero => exact ⟨a, .refl, h⟩
  | succ n ih =>
    simp only [search, Bool.or_eq_true, List.any_eq_true] at h
    rcases h with hgoal | ⟨b, hmem, hb⟩
    · exact ⟨a, .refl, hgoal⟩
    · exact (ih hb).step hmem

/-- A node of a closed set that avoids the goal reaches none. -/
theorem not_reaches_of_closed {avoid : α → Prop} (hgoal : ∀ a, avoid a → goal a = false)
    (hnext : ∀ a, avoid a → ∀ b ∈ next a, avoid b) {a : α} (ha : avoid a) :
    ¬ Reaches next goal a := by
  rintro ⟨b, hpath, hb⟩
  have hav : avoid b := by
    clear hb
    induction hpath with
    | refl => exact ha
    | tail _ hmem ih => exact hnext _ ih _ hmem
  rw [hgoal b hav] at hb
  cases hb

/-- Searching is exact at a depth where failure is inherited by successors. -/
theorem search_eq_true_iff (n : ℕ)
    (hclosed : ∀ a, search next goal n a = false → ∀ b ∈ next a, search next goal n b = false)
    (a : α) : search next goal n a = true ↔ Reaches next goal a := by
  refine ⟨reaches_of_search n, fun h => ?_⟩
  by_contra hn
  have hgoal : ∀ b, search next goal n b = false → goal b = false := by
    intro b hb
    cases n with
    | zero => exact hb
    | succ n =>
      simp only [search, Bool.or_eq_false_iff] at hb
      exact hb.1
  exact not_reaches_of_closed hgoal hclosed (Bool.eq_false_iff.mpr hn) h

end Reach
end Graph
