import Mathlib.Data.List.GetD

/-! # Copies between ranges of two sequences

A copy replaces a range of the destination by a range of the source, element by
element. Copies to disjoint ranges commute, and a copy is undone by the copy in
the other direction.
-/
namespace Sequence
variable {α : Type*}

/-- `dst` with the `n` elements from `d` on replaced by those of `src` from `s` on. -/
def copyRange (src : List α) (s : ℕ) (dst : List α) (d n : ℕ) : List α :=
  dst.mapIdx fun i x => if d ≤ i ∧ i < d + n then src.getD (s + (i - d)) x else x

section Copy
variable {src src' dst : List α} {s d n i j : ℕ}

@[simp] theorem length_copyRange (src : List α) (s : ℕ) (dst : List α) (d n : ℕ) :
    (copyRange src s dst d n).length = dst.length := by
  rw [copyRange, List.length_mapIdx]

theorem getElem?_copyRange_outside (h : ¬ (d ≤ i ∧ i < d + n)) :
    (copyRange src s dst d n)[i]? = dst[i]? := by
  simp only [copyRange, List.getElem?_mapIdx, if_neg h, Option.map_id']

theorem getElem?_copyRange_inside (hs : s + n ≤ src.length) (hd : d + n ≤ dst.length)
    (hj : j < n) : (copyRange src s dst d n)[d + j]? = src[s + j]? := by
  have hsrc : s + j < src.length := by omega
  have hdst : d + j < dst.length := by omega
  have hin : d ≤ d + j ∧ d + j < d + n := by omega
  simp only [copyRange, List.getElem?_mapIdx, if_pos hin, Nat.add_sub_cancel_left]
  rw [List.getElem?_eq_getElem hdst, List.getElem?_eq_getElem hsrc, Option.map_some,
    List.getD_eq_getElem _ _ hsrc]

@[simp] theorem copyRange_zero (src : List α) (s : ℕ) (dst : List α) (d : ℕ) :
    copyRange src s dst d 0 = dst := by
  apply List.ext_getElem?
  intro i
  apply getElem?_copyRange_outside
  omega

/-- Only the copied range of the source matters. -/
theorem copyRange_congr (h : ∀ j < n, src[s + j]? = src'[s + j]?) :
    copyRange src s dst d n = copyRange src' s dst d n := by
  apply List.ext_getElem?
  intro i
  simp only [copyRange, List.getElem?_mapIdx]
  by_cases hin : d ≤ i ∧ i < d + n
  · simp only [if_pos hin, List.getD_eq_getElem?_getD, h (i - d) (by omega)]
  · simp only [if_neg hin]

/-- The first element copied by itself. -/
theorem copyRange_succ (hs : s < src.length) (hd : d < dst.length) :
    copyRange src s dst d (n + 1) =
      copyRange src (s + 1) (dst.set d src[s]) (d + 1) n := by
  apply List.ext_getElem?
  intro i
  simp only [copyRange, List.getElem?_mapIdx, List.getElem?_set]
  by_cases hi : d = i
  · subst hi
    have hfirst : d ≤ d ∧ d < d + (n + 1) := by omega
    have hrest : ¬ (d + 1 ≤ d ∧ d < d + 1 + n) := by omega
    simp only [if_pos hfirst, if_neg hrest, if_pos hd, if_true, Nat.sub_self, Nat.add_zero]
    rw [List.getElem?_eq_getElem hd, Option.map_some, List.getD_eq_getElem _ _ hs]
    rfl
  · simp only [if_neg hi]
    by_cases hin : d + 1 ≤ i ∧ i < d + 1 + n
    · have hin' : d ≤ i ∧ i < d + (n + 1) := by omega
      have hoffset : s + (i - d) = s + 1 + (i - (d + 1)) := by omega
      simp only [if_pos hin, if_pos hin', hoffset]
    · have hin' : ¬ (d ≤ i ∧ i < d + (n + 1)) := by omega
      simp only [if_neg hin, if_neg hin']

/-- Copies to disjoint ranges commute. -/
theorem copyRange_comm {s' d' n' : ℕ} (h : d + n ≤ d' ∨ d' + n' ≤ d) :
    copyRange src' s' (copyRange src s dst d n) d' n' =
      copyRange src s (copyRange src' s' dst d' n') d n := by
  apply List.ext_getElem?
  intro i
  simp only [copyRange, List.getElem?_mapIdx, Option.map_map]
  congr 1
  funext x
  simp only [Function.comp]
  by_cases hin : d ≤ i ∧ i < d + n
  · have hout : ¬ (d' ≤ i ∧ i < d' + n') := by omega
    simp only [if_neg hout]
  · simp only [if_neg hin]

/-- Copying back gives the elements that were copied. -/
theorem copyRange_copyRange {buf : List α} (hs : n ≤ src.length) (hd : d + n ≤ dst.length)
    (hbuf : n ≤ buf.length) :
    (copyRange (copyRange src 0 dst d n) d buf 0 n).take n = src.take n := by
  apply List.ext_getElem?
  intro j
  by_cases hj : j < n
  · rw [List.getElem?_take_of_lt hj, List.getElem?_take_of_lt hj]
    have hback : (copyRange (copyRange src 0 dst d n) d buf 0 n)[0 + j]? =
        (copyRange src 0 dst d n)[d + j]? :=
      getElem?_copyRange_inside (by rwa [length_copyRange]) (by omega) hj
    rw [Nat.zero_add] at hback
    rw [hback, getElem?_copyRange_inside (by omega) hd hj, Nat.zero_add]
  · rw [List.getElem?_eq_none (by simp; omega), List.getElem?_eq_none (by simp; omega)]

end Copy
end Sequence
