import Mathlib.Data.Fin.Tuple.Basic
import Mathlib.Data.List.Perm.Subperm
import Mathlib.Data.List.Range
import Mathlib.Data.Set.Card

/-! # Tables of numbered slots

A table says which of `n` slots are in use; a new slot is the first one that is
not. The numbers that were handed out and not given back form a list without
repetitions, and the table is the indicator of that list.
-/
namespace Slots
variable {n : ℕ}

abbrev Table (n : ℕ) := Fin n → Bool

@[irreducible] def firstFree (used : Table n) : Option (Fin n) := Fin.find? (fun i => !used i)

theorem firstFree_eq_some_iff {used : Table n} {i : Fin n} :
    firstFree used = some i ↔ used i = false ∧ ∀ j < i, used j = true := by
  simp [firstFree]

theorem firstFree_eq_none_iff {used : Table n} : firstFree used = none ↔ ∀ i, used i = true := by
  simp [firstFree]

/-- The table is in step with the numbers handed out and not given back. -/
structure Records (used : Table n) (ids : List ℕ) : Prop where
  nodup : ids.Nodup
  lt : ∀ id ∈ ids, id < n
  mem_iff : ∀ i : Fin n, used i = true ↔ i.val ∈ ids

namespace Records
variable {used : Table n} {ids : List ℕ}

theorem empty : Records (fun _ : Fin n => false) [] where
  nodup := List.nodup_nil
  lt := by simp
  mem_iff := by simp

theorem take (h : Records used ids) {i : Fin n} (hi : used i = false) :
    Records (Function.update used i true) (i.val :: ids) where
  nodup := by
    rw [List.nodup_cons]
    refine ⟨fun hmem => ?_, h.nodup⟩
    rw [← h.mem_iff, hi] at hmem
    cases hmem
  lt id hid := by
    rcases List.mem_cons.mp hid with rfl | hid
    · exact i.isLt
    · exact h.lt id hid
  mem_iff j := by
    by_cases hj : j = i
    · simp [hj]
    · have hv : j.val ≠ i.val := fun e => hj (Fin.ext e)
      simp [Function.update_of_ne hj, hv, h.mem_iff]

theorem release (h : Records used ids) (i : Fin n) :
    Records (Function.update used i false) (ids.erase i.val) where
  nodup := h.nodup.erase _
  lt id hid := h.lt id (List.mem_of_mem_erase hid)
  mem_iff j := by
    by_cases hj : j = i
    · simp [hj, h.nodup.mem_erase_iff]
    · have hv : j.val ≠ i.val := fun e => hj (Fin.ext e)
      simp [Function.update_of_ne hj, hv, h.nodup.mem_erase_iff, h.mem_iff]

theorem subperm_range (h : Records used ids) : ids.Subperm (List.range n) :=
  List.subperm_of_subset h.nodup fun id hid => List.mem_range.mpr (h.lt id hid)

theorem length_le (h : Records used ids) : ids.length ≤ n := by
  simpa using h.subperm_range.length_le

/-- Every slot is in use exactly when `n` numbers are out. -/
theorem full_iff (h : Records used ids) : firstFree used = none ↔ ids.length = n := by
  rw [firstFree_eq_none_iff]
  constructor
  · intro hall
    have hsub : List.range n ⊆ ids := by
      intro id hid
      exact (h.mem_iff ⟨id, List.mem_range.mp hid⟩).mp (hall _)
    have hle : n ≤ ids.length := by
      simpa using (List.subperm_of_subset List.nodup_range hsub).length_le
    exact le_antisymm h.length_le hle
  · intro hlength i
    have hperm : ids.Perm (List.range n) :=
      h.subperm_range.perm_of_length_le (by simp [hlength])
    rw [h.mem_iff, hperm.mem_iff]
    exact List.mem_range.mpr i.isLt

/-- The slot handed out next is the least number that is not out. -/
theorem firstFree_iff (h : Records used ids) {i : Fin n} :
    firstFree used = some i ↔ i.val ∉ ids ∧ ∀ j < i.val, j ∈ ids := by
  rw [firstFree_eq_some_iff, ← h.mem_iff, Bool.not_eq_true]
  refine and_congr_right fun _ => ⟨fun hbelow j hj => ?_, fun hbelow j hj => ?_⟩
  · exact (h.mem_iff ⟨j, hj.trans i.isLt⟩).mp (hbelow _ hj)
  · exact (h.mem_iff j).mpr (hbelow j hj)

end Records

/-- Every number that is out has one owner, and nobody else has a number. -/
structure Owned {α : Type*} (held : α → Option ℕ) (ids : List ℕ) : Prop where
  mem_iff : ∀ id, id ∈ ids ↔ ∃ a, held a = some id
  inj : ∀ {a b id}, held a = some id → held b = some id → a = b

namespace Owned
variable {α : Type*} {held : α → Option ℕ} {ids : List ℕ}

theorem empty : Owned (fun _ : α => none) [] where
  mem_iff := by simp
  inj := by simp

theorem take [DecidableEq α] (h : Owned held ids) {a : α} (ha : held a = none) {id : ℕ}
    (hid : id ∉ ids) : Owned (Function.update held a (some id)) (id :: ids) where
  mem_iff id' := by
    rw [List.mem_cons, h.mem_iff]
    constructor
    · rintro (rfl | ⟨b, hb⟩)
      · exact ⟨a, Function.update_self _ _ _⟩
      · have hne : b ≠ a := by
          rintro rfl
          rw [ha] at hb
          cases hb
        exact ⟨b, (Function.update_of_ne hne _ _).trans hb⟩
    · rintro ⟨b, hb⟩
      by_cases hba : b = a
      · rw [hba, Function.update_self, Option.some.injEq] at hb
        exact .inl hb.symm
      · rw [Function.update_of_ne hba] at hb
        exact .inr ⟨b, hb⟩
  inj {b c id'} hb hc := by
    have hnew {x : α} (hx : x ≠ a) (hxid : held x = some id) : False :=
      hid ((h.mem_iff id).mpr ⟨x, hxid⟩)
    by_cases hba : b = a
    · by_cases hca : c = a
      · rw [hba, hca]
      · rw [hba, Function.update_self] at hb
        rw [Function.update_of_ne hca, ← hb] at hc
        exact (hnew hca hc).elim
    · rw [Function.update_of_ne hba] at hb
      by_cases hca : c = a
      · rw [hca, Function.update_self] at hc
        rw [← hc] at hb
        exact (hnew hba hb).elim
      · rw [Function.update_of_ne hca] at hc
        exact h.inj hb hc

theorem release [DecidableEq α] (h : Owned held ids) (hn : ids.Nodup) {a : α} {id : ℕ}
    (ha : held a = some id) : Owned (Function.update held a none) (ids.erase id) where
  mem_iff id' := by
    rw [hn.mem_erase_iff, h.mem_iff]
    constructor
    · rintro ⟨hne, b, hb⟩
      have hba : b ≠ a := by
        rintro rfl
        rw [ha, Option.some.injEq] at hb
        exact hne hb.symm
      exact ⟨b, (Function.update_of_ne hba _ _).trans hb⟩
    · rintro ⟨b, hb⟩
      by_cases hba : b = a
      · rw [hba, Function.update_self] at hb
        cases hb
      · rw [Function.update_of_ne hba] at hb
        refine ⟨?_, b, hb⟩
        rintro rfl
        exact hba (h.inj hb ha)
  inj {b c id'} hb hc := by
    by_cases hba : b = a
    · rw [hba, Function.update_self] at hb
      cases hb
    · by_cases hca : c = a
      · rw [hca, Function.update_self] at hc
        cases hc
      · rw [Function.update_of_ne hba] at hb
        rw [Function.update_of_ne hca] at hc
        exact h.inj hb hc

/-- There are at most as many numbers as owners. -/
theorem length_le (h : Owned held ids) (hn : ids.Nodup) :
    (ids.length : ℕ∞) ≤ Set.encard {a | held a ≠ none} := by
  have hlength : (ids.length : ℕ∞) = Set.encard {id | id ∈ ids} := by
    rw [← List.coe_toFinset, Set.encard_coe_eq_coe_finsetCard, List.toFinset_card_of_nodup hn]
  have hsub : {id | id ∈ ids} ⊆ (fun a => (held a).getD 0) '' {a | held a ≠ none} := by
    intro id hid
    obtain ⟨a, ha⟩ := (h.mem_iff id).mp hid
    exact ⟨a, by simp [ha], by simp [ha]⟩
  calc (ids.length : ℕ∞) = Set.encard {id | id ∈ ids} := hlength
    _ ≤ Set.encard ((fun a => (held a).getD 0) '' {a | held a ≠ none}) := Set.encard_le_encard hsub
    _ ≤ Set.encard {a | held a ≠ none} := Set.encard_image_le _ _

/-- Somebody without a number leaves room among `n`. -/
theorem length_lt (h : Owned held ids) (hn : ids.Nodup) {busy : Set α} {n : ℕ}
    (hbusy : ∀ a, held a ≠ none → a ∈ busy) (hle : busy.encard ≤ n) {a : α} (ha : a ∈ busy)
    (hnone : held a = none) : ids.length < n := by
  have hsub : insert a {a | held a ≠ none} ⊆ busy := by
    rintro b (rfl | hb)
    · exact ha
    · exact hbusy b hb
  have hcard : (ids.length : ℕ∞) + 1 ≤ n :=
    calc (ids.length : ℕ∞) + 1 ≤ Set.encard {a | held a ≠ none} + 1 := by
          gcongr
          exact h.length_le hn
      _ = Set.encard (insert a {a | held a ≠ none}) :=
          (Set.encard_insert_of_notMem (by simp [hnone])).symm
      _ ≤ busy.encard := Set.encard_le_encard hsub
      _ ≤ n := hle
  exact_mod_cast hcard

end Owned
end Slots
