import Sober.Machine.Memory

/-! # Stores of consecutive doublewords

An array of doublewords is written at once; its bytes come from the values and
all other bytes stay. An array that does not wrap onto itself is read back.
-/
namespace Sober.Machine

/-- The `i`-th byte of a doubleword, the lowest first. -/
def byte (w : Word) (i : ℕ) : Byte := w.extractLsb' (8 * i) 8

theorem ofBytes64_byte (w : Word) : ofBytes64 (byte w) = w := by
  simp only [ofBytes64, byte]
  rw [BitVec.extractLsb'_append_extractLsb'_eq_extractLsb' (by rfl),
    BitVec.extractLsb'_append_extractLsb'_eq_extractLsb' (by rfl),
    BitVec.extractLsb'_append_extractLsb'_eq_extractLsb' (by rfl),
    BitVec.extractLsb'_append_extractLsb'_eq_extractLsb' (by rfl),
    BitVec.extractLsb'_append_extractLsb'_eq_extractLsb' (by rfl),
    BitVec.extractLsb'_append_extractLsb'_eq_extractLsb' (by rfl),
    BitVec.extractLsb'_append_extractLsb'_eq_extractLsb' (by rfl)]
  exact BitVec.extractLsb'_eq_self

/-- The array of `n` doublewords `values 0`, `values 1`, ... stored at `base`. -/
def storeSlots (m : Memory) (base : Word) (n : ℕ) (values : ℕ → Word) : Memory := fun a =>
  let offset := (a - base).toNat
  if offset < 8 * n then byte (values (offset / 8)) (offset % 8) else m a

def write64 (m : Memory) (a value : Word) : Memory := storeSlots m a 1 (fun _ => value)

/-- Two memories agree on the `n` doublewords at `base`. -/
def AgreeOn (base : Word) (n : ℕ) (m m' : Memory) : Prop :=
  ∀ a, (a - base).toNat < 8 * n → m a = m' a

theorem AgreeOn.refl (base : Word) (n : ℕ) (m : Memory) : AgreeOn base n m m := fun _ _ => rfl

theorem toNat_offset (base : Word) {k : ℕ} (hk : k < 2 ^ 64) :
    (base + BitVec.ofNat 64 k - base).toNat = k := by
  rw [add_sub_cancel_left, BitVec.toNat_ofNat, Nat.mod_eq_of_lt hk]

theorem slot_eq (m : Memory) (base : Word) (j : ℕ) :
    slot m base j = ofBytes64 (fun i => m (base + BitVec.ofNat 64 (8 * j + i))) := by
  rw [slot, read64]
  simp only [add_ofNat_add]

theorem AgreeOn.slot_eq {base : Word} {n : ℕ} {m m' : Memory} (h : AgreeOn base n m m')
    (hn : 8 * n ≤ 2 ^ 64) {j : ℕ} (hj : j < n) : slot m base j = slot m' base j := by
  rw [Machine.slot_eq, Machine.slot_eq]
  apply ofBytes64_congr
  intro i hi
  apply h
  rw [toNat_offset base (by omega)]
  omega

theorem slot_storeSlots (m : Memory) (base : Word) {n : ℕ} (hn : 8 * n ≤ 2 ^ 64)
    (values : ℕ → Word) {j : ℕ} (hj : j < n) :
    slot (storeSlots m base n values) base j = values j := by
  rw [slot_eq, ← ofBytes64_byte (values j)]
  apply ofBytes64_congr
  intro i hi
  have hoffset := toNat_offset base (show 8 * j + i < 2 ^ 64 by omega)
  have hdiv : (8 * j + i) / 8 = j := by omega
  have hmod : (8 * j + i) % 8 = i := by omega
  simp only [storeSlots, hoffset, hdiv, hmod]
  rw [if_pos (by omega)]

theorem slot_zero (m : Memory) (a : Word) : slot m a 0 = read64 m a := by
  rw [slot]
  simp

theorem read64_write64 (m : Memory) (a value : Word) : read64 (write64 m a value) a = value := by
  rw [← slot_zero, write64, slot_storeSlots m a (by norm_num) _ (by norm_num)]

theorem AgreeOn.read64_eq {a : Word} {m m' : Memory} (h : AgreeOn a 1 m m') :
    read64 m a = read64 m' a := by
  rw [← slot_zero, ← slot_zero, h.slot_eq (by norm_num) (by norm_num)]

/-- The doublewords at the two addresses share no byte. -/
def Apart (a b : Word) : Prop := 8 ≤ (a - b).toNat ∧ 8 ≤ (b - a).toNat

instance (a b : Word) : Decidable (Apart a b) := inferInstanceAs (Decidable (_ ∧ _))

theorem Apart.symm {a b : Word} (h : Apart a b) : Apart b a := ⟨h.2, h.1⟩

theorem read64_write64_of_apart {a b : Word} (h : Apart a b) (m : Memory) (value : Word) :
    read64 (write64 m a value) b = read64 m b := by
  obtain ⟨hab, hba⟩ := h
  apply ofBytes64_congr
  intro i hi
  have hoffset : ¬ (b + BitVec.ofNat 64 i - a).toNat < 8 * 1 := by bv_omega
  simp only [write64, storeSlots]
  rw [if_neg hoffset]

/-- Every word of a list of addresses is replaced by its image, in order. -/
def updateWords (g : Word → Word) (addresses : List Word) (m : Memory) : Memory :=
  addresses.foldl (fun m a => write64 m a (g (read64 m a))) m

section UpdateWords
variable (g : Word → Word) {addresses : List Word} (m : Memory)

theorem updateWords_of_outside {x : Word} (h : ∀ a ∈ addresses, 8 ≤ (x - a).toNat) :
    updateWords g addresses m x = m x := by
  induction addresses generalizing m with
  | nil => rfl
  | cons a addresses ih =>
    rw [List.forall_mem_cons] at h
    rw [updateWords, List.foldl_cons]
    refine (ih _ h.2).trans ?_
    rw [write64, storeSlots]
    exact if_neg (by omega)

theorem read64_updateWords_of_apart {b : Word} (h : ∀ a ∈ addresses, Apart a b) :
    read64 (updateWords g addresses m) b = read64 m b := by
  induction addresses generalizing m with
  | nil => rfl
  | cons a addresses ih =>
    rw [List.forall_mem_cons] at h
    exact (ih _ h.2).trans (read64_write64_of_apart h.1 _ _)

theorem read64_updateWords (h : addresses.Pairwise Apart) {a : Word} (ha : a ∈ addresses) :
    read64 (updateWords g addresses m) a = g (read64 m a) := by
  induction addresses generalizing m with
  | nil => cases ha
  | cons b addresses ih =>
    rw [List.pairwise_cons] at h
    rcases List.mem_cons.mp ha with rfl | ha
    · refine (read64_updateWords_of_apart g _ fun c hc => (h.1 c hc).symm).trans ?_
      exact read64_write64 _ _ _
    · refine (ih _ h.2 ha).trans ?_
      rw [read64_write64_of_apart (h.1 a ha)]

end UpdateWords
end Sober.Machine
