import Mathlib

/-! # Byte-addressed memory with little-endian accesses

Addresses wrap around the 64-bit address space. Wider values are assembled
from their bytes, so two accesses agree as soon as their bytes do. A block is
a separate object of fixed size that a copy fills from a byte source.
-/
namespace Sober.Machine

abbrev Byte := BitVec 8
abbrev Word := BitVec 64
abbrev Memory := Word → Byte

/-- The little-endian doubleword formed by the bytes `b 0`, ..., `b 7`. -/
def ofBytes64 (b : ℕ → Byte) : Word :=
  b 7 ++ b 6 ++ b 5 ++ b 4 ++ b 3 ++ b 2 ++ b 1 ++ b 0

def ofBytes32 (b : ℕ → Byte) : BitVec 32 := b 3 ++ b 2 ++ b 1 ++ b 0

theorem ofBytes64_congr {b c : ℕ → Byte} (h : ∀ i < 8, b i = c i) : ofBytes64 b = ofBytes64 c := by
  simp only [ofBytes64, h 0 (by decide), h 1 (by decide), h 2 (by decide), h 3 (by decide),
    h 4 (by decide), h 5 (by decide), h 6 (by decide), h 7 (by decide)]

def read64 (m : Memory) (a : Word) : Word := ofBytes64 (fun i => m (a + BitVec.ofNat 64 i))

def read32 (m : Memory) (a : Word) : BitVec 32 := ofBytes32 (fun i => m (a + BitVec.ofNat 64 i))

/-- The `j`-th doubleword of the array that starts at `base`. -/
def slot (m : Memory) (base : Word) (j : ℕ) : Word := read64 m (base + BitVec.ofNat 64 (8 * j))

theorem add_ofNat_add (a : Word) (i j : ℕ) :
    a + BitVec.ofNat 64 i + BitVec.ofNat 64 j = a + BitVec.ofNat 64 (i + j) := by
  rw [BitVec.ofNat_add, BitVec.add_assoc]

/-- A small step of a signed offset does not wrap. -/
theorem toInt_add_ofNat {x : BitVec 32} {n : ℕ} (h : -2 ^ 30 ≤ x.toInt ∧ x.toInt ≤ 2 ^ 30)
    (hn : n ≤ 2 ^ 20) : (x + BitVec.ofNat 32 n).toInt = x.toInt + n := by
  have hx := BitVec.toInt_eq_toNat_cond x
  have hs := BitVec.toInt_eq_toNat_cond (x + BitVec.ofNat 32 n)
  rw [BitVec.toNat_add, BitVec.toNat_ofNat] at hs
  split_ifs at hx hs <;> omega

/-- A signed offset that a bias makes nonnegative. -/
theorem toNat_ofNat_add {x : BitVec 32} {n : ℕ} (h : 0 ≤ x.toInt + n) (hx : x.toInt ≤ 2 ^ 30)
    (hn : n ≤ 2 ^ 20) : ((BitVec.ofNat 32 n + x).toNat : ℤ) = x.toInt + n := by
  have hi := BitVec.toInt_eq_toNat_cond x
  rw [BitVec.toNat_add, BitVec.toNat_ofNat]
  split_ifs at hi <;> omega

theorem toNat_neg_of_toInt {x : BitVec 32} {n : ℕ} (h : x.toInt = -n) (hn : n < 2 ^ 31) :
    (-x).toNat = n := by
  have hx := BitVec.toInt_eq_toNat_cond x
  rw [BitVec.toNat_neg]
  split_ifs at hx <;> omega

/-- An offset below the top of an area is an offset from its start. -/
theorem add_signExtend (top : Word) {x : BitVec 32} {n size : ℕ} (h : x.toInt = n - size) :
    top + x.signExtend 64 = top - BitVec.ofNat 64 size + BitVec.ofNat 64 n := by
  have hx : x.signExtend 64 = BitVec.ofNat 64 n - BitVec.ofNat 64 size := by
    rw [BitVec.signExtend, h, sub_eq_add_neg, BitVec.ofInt_add, BitVec.ofInt_neg,
      BitVec.ofInt_natCast, BitVec.ofInt_natCast, sub_eq_add_neg]
  rw [hx]
  ring

/-- A byte object of fixed size, disjoint from every address. -/
abbrev Block (n : ℕ) := Fin n → Byte

/-- Fill the `len` bytes from `off` on with `src 0`, `src 1`, and so on. -/
def Block.fill {n : ℕ} (block : Block n) (off len : ℕ) (src : ℕ → Byte) : Block n := fun i =>
  if off ≤ i.val ∧ i.val < off + len then src (i.val - off) else block i

theorem Block.fill_inside {n : ℕ} (block : Block n) {off len i : ℕ} (src : ℕ → Byte)
    (hi : i < n) (hlo : off ≤ i) (hhi : i < off + len) :
    block.fill off len src ⟨i, hi⟩ = src (i - off) := by
  simp [Block.fill, hlo, hhi]

theorem Block.fill_outside {n : ℕ} (block : Block n) {off len i : ℕ} (src : ℕ → Byte)
    (hi : i < n) (h : i < off ∨ off + len ≤ i) :
    block.fill off len src ⟨i, hi⟩ = block ⟨i, hi⟩ := by
  have hn : ¬ (off ≤ i ∧ i < off + len) := by omega
  simp [Block.fill, hn]

/-- The doubleword at byte offset `off`; bytes past the end read as zero. -/
def Block.read64 {n : ℕ} (block : Block n) (off : ℕ) : Word :=
  ofBytes64 (fun i => if h : off + i < n then block ⟨off + i, h⟩ else 0)

theorem Block.read64_eq {n : ℕ} (block : Block n) {off : ℕ} {m : Memory} {a : Word}
    (hin : off + 8 ≤ n)
    (h : ∀ i (hi : i < 8), block ⟨off + i, by omega⟩ = m (a + BitVec.ofNat 64 i)) :
    block.read64 off = Machine.read64 m a := by
  apply ofBytes64_congr
  intro i hi
  rw [dif_pos (by omega), h i hi]

end Sober.Machine
