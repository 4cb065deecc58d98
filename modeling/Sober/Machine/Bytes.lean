import Sober.Machine.Memory

/-! # Accesses of any number of bytes

A value in memory is the list of its bytes, the lowest address first. An access
that shares no address with a store is not changed by it.
-/
namespace Sober.Machine

def readBytes (m : Memory) (a : Word) (n : ℕ) : List Byte :=
  (List.range n).map fun i => m (a + BitVec.ofNat 64 i)

def writeBytes (m : Memory) (a : Word) (value : List Byte) : Memory := fun x =>
  if h : (x - a).toNat < value.length then value.get ⟨(x - a).toNat, h⟩ else m x

/-- The `n` bytes at `a` and the `k` bytes at `b` have no address in common. -/
def BytesApart (a : Word) (n : ℕ) (b : Word) (k : ℕ) : Prop :=
  ∀ i < n, k ≤ (a + BitVec.ofNat 64 i - b).toNat

instance (a : Word) (n : ℕ) (b : Word) (k : ℕ) : Decidable (BytesApart a n b k) :=
  inferInstanceAs (Decidable (∀ i < n, _))

structure Extent where
  start : Word
  size : ℕ

namespace Extent

def Contains (e : Extent) (x : Word) : Prop := (x - e.start).toNat < e.size

def Apart (e f : Extent) : Prop := BytesApart e.start e.size f.start f.size

instance (e : Extent) (x : Word) : Decidable (e.Contains x) := Nat.decLt _ _

instance (e f : Extent) : Decidable (e.Apart f) :=
  inferInstanceAs (Decidable (BytesApart e.start e.size f.start f.size))

theorem Apart.not_contains {e f : Extent} (h : e.Apart f) {x : Word} (hx : e.Contains x) :
    ¬ f.Contains x := by
  have hout := h _ hx
  rw [BitVec.ofNat_toNat, BitVec.setWidth_eq, add_sub_cancel] at hout
  exact Nat.not_lt.mpr hout

end Extent

variable {m : Memory} {a b : Word} {n : ℕ} {value : List Byte}

@[simp] theorem length_readBytes : (readBytes m a n).length = n := by simp [readBytes]

theorem readBytes_writeBytes (h : value.length ≤ 2 ^ 64) :
    readBytes (writeBytes m a value) a value.length = value := by
  apply List.ext_getElem
  · simp
  · intro i hi hi'
    have hoffset : (a + BitVec.ofNat 64 i - a).toNat = i := by
      rw [add_sub_cancel_left, BitVec.toNat_ofNat, Nat.mod_eq_of_lt (by omega)]
    simp only [readBytes, writeBytes, List.getElem_map, List.getElem_range, hoffset, hi',
      List.get_eq_getElem, dite_true]

theorem readBytes_writeBytes_of_apart (h : BytesApart a n b value.length) :
    readBytes (writeBytes m b value) a n = readBytes m a n := by
  apply List.map_congr_left
  intro i hi
  have hout := h i (List.mem_range.mp hi)
  rw [writeBytes, dif_neg (by omega)]

end Sober.Machine
