import Sober.FunctionTraits

/-! # The trampoline registry

Every function the guest may call has an entry. The guest reaches entry `i` by
the supervisor call whose immediate is `i` plus the offset. One lookup checks
its range, the other indexes the vector as it is.
-/
namespace Sober
open Machine

def trampolineIdOffset : BitVec 32 := 0x10

structure Trampoline where
  name : String
  id : BitVec 32
  /-- Address of the host function; zero is the null pointer. -/
  nativeFunc : Word
  types : FunctionTypes
  isEllipsisFunction : Bool
  hasExecutionSideEffects : Bool
  guestTrampoline : Word

/-- The entry an identifier names; `none` stands for an access outside the vector. -/
def trampolineGetById (trampolines : List Trampoline) (id : BitVec 32) : Option Trampoline :=
  trampolines[(id - trampolineIdOffset).toNat]?

/-- The checked lookup; `none` is the null pointer it returns. -/
def trampolineMaybeGetById (trampolines : List Trampoline) (id : BitVec 32) :
    Option Trampoline :=
  if id < trampolineIdOffset then none
  else
    let computedId := id - trampolineIdOffset
    if computedId.toNat ≥ trampolines.length then none
    else trampolines[computedId.toNat]?

theorem sub_offset_toNat {id : BitVec 32} (h : ¬ id < trampolineIdOffset) :
    (id - trampolineIdOffset).toNat = id.toNat - 16 := by
  simp only [trampolineIdOffset] at h ⊢
  bv_omega

/-- The checked lookup finds the entry whose shifted index the identifier is. -/
theorem trampolineMaybeGetById_eq (trampolines : List Trampoline) (id : BitVec 32) :
    trampolineMaybeGetById trampolines id =
      if id.toNat < 16 then none else trampolines[id.toNat - 16]? := by
  have hlt : id < trampolineIdOffset ↔ id.toNat < 16 := by
    simp only [trampolineIdOffset]
    bv_omega
  unfold trampolineMaybeGetById
  by_cases h : id < trampolineIdOffset
  · rw [if_pos h, if_pos (hlt.mp h)]
  · rw [if_neg h, if_neg (fun h' => h (hlt.mpr h'))]
    simp only [sub_offset_toNat h]
    split_ifs with hn
    · exact (List.getElem?_eq_none hn).symm
    · rfl

/-- Where the checked lookup succeeds, the unchecked one finds the same entry. -/
theorem trampolineGetById_of_maybe {trampolines : List Trampoline} {id : BitVec 32}
    {t : Trampoline} (h : trampolineMaybeGetById trampolines id = some t) :
    trampolineGetById trampolines id = some t := by
  simp only [trampolineMaybeGetById] at h
  split_ifs at h
  exact h

end Sober
