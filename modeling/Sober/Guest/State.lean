import Sober.Abi.Convention

/-! # Guest registers held by the JIT

The register file that the JIT exposes between two blocks, with its accessors.
Index 31 of the general registers is the stack pointer. The argument view is
what the 64-bit procedure call standard lets a callee see of it.
-/
namespace Sober
open Machine Abi

structure Vec where
  lo : Word
  hi : Word
  deriving DecidableEq

structure JitState where
  reg : Fin 31 → Word
  sp : Word
  pc : Word
  cpsrNzcv : BitVec 32
  vec : Fin 32 → Vec
  guestMxcsr : BitVec 32
  asimdMxcsr : BitVec 32
  exclusiveState : BitVec 8
  fpsrExc : BitVec 32
  fpsrQc : BitVec 32
  fpcr : BitVec 32

namespace JitState

/-- `GetFpsr`: the flags that the host has gathered for the guest and those set
by hand. -/
def fpsr (j : JitState) : BitVec 32 :=
  let mxcsr := j.guestMxcsr ||| j.asimdMxcsr
  (mxcsr &&& 0x1) ||| ((mxcsr &&& 0x3C) >>> 1) ||| j.fpsrExc |||
    ((if j.fpsrQc = 0 then 0 else 1) <<< 27)

def setGuestMxcsr (j : JitState) (mxcsr : BitVec 32) : JitState := { j with guestMxcsr := mxcsr }

def fpcrMask : BitVec 32 := 0x07C89F00

def mxcsrRMode (value : BitVec 32) : BitVec 32 :=
  match ((value >>> 22) &&& 0x3).toNat with
  | 0 => 0x0
  | 1 => 0x4000
  | 2 => 0x2000
  | _ => 0x6000

def setFpcr (j : JitState) (value : BitVec 32) : JitState :=
  { j with
    fpcr := value &&& fpcrMask
    asimdMxcsr := (j.asimdMxcsr &&& 0x3D) ||| 0x1F80
    guestMxcsr := (j.guestMxcsr &&& 0x3D) ||| 0x1F80 ||| mxcsrRMode value |||
      (if value.getLsbD 24 then 0x8040 else 0) }

/-- The checked array access is never out of range for the indices in use. -/
def getRegister (j : JitState) (index : ℕ) : Word :=
  if h : index < 31 then j.reg ⟨index, h⟩ else j.sp

def setRegister (j : JitState) (index : ℕ) (value : Word) : JitState :=
  if h : index < 31 then { j with reg := Function.update j.reg ⟨index, h⟩ value }
  else { j with sp := value }

def getVector (j : JitState) (index : ℕ) : Vec := j.vec (Fin.ofNat 32 index)

def setVector (j : JitState) (index : ℕ) (value : Vec) : JitState :=
  { j with vec := Function.update j.vec (Fin.ofNat 32 index) value }

/-- Replace the low half of a vector register and keep the other half. -/
def setVectorFirst (j : JitState) (index : ℕ) (value : Word) : JitState :=
  j.setVector index { j.getVector index with lo := value }

def clearExclusiveState (j : JitState) : JitState := { j with exclusiveState := 0 }

/-- Argument registers and stack slots at a call, as AAPCS64 names them. -/
def argState (j : JitState) (m : Memory) : ArgState where
  reg
    | .integer, i => j.getRegister i
    | .floating, i => (j.getVector i).lo
  stack i := slot m j.sp i

@[simp] theorem argState_integer (j : JitState) (m : Memory) (i : ℕ) :
    (j.argState m).reg .integer i = j.getRegister i := rfl

@[simp] theorem argState_floating (j : JitState) (m : Memory) (i : ℕ) :
    (j.argState m).reg .floating i = (j.getVector i).lo := rfl

@[simp] theorem argState_stack (j : JitState) (m : Memory) (i : ℕ) :
    (j.argState m).stack i = slot m j.sp i := rfl

/-- Registers that hold their own number, vectors that hold it plus a hundred. -/
def numbered (pc : Word) : JitState where
  reg i := BitVec.ofNat 64 i
  sp := 0x1000
  pc := pc
  cpsrNzcv := 0
  vec i := ⟨BitVec.ofNat 64 (100 + i), BitVec.ofNat 64 (200 + i)⟩
  guestMxcsr := 0x1F80
  asimdMxcsr := 0x9FC0
  exclusiveState := 0
  fpsrExc := 0
  fpsrQc := 0
  fpcr := 0

end JitState
end Sober
