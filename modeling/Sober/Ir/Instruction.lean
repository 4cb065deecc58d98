import Mathlib.Data.List.Basic
import Mathlib.Logic.Function.Basic
import Sober.Ir.StatusOperation

/-!
# The recompiler's intermediate representation

A guest block is translated to a straight line of micro-instructions. Each one is named,
takes immediates and the results of other instructions, and may read or write the guest's
registers, which live in the `A64JitState`, or anything else the code can reach.
-/

namespace Sober.Ir

/-- The words of the `A64JitState` that hold registers, zero-extended. -/
abbrev Word := BitVec 128

inductive Slot where
  | reg (index : Fin 31)
  | vec (index : Fin 32)
  | sp
  | nzcv
  deriving DecidableEq, Repr

inductive TrackingType where
  | w | x | s | d | q | sp | nzcv | nzcvRaw
  deriving DecidableEq, Repr

/-- `NZCV::ToX64`: the flags as `lahf` and `seto` leave them. -/
def toX64 (nzcv : BitVec 32) : BitVec 32 :=
  ((nzcv >>> 28) * 0x1081#32) &&& 0xC101#32

def fromX64 (flags : BitVec 32) : BitVec 32 :=
  ((flags &&& 0xC101#32) * 0x10210000#32) &&& 0xF0000000#32

theorem and_armMask (nzcv : BitVec 32) : nzcv &&& 0xF0000000#32 = (nzcv >>> 28) <<< 28 := by
  have hmask : ∀ i (hi : i < 32), (0xF0000000#32)[i] = decide (28 ≤ i) := by decide
  ext i hi
  simp only [BitVec.getElem_and, BitVec.getElem_shiftLeft, BitVec.getElem_ushiftRight, hmask]
  by_cases hlow : i < 28
  · simp [hlow]
  · have hhigh : 28 + (i - 28) = i := by omega
    simp [hlow, hhigh, Nat.le_of_not_lt hlow, BitVec.getLsbD_eq_getElem hi]

theorem fromX64_toX64 (nzcv : BitVec 32) : fromX64 (toX64 nzcv) = nzcv &&& 0xF0000000#32 := by
  obtain ⟨n, hn⟩ : ∃ n : Fin 16, nzcv >>> 28 = BitVec.ofNat 32 n := by
    refine ⟨⟨nzcv.toNat / 2 ^ 28, by omega⟩, BitVec.eq_of_toNat_eq ?_⟩
    simp [BitVec.toNat_ushiftRight, Nat.shiftRight_eq_div_pow]
    omega
  rw [and_armMask, fromX64, toX64, hn]
  clear hn
  revert n
  decide

namespace TrackingType

/-- What the emitted code stores for a `Set` of this kind. -/
def store : TrackingType → Word → Word
  | .w, v | .s, v | .nzcv, v => (v.setWidth 32).setWidth 128
  | .x, v | .d, v | .sp, v => (v.setWidth 64).setWidth 128
  | .q, v => v
  | .nzcvRaw, v => (toX64 (v.setWidth 32)).setWidth 128

/-- What the emitted code gives for a `Get` of this kind. -/
def load : TrackingType → Word → Word
  | .w, word | .s, word | .nzcv, word => (word.setWidth 32).setWidth 128
  | .x, word | .d, word | .sp, word => (word.setWidth 64).setWidth 128
  | .q, word => word
  | .nzcvRaw, word => (fromX64 (word.setWidth 32)).setWidth 128

end TrackingType

inductive Cond where
  | eq | ne | cs | cc | mi | pl | vs | vc | hi | ls | ge | lt | gt | le | al | nv
  deriving DecidableEq, Repr

/-- `LoadRequiredFlagsForCondFromRax` and the conditional move after it. -/
def Cond.holds (flags : Word) : Cond → Bool :=
  let n := flags.getLsbD 15
  let z := flags.getLsbD 14
  let c := flags.getLsbD 8
  let v := flags.getLsbD 0
  fun
  | .eq => z
  | .ne => !z
  | .cs => c
  | .cc => !c
  | .mi => n
  | .pl => !n
  | .vs => v
  | .vc => !v
  | .hi => c && !z
  | .ls => !c || z
  | .ge => n == v
  | .lt => n != v
  | .gt => !z && n == v
  | .le => z || n != v
  | .al | .nv => true

inductive MemoryWidth where
  | b8 | b16 | b32 | b64 | b128
  deriving DecidableEq, Repr

/-- The opcodes of A64 blocks. A register or a condition that the source passes as an
immediate first argument is part of the opcode here. `data` are the operations on values
alone. -/
inductive Opcode (D : Type) where
  | void
  | identity
  | breakpoint
  | callHostFunction
  | pushRSB
  | a64SetCheckBit
  | a64GetCFlag
  | a64GetNZCVRaw
  | a64SetNZCVRaw
  | a64SetNZCV
  | a64GetW (reg : Fin 31)
  | a64GetX (reg : Fin 31)
  | a64GetS (vec : Fin 32)
  | a64GetD (vec : Fin 32)
  | a64GetQ (vec : Fin 32)
  | a64GetSP
  | a64GetFPCR
  | a64GetFPSR
  | a64SetW (reg : Fin 31)
  | a64SetX (reg : Fin 31)
  | a64SetS (vec : Fin 32)
  | a64SetD (vec : Fin 32)
  | a64SetQ (vec : Fin 32)
  | a64SetSP
  | a64SetFPCR
  | a64SetFPSR
  | a64SetPC
  | a64CallSupervisor
  | a64ExceptionRaised
  | a64DataCacheOperationRaised
  | a64InstructionCacheOperationRaised
  | a64DataSynchronizationBarrier
  | a64DataMemoryBarrier
  | a64InstructionSynchronizationBarrier
  | a64GetCNTFRQ
  | a64GetCNTPCT
  | a64GetCTR
  | a64GetDCZID
  | a64GetTPIDR
  | a64GetTPIDRRO
  | a64SetTPIDR
  | conditionalSelect32 (cond : Cond)
  | conditionalSelect64 (cond : Cond)
  | conditionalSelectNZCV (cond : Cond)
  | a64ClearExclusive
  | a64ReadMemory (width : MemoryWidth)
  | a64ExclusiveReadMemory (width : MemoryWidth)
  | a64WriteMemory (width : MemoryWidth)
  | a64ExclusiveWriteMemory (width : MemoryWidth)
  | data (op : D)
  | status (op : StatusOp)
  deriving DecidableEq, Repr

namespace Opcode

variable {D : Type}

section Classification

def isBarrier : Opcode D → Bool
  | .a64DataMemoryBarrier | .a64DataSynchronizationBarrier
  | .a64InstructionSynchronizationBarrier => true
  | _ => false

def isSharedMemoryWrite : Opcode D → Bool
  | .a64WriteMemory _ => true
  | _ => false

def isExclusiveMemoryRead : Opcode D → Bool
  | .a64ExclusiveReadMemory _ => true
  | _ => false

def isExclusiveMemoryWrite : Opcode D → Bool
  | .a64ExclusiveWriteMemory _ => true
  | _ => false

def isMemoryWrite (op : Opcode D) : Bool :=
  op.isSharedMemoryWrite || op.isExclusiveMemoryWrite

def readsFromCPSR : Opcode D → Bool
  | .a64GetCFlag | .a64GetNZCVRaw | .conditionalSelect32 _ | .conditionalSelect64 _
  | .conditionalSelectNZCV _ => true
  | _ => false

def writesToCPSR : Opcode D → Bool
  | .a64SetNZCVRaw | .a64SetNZCV => true
  | _ => false

def writesToSystemRegister : Opcode D → Bool
  | .a64SetTPIDR => true
  | _ => false

def readsFromCoreRegister : Opcode D → Bool
  | .a64GetW _ | .a64GetX _ | .a64GetS _ | .a64GetD _ | .a64GetQ _ | .a64GetSP => true
  | _ => false

def writesToCoreRegister : Opcode D → Bool
  | .a64SetW _ | .a64SetX _ | .a64SetS _ | .a64SetD _ | .a64SetQ _ | .a64SetSP
  | .a64SetPC => true
  | _ => false

def writesToFPCR : Opcode D → Bool
  | .a64SetFPCR => true
  | _ => false

def writesToFPSR : Opcode D → Bool
  | .a64SetFPSR => true
  | .status op => op.isListed
  | _ => false

/-- The operations with status that `writesToFPSR` misses. -/
def isUnlisted : Opcode D → Bool
  | .status op => !op.isListed
  | _ => false

def causesCPUException : Opcode D → Bool
  | .breakpoint | .a64CallSupervisor | .a64ExceptionRaised => true
  | _ => false

def altersExclusiveState : Opcode D → Bool
  | .a64ClearExclusive => true
  | op => op.isExclusiveMemoryRead || op.isExclusiveMemoryWrite

def isSetCheckBitOperation : Opcode D → Bool
  | .a64SetCheckBit => true
  | _ => false

def raisesCacheOperation : Opcode D → Bool
  | .a64DataCacheOperationRaised | .a64InstructionCacheOperationRaised => true
  | _ => false

def mayHaveSideEffects (op : Opcode D) : Bool :=
  (op matches .pushRSB) || (op matches .callHostFunction) || op.raisesCacheOperation ||
    op.isSetCheckBitOperation || op.isBarrier || op.causesCPUException ||
    op.writesToCoreRegister || op.writesToSystemRegister || op.writesToCPSR ||
    op.writesToFPCR || op.writesToFPSR || op.altersExclusiveState || op.isMemoryWrite

def gets : Opcode D → Option (Slot × TrackingType)
  | .a64GetW r => some (.reg r, .w)
  | .a64GetX r => some (.reg r, .x)
  | .a64GetS v => some (.vec v, .s)
  | .a64GetD v => some (.vec v, .d)
  | .a64GetQ v => some (.vec v, .q)
  | .a64GetSP => some (.sp, .sp)
  | .a64GetNZCVRaw => some (.nzcv, .nzcvRaw)
  | _ => none

def sets : Opcode D → Option (Slot × TrackingType)
  | .a64SetW r => some (.reg r, .w)
  | .a64SetX r => some (.reg r, .x)
  | .a64SetS v => some (.vec v, .s)
  | .a64SetD v => some (.vec v, .d)
  | .a64SetQ v => some (.vec v, .q)
  | .a64SetSP => some (.sp, .sp)
  | .a64SetNZCV => some (.nzcv, .nzcv)
  | .a64SetNZCVRaw => some (.nzcv, .nzcvRaw)
  | _ => none

/-- The instructions that leave the block for the host, which may look at every register. -/
def isCall : Opcode D → Bool
  | .breakpoint | .callHostFunction | .a64CallSupervisor | .a64ExceptionRaised => true
  | _ => false

/-- Whether an instruction that is neither a `Get` nor a `Set` makes the pass forget what
it knows of a register. -/
def forgets (op : Opcode D) : Slot → Bool
  | .nzcv => op.readsFromCPSR || op.writesToCPSR
  | _ => op.readsFromCoreRegister || op.writesToCoreRegister

end Classification

end Opcode

/-- The immediates that values of a block can be, with their type. -/
inductive Imm where
  | u1 (value : Bool)
  | u8 (value : BitVec 8)
  | u16 (value : BitVec 16)
  | u32 (value : BitVec 32)
  | u64 (value : BitVec 64)
  deriving DecidableEq, Repr

def Imm.bits : Imm → Word
  | .u1 b => (BitVec.ofBool b).setWidth 128
  | .u8 v => v.setWidth 128
  | .u16 v => v.setWidth 128
  | .u32 v => v.setWidth 128
  | .u64 v => v.setWidth 128

inductive Arg where
  | imm (value : Imm)
  | inst (name : ℕ)
  deriving DecidableEq, Repr

/-- A micro-instruction. The name stands for the address that others refer to it by. -/
structure Inst (D : Type) where
  name : ℕ
  op : Opcode D
  args : List Arg
  deriving DecidableEq, Repr

namespace Inst

variable {D : Type}

/-- `GetArg`. That an instruction has its arguments is checked when it is built. -/
def arg (inst : Inst D) (n : ℕ) : Arg :=
  inst.args.getD n (.imm (.u1 false))

def uses (inst : Inst D) (name : ℕ) : Bool :=
  inst.args.contains (.inst name)

def invalidate (inst : Inst D) : Inst D :=
  { inst with op := .void, args := [] }

def replaceUsesWith (inst : Inst D) (replacement : Arg) : Inst D :=
  { inst with op := .identity, args := [replacement] }

end Inst

/-- What an instruction produces: its value, and what the pseudo-operations that hang on it
can ask for. -/
structure Datum (E : Type) where
  bits : Word
  extra : E

def Datum.plain {E : Type} [Inhabited E] (bits : Word) : Datum E := ⟨bits, default⟩

/-- The meaning of the instructions that are not about registers. `R` is everything besides
the registers: memory, the program counter, the system and status registers. -/
structure Semantics (D R E : Type) where
  data : D → List (Datum E) → Datum E
  read : Opcode D → List (Datum E) → R → Datum E
  effect : Opcode D → List (Datum E) → R → Datum E × R
  call : Opcode D → List (Datum E) → (Slot → Word) → R → (Slot → Word) × R

structure Outcome (R E : Type) where
  result : Option (Datum E)
  file : Slot → Word
  rest : R

structure State (R E : Type) where
  env : ℕ → Datum E
  file : Slot → Word
  rest : R

section Execution

variable {D R E : Type} [Inhabited E] (sem : Semantics D R E)

def bitsOf (vals : List (Datum E)) (n : ℕ) : Word :=
  (vals[n]?.map Datum.bits).getD 0

/-- What the code emitted for an instruction does with the values of its arguments. -/
def Opcode.apply (op : Opcode D) (vals : List (Datum E)) (file : Slot → Word) (rest : R) :
    Outcome R E :=
  let load (s : Slot) (t : TrackingType) : Outcome R E :=
    ⟨some (.plain (t.load (file s))), file, rest⟩
  let store (s : Slot) (t : TrackingType) : Outcome R E :=
    ⟨none, Function.update file s (t.store (bitsOf vals 0)), rest⟩
  let select (c : Cond) : Outcome R E :=
    ⟨some (.plain (if c.holds (file .nzcv) then bitsOf vals 0 else bitsOf vals 1)), file, rest⟩
  match op with
  | .void => ⟨none, file, rest⟩
  | .identity => ⟨some (.plain (bitsOf vals 0)), file, rest⟩
  | .a64GetW r => load (.reg r) .w
  | .a64GetX r => load (.reg r) .x
  | .a64GetS v => load (.vec v) .s
  | .a64GetD v => load (.vec v) .d
  | .a64GetQ v => load (.vec v) .q
  | .a64GetSP => load .sp .sp
  | .a64GetNZCVRaw => load .nzcv .nzcvRaw
  | .a64SetW r => store (.reg r) .w
  | .a64SetX r => store (.reg r) .x
  | .a64SetS v => store (.vec v) .s
  | .a64SetD v => store (.vec v) .d
  | .a64SetQ v => store (.vec v) .q
  | .a64SetSP => store .sp .sp
  | .a64SetNZCV => store .nzcv .nzcv
  | .a64SetNZCVRaw => store .nzcv .nzcvRaw
  | .a64GetCFlag =>
    ⟨some (.plain ((BitVec.ofBool ((file .nzcv).getLsbD 8)).setWidth 128)), file, rest⟩
  | .conditionalSelect32 c | .conditionalSelect64 c | .conditionalSelectNZCV c => select c
  | .data o => ⟨some (sem.data o vals), file, rest⟩
  | .a64GetFPCR | .a64GetFPSR | .a64GetCNTFRQ | .a64GetCNTPCT | .a64GetCTR | .a64GetDCZID
  | .a64GetTPIDR | .a64GetTPIDRRO | .a64ReadMemory _ =>
    ⟨some (sem.read op vals rest), file, rest⟩
  | .breakpoint | .callHostFunction | .a64CallSupervisor | .a64ExceptionRaised =>
    let (file', rest') := sem.call op vals file rest
    ⟨none, file', rest'⟩
  | _ =>
    let (result, rest') := sem.effect op vals rest
    ⟨some result, file, rest'⟩

def Arg.eval (env : ℕ → Datum E) : Arg → Datum E
  | .imm value => .plain value.bits
  | .inst name => env name

def Inst.exec (inst : Inst D) (st : State R E) : State R E :=
  let out := inst.op.apply sem (inst.args.map (Arg.eval st.env)) st.file st.rest
  ⟨out.result.elim st.env (Function.update st.env inst.name), out.file, out.rest⟩

/-- Running a block from its first instruction to its last. -/
def exec (block : List (Inst D)) (st : State R E) : State R E :=
  block.foldl (fun st inst => inst.exec sem st) st

variable {sem}

@[simp] theorem exec_nil (st : State R E) : exec sem [] st = st := rfl

@[simp] theorem exec_cons (inst : Inst D) (block : List (Inst D)) (st : State R E) :
    exec sem (inst :: block) st = exec sem block (inst.exec sem st) := rfl

@[simp] theorem exec_append (block block' : List (Inst D)) (st : State R E) :
    exec sem (block ++ block') st = exec sem block' (exec sem block st) :=
  List.foldl_append

namespace Opcode

variable {op : Opcode D} {vals : List (Datum E)} {file : Slot → Word} {rest : R}

theorem apply_of_gets {s : Slot} {t : TrackingType} (h : op.gets = some (s, t)) :
    op.apply sem vals file rest = ⟨some (.plain (t.load (file s))), file, rest⟩ := by
  cases op <;> cases h <;> rfl

theorem apply_of_sets {s : Slot} {t : TrackingType} (h : op.sets = some (s, t)) :
    op.apply sem vals file rest =
      ⟨none, Function.update file s (t.store (bitsOf vals 0)), rest⟩ := by
  cases op <;> cases h <;> rfl

theorem gets_of_sets {s : Slot} {t : TrackingType} (h : op.sets = some (s, t)) :
    op.gets = none := by
  cases op <;> cases h <;> rfl

/-- An instruction without side effects changes nothing but its own result, unless it is one of
those with status. -/
theorem apply_of_pure (h : op.mayHaveSideEffects = false) (hlisted : op.isUnlisted = false) :
    (op.apply sem vals file rest).file = file ∧ (op.apply sem vals file rest).rest = rest := by
  cases op
  case status op =>
    change (op.isListed || false || false) = false at h
    simp_all [isUnlisted]
  all_goals first | exact ⟨rfl, rfl⟩ | cases h

/-- The slots that an instruction other than a call has to do with. -/
def touches (op : Opcode D) (s : Slot) : Bool :=
  match op.gets, op.sets with
  | some (s', _), _ => s = s'
  | none, some (s', _) => s = s'
  | none, none => op.forgets s

/-- An instruction that does not touch a register does the same whatever the register
holds, and leaves it as it is. -/
theorem apply_update {s : Slot} (htouches : op.touches s = false) (hcall : op.isCall = false)
    (word : Word) :
    op.apply sem vals (Function.update file s word) rest =
      { op.apply sem vals file rest with
        file := Function.update (op.apply sem vals file rest).file s word } := by
  cases hgets : op.gets with
  | some got =>
    obtain ⟨s', t⟩ := got
    have hne : s' ≠ s := fun h => by simp [touches, hgets, h] at htouches
    rw [apply_of_gets hgets, apply_of_gets hgets, Function.update_of_ne hne]
  | none =>
    cases hsets : op.sets with
    | some set =>
      obtain ⟨s', t⟩ := set
      have hne : s' ≠ s := fun h => by simp [touches, hgets, hsets, h] at htouches
      rw [apply_of_sets hsets, apply_of_sets hsets, Function.update_comm hne]
    | none =>
      have hforgets : op.forgets s = false := by simpa [touches, hgets, hsets] using htouches
      cases op <;> try first | (cases hgets; done) | (cases hsets; done) | (cases hcall; done)
      case a64GetCFlag | conditionalSelect32 | conditionalSelect64 | conditionalSelectNZCV =>
        have hne : Slot.nzcv ≠ s := fun h => by subst h; cases hforgets
        simp only [apply, Function.update_of_ne hne]
      all_goals rfl

/-- In particular it leaves what the register holds. -/
theorem apply_file {s : Slot} (htouches : op.touches s = false) (hcall : op.isCall = false) :
    (op.apply sem vals file rest).file s = file s := by
  have h : op.apply sem vals (Function.update file s (file s)) rest = _ :=
    apply_update htouches hcall (file s)
  rw [Function.update_eq_self] at h
  rw [h]
  exact Function.update_self ..

end Opcode

def State.write (st : State R E) (s : Slot) (word : Word) : State R E :=
  { st with file := Function.update st.file s word }

namespace Inst

variable {inst : Inst D} {st : State R E}

theorem exec_env {n : ℕ} (h : n ≠ inst.name) : (inst.exec sem st).env n = st.env n := by
  simp only [exec]
  cases (inst.op.apply sem (inst.args.map (Arg.eval st.env)) st.file st.rest).result with
  | none => rfl
  | some value => exact Function.update_of_ne h ..

theorem eval_exec {arg : Arg} (h : arg ≠ .inst inst.name) :
    arg.eval (inst.exec sem st).env = arg.eval st.env := by
  cases arg with
  | imm i => rfl
  | inst n => exact exec_env fun hn => h (congrArg _ hn)

theorem exec_write {s : Slot} (htouches : inst.op.touches s = false)
    (hcall : inst.op.isCall = false) (word : Word) :
    inst.exec sem (st.write s word) = (inst.exec sem st).write s word := by
  simp only [exec, State.write, Opcode.apply_update htouches hcall]

theorem exec_file {s : Slot} (htouches : inst.op.touches s = false)
    (hcall : inst.op.isCall = false) : (inst.exec sem st).file s = st.file s :=
  Opcode.apply_file htouches hcall

theorem bitsOf_eval (env : ℕ → Datum E) (n : ℕ) :
    bitsOf (inst.args.map (Arg.eval env)) n = ((inst.arg n).eval env).bits := by
  simp only [bitsOf, arg, List.getElem?_map, List.getD_eq_getElem?_getD]
  cases inst.args[n]? <;> rfl

theorem exec_of_gets {s : Slot} {t : TrackingType} (h : inst.op.gets = some (s, t)) :
    inst.exec sem st =
      { st with env := Function.update st.env inst.name (.plain (t.load (st.file s))) } := by
  simp only [exec, Opcode.apply_of_gets h, Option.elim]

theorem exec_of_sets {s : Slot} {t : TrackingType} (h : inst.op.sets = some (s, t)) :
    inst.exec sem st = st.write s (t.store ((inst.arg 0).eval st.env).bits) := by
  simp only [exec, Opcode.apply_of_sets h, Option.elim, State.write, bitsOf_eval]

theorem exec_replaceUsesWith (replacement : Arg) :
    (inst.replaceUsesWith replacement).exec sem st =
      { st with env := Function.update st.env inst.name (.plain (replacement.eval st.env).bits) } :=
  rfl

end Inst

theorem exec_write {block : List (Inst D)} {s : Slot}
    (htouches : ∀ inst ∈ block, inst.op.touches s = false)
    (hcall : ∀ inst ∈ block, inst.op.isCall = false) (st : State R E) (word : Word) :
    exec sem block (st.write s word) = (exec sem block st).write s word := by
  induction block generalizing st with
  | nil => rfl
  | cons inst block ih =>
    rw [List.forall_mem_cons] at htouches hcall
    rw [exec_cons, Inst.exec_write htouches.1 hcall.1, ih htouches.2 hcall.2, exec_cons]

end Execution

end Sober.Ir
