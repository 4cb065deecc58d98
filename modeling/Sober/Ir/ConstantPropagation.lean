import Mathlib.Tactic.Common
import Sober.Ir.DataOperation

/-!
# Constant propagation

`ConstantPropagation` goes over a block once and rewrites the operations whose operands are
immediates, directly or through an `Identity` that an earlier step has left. Some operations
are combined with the operation that computes an operand.
-/

namespace Sober.Ir

namespace Imm

def ty : Imm → Ty
  | .u1 _ => .u1
  | .u8 _ => .u8
  | .u16 _ => .u16
  | .u32 _ => .u32
  | .u64 _ => .u64

def asU64 : Imm → BitVec 64
  | .u1 b => (BitVec.ofBool b).setWidth 64
  | .u8 v => v.setWidth 64
  | .u16 v => v.setWidth 64
  | .u32 v => v.setWidth 64
  | .u64 v => v

def asS64 : Imm → BitVec 64
  | .u1 b => (BitVec.ofBool b).setWidth 64
  | .u8 v => v.signExtend 64
  | .u16 v => v.signExtend 64
  | .u32 v => v.signExtend 64
  | .u64 v => v

end Imm

def Size.imm (value : BitVec 64) : Size → Imm
  | .w32 => .u32 (value.setWidth 32)
  | .w64 => .u64 value

namespace Shift

variable {n : ℕ}

/-- `Safe::LogicalShiftLeft`, `Safe::LogicalShiftRight`, `Safe::ArithmeticShiftRight` and
`rotate_right`. -/
def fold (value : BitVec n) (amount : ℕ) : Shift → BitVec n
  | .logicalLeft => if n ≤ amount then 0 else value <<< amount
  | .logicalRight => if n ≤ amount then 0 else value >>> amount
  | .arithmeticRight =>
    if n ≤ amount then (if value.msb then BitVec.allOnes n else 0) else value.sshiftRight amount
  | .rotateRight =>
    if amount % n = 0 then value
    else value >>> (amount % n) ||| value <<< (n - amount % n)

end Shift

variable {D : Type}

namespace Propagation

abbrev DataInst (D : Type) := Inst (DataOp D)

section Lookup

/-- `Value` with the `Identity` instructions before it looked through. The instructions come
last one first. -/
def resolve : List (DataInst D) → Arg → Arg
  | _, .imm value => .imm value
  | [], .inst name => .inst name
  | inst :: before, .inst name =>
    if inst.name = name then
      match inst.op with
      | .identity => resolve before (inst.arg 0)
      | _ => .inst name
    else
      resolve before (.inst name)

/-- `IsImmediate`, with the immediate. -/
def immediate (before : List (DataInst D)) (arg : Arg) : Option Imm :=
  match resolve before arg with
  | .imm value => some value
  | .inst _ => none

/-- `GetInstRecursive`, for an instruction that is an operation on values. -/
def definition (before : List (DataInst D)) (arg : Arg) : Option (DataOp D × DataInst D) :=
  match resolve before arg with
  | .imm _ => none
  | .inst name =>
    match before.find? (·.name = name) with
    | some inst =>
      match inst.op with
      | .data op => some (op, inst)
      | _ => none
    | none => none

/-- A pseudo-operation that hangs on the instruction. -/
def hangsOn (name : ℕ) (inst : DataInst D) : Bool :=
  match inst.op with
  | .data op => op.isAPseudoOperation && inst.args.head? = some (.inst name)
  | _ => false

def hasAssociatedPseudoOperation (name : ℕ) (after : List (DataInst D)) : Bool :=
  after.any (hangsOn name)

def isCarryOf (name : ℕ) (inst : DataInst D) : Bool :=
  (inst.op matches .data .getCarryFromOp) && inst.args.head? = some (.inst name)

/-- `GetAssociatedPseudoOperation(Op::GetCarryFromOp)` and `ReplaceUsesWith` on it. -/
def replaceCarry (name : ℕ) (replacement : Arg) : List (DataInst D) → List (DataInst D)
  | [] => []
  | inst :: after =>
    if isCarryOf name inst then inst.replaceUsesWith replacement :: after
    else inst :: replaceCarry name replacement after

end Lookup

variable [DecidableEq D]

section Folding

variable (before after : List (DataInst D)) (inst : DataInst D)

/-- `ReplaceUsesWith` of this file. -/
def replaceWith (size : Size) (value : BitVec 64) : DataInst D :=
  inst.replaceUsesWith (.imm (size.imm value))

/-- The operands combined with an operation of the same kind on one of them. -/
def combine (op : DataOp D) (size : Size) (immFn : BitVec 64 → BitVec 64 → BitVec 64) (imm : Imm)
    (other : Arg) : Option (DataInst D) :=
  match definition before other with
  | some (op', def') =>
    if op' = op then
      (immediate before (def'.arg 1)).map fun imm' =>
        { inst with args := [def'.arg 0, .imm (size.imm (immFn imm.asU64 imm'.asU64))] }
    else none
  | none => none

/-- `FoldCommutative`, with the value it returns. -/
def foldCommutative (op : DataOp D) (size : Size) (immFn : BitVec 64 → BitVec 64 → BitVec 64) :
    DataInst D × Bool :=
  let lhs := inst.arg 0
  let rhs := inst.arg 1
  match immediate before lhs, immediate before rhs with
  | some l, some r => (replaceWith inst size (immFn l.asU64 r.asU64), false)
  | some l, none =>
    ((combine before inst op size immFn l rhs).getD { inst with args := [rhs, lhs] }, true)
  | none, some r => ((combine before inst op size immFn r lhs).getD inst, true)
  | none, none => (inst, true)

/-- `FoldAND`, `FoldEOR`, `FoldOR` and `FoldMultiply`. -/
def foldBinary (kind : Commutative) (size : Size) : DataInst D :=
  let (folded, again) :=
    foldCommutative before inst (.commutative kind size) size fun a b => kind.eval a b
  if again then
    match immediate before (folded.arg 1) with
    | none => folded
    | some rhs =>
      match kind with
      | .and =>
        if rhs.asU64 = 0 then replaceWith folded size 0
        else if rhs.asS64 = -1 then folded.replaceUsesWith (folded.arg 0)
        else folded
      | .eor | .or =>
        if rhs.asU64 = 0 then folded.replaceUsesWith (folded.arg 0) else folded
      | .mul =>
        if rhs.asU64 = 0 then replaceWith folded size 0
        else if rhs.asU64 = 1 then folded.replaceUsesWith (folded.arg 0)
        else folded
  else
    folded

/-- The part of `FoldAdd` after the operands are in order and no pseudo-operation hangs on
the sum. -/
def foldAddOrdered (size : Size) : DataInst D :=
  let lhs := inst.arg 0
  let rhs := inst.arg 1
  let carry := inst.arg 2
  match immediate before lhs, immediate before rhs with
  | none, some r =>
    let plain :=
      if r.asU64 = 0 ∧ (immediate before carry).map Imm.asU64 = some 0 then
        inst.replaceUsesWith lhs
      else inst
    match definition before lhs with
    | some (op, def') =>
      if op = .add size then
        match immediate before (def'.arg 1), immediate before (def'.arg 2) with
        | some r', some c' =>
          let combined := r.asU64 + r'.asU64 + c'.asU64
          -- here the carry of the instruction itself is not looked at
          if combined = 0 then inst.replaceUsesWith (def'.arg 0)
          else { inst with args := [def'.arg 0, .imm (size.imm combined), carry] }
        | _, _ => plain
      else plain
    | none => plain
  | some l, some r =>
    match immediate before carry with
    | some c => replaceWith inst size (l.asU64 + r.asU64 + c.asU64)
    | none => inst
  | _, _ => inst

/-- The part of `FoldAdd` that puts an immediate second. -/
def normalizeAdd : DataInst D :=
  if (immediate before (inst.arg 0)).isSome && (immediate before (inst.arg 1)).isNone then
    { inst with args := [inst.arg 1, inst.arg 0, inst.arg 2] }
  else inst

def foldAdd (size : Size) : DataInst D :=
  if hasAssociatedPseudoOperation inst.name after then normalizeAdd before inst
  else foldAddOrdered before (normalizeAdd before inst) size

def foldSub (size : Size) : DataInst D :=
  match immediate before (inst.arg 0), immediate before (inst.arg 1),
      immediate before (inst.arg 2) with
  | some l, some r, some c =>
    if hasAssociatedPseudoOperation inst.name after then inst
    else replaceWith inst size (l.asU64 + ~~~r.asU64 + c.asU64)
  | _, _, _ => inst

/-- `FoldDivide`. The quotient of the least number and -1 does not exist in `s64`. -/
def foldDivide (size : Size) (isSigned : Bool) : Option (DataInst D) :=
  match immediate before (inst.arg 1) with
  | none => some inst
  | some r =>
    if r.asU64 = 0 then some (replaceWith inst size 0)
    else
      match immediate before (inst.arg 0) with
      | some l =>
        if isSigned then
          if l.asS64 = BitVec.intMin 64 ∧ r.asS64 = -1 then none
          else some (replaceWith inst size (l.asS64.sdiv r.asS64))
        else some (replaceWith inst size (l.asU64 / r.asU64))
      | none =>
        if r.asU64 = 1 then some (inst.replaceUsesWith (inst.arg 0)) else some inst

/-- The shift without its carry argument, which only the 32-bit ones have. -/
def dropCarryArg (size : Size) : DataInst D :=
  if size = .w32 then { inst with args := [inst.arg 0, inst.arg 1, .imm (.u1 false)] } else inst

/-- `FoldShifts` and the fold that follows it. -/
def foldShift (kind : Shift) (size : Size) : DataInst D × List (DataInst D) :=
  let hasCarry := after.any (isCarryOf inst.name)
  match immediate before (inst.arg 1) with
  | none => (if hasCarry then inst else dropCarryArg inst size, after)
  | some amount =>
    if amount.asU64 = 0 then
      (inst.replaceUsesWith (inst.arg 0), replaceCarry inst.name (inst.arg 2) after)
    else
      match immediate before (inst.arg 0) with
      | some l =>
        if hasCarry then (dropCarryArg inst size, after)
        else (inst.replaceUsesWith (.imm (match size with
          | .w32 => .u32 (kind.fold (l.asU64.setWidth 32) (amount.asU64.setWidth 8).toNat)
          | .w64 => .u64 (kind.fold l.asU64 (amount.asU64.setWidth 8).toNat))), after)
      | none => (dropCarryArg inst size, after)

def foldShiftMasked (kind : Shift) (size : Size) : DataInst D :=
  match immediate before (inst.arg 0), immediate before (inst.arg 1) with
  | some l, some r =>
    inst.replaceUsesWith (.imm (match size with
      | .w32 => .u32 (kind.fold (l.asU64.setWidth 32) (r.asU64.toNat % 32))
      | .w64 => .u64 (kind.fold l.asU64 (r.asU64.toNat % 64))))
  | _, _ => inst

def foldUnary (imm : Imm) : DataOp D → Option Imm
  | .leastSignificantWord => some (.u32 (imm.asU64.setWidth 32))
  | .leastSignificantHalf => some (.u16 (imm.asU64.setWidth 16))
  | .leastSignificantByte => some (.u8 (imm.asU64.setWidth 8))
  | .mostSignificantBit => some (.u1 (imm.asU64 >>> 31 != 0))
  | .isZero _ => some (.u1 (imm.asU64 == 0))
  | .not s => some (s.imm (~~~imm.asU64))
  | .signExtend e => some (e.dst.imm imm.asS64)
  | .zeroExtend e => some (e.dst.imm imm.asU64)
  | .byteReverse .half => some (.u16 (swapBytes16 (imm.asU64.setWidth 16)))
  | .byteReverse .word => some (.u32 (swapBytes32 (imm.asU64.setWidth 32)))
  | .byteReverse .dual => some (.u64 (swapBytes64 imm.asU64))
  | _ => none

def foldMostSignificantWord : DataInst D × List (DataInst D) :=
  match immediate before (inst.arg 0) with
  | some imm =>
    (inst.replaceUsesWith (.imm (.u32 ((imm.asU64 >>> 32).setWidth 32))),
      replaceCarry inst.name (.imm (.u1 (imm.asU64.getLsbD 31))) after)
  | none => (inst, after)

/-- One turn of the loop: the instruction as it is left, and the ones after it. -/
def fold : Option (DataInst D × List (DataInst D)) :=
  match inst.op with
  | .data op =>
    match op with
    | .mostSignificantWord => some (foldMostSignificantWord before after inst)
    | .shift kind s => some (foldShift before after inst kind s)
    | .shiftMasked kind s => some (foldShiftMasked before inst kind s, after)
    | .add s => some (foldAdd before after inst s, after)
    | .sub s => some (foldSub before after inst s, after)
    | .commutative kind s => some (foldBinary before inst kind s, after)
    | .signedDiv s => (foldDivide before inst s true).map (·, after)
    | .unsignedDiv s => (foldDivide before inst s false).map (·, after)
    | op =>
      match (immediate before (inst.arg 0)).bind (foldUnary · op) with
      | some imm => some (inst.replaceUsesWith (.imm imm), after)
      | none => some (inst, after)
  | _ => some (inst, after)

end Folding

/-- The loop, with the instructions it is done with last one first. The number of
instructions does not change. -/
def propagate : ℕ → List (DataInst D) → List (DataInst D) → Option (List (DataInst D))
  | n + 1, before, inst :: after =>
    (fold before after inst).bind fun (inst', after') => propagate n (inst' :: before) after'
  | _, before, after => some (before.reverse ++ after)

end Propagation

def constantPropagation [DecidableEq D] (block : List (Inst (DataOp D))) :
    Option (List (Inst (DataOp D))) :=
  Propagation.propagate block.length [] block

end Sober.Ir
