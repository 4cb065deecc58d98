import Mathlib.Algebra.Group.Nat.Defs
import Sober.Ir.Instruction

/-!
# Operations on values

The instructions that the constant propagation pass knows, as the emitted code computes
them. The result of an addition, a subtraction or a shift comes with flags, which
pseudo-operations ask for; where the code of an operation does not set the flags itself,
`GetNZCVFromOp` tests the result.
-/

namespace Sober.Ir

inductive Shift where
  | logicalLeft | logicalRight | arithmeticRight | rotateRight
  deriving DecidableEq, Repr

inductive Commutative where
  | mul | and | eor | or
  deriving DecidableEq, Repr

inductive Extension where
  | byteToWord | halfToWord | byteToLong | halfToLong | wordToLong
  deriving DecidableEq, Repr

inductive ByteReverse where
  | half | word | dual
  deriving DecidableEq, Repr

/-- The opcodes of operations on values, `Add32` as `add .w32`, `And64` as
`commutative .and .w64`. Those that are not looked at by the pass are `other`. The size of
`GetNZCVFromOp` and `GetNZFromOp` is the type of their argument. -/
inductive DataOp (D : Type) where
  | leastSignificantWord
  | leastSignificantHalf
  | leastSignificantByte
  | mostSignificantWord
  | mostSignificantBit
  | isZero (size : Size)
  | shift (kind : Shift) (size : Size)
  | shiftMasked (kind : Shift) (size : Size)
  | add (size : Size)
  | sub (size : Size)
  | commutative (kind : Commutative) (size : Size)
  | signedDiv (size : Size)
  | unsignedDiv (size : Size)
  | not (size : Size)
  | signExtend (kind : Extension)
  | zeroExtend (kind : Extension)
  | byteReverse (kind : ByteReverse)
  | getCarryFromOp
  | getOverflowFromOp
  | getNZCVFromOp (size : Size)
  | getNZFromOp (size : Size)
  | other (op : D)
  deriving DecidableEq, Repr

section Types

inductive Ty where
  | u1 | u8 | u16 | u32 | u64 | other
  deriving DecidableEq, Repr

def Ty.width : Ty → ℕ
  | .u1 => 1
  | .u8 => 8
  | .u16 => 16
  | .u32 => 32
  | .u64 => 64
  | .other => 128

/-- The word is a value of the type, zero-extended. -/
def Ty.Fits (t : Ty) (word : Word) : Prop :=
  (word.setWidth t.width).setWidth 128 = word

def Size.ty : Size → Ty
  | .w32 => .u32
  | .w64 => .u64

def Extension.src : Extension → Ty
  | .byteToWord | .byteToLong => .u8
  | .halfToWord | .halfToLong => .u16
  | .wordToLong => .u32

def Extension.dst : Extension → Size
  | .byteToWord | .halfToWord => .w32
  | .byteToLong | .halfToLong | .wordToLong => .w64

def ByteReverse.ty : ByteReverse → Ty
  | .half => .u16
  | .word => .u32
  | .dual => .u64

namespace DataOp

variable {D : Type}

/-- The types in `opcodes.inc`. A pseudo-operation takes whatever it hangs on. -/
def operandTypes : DataOp D → List Ty
  | .leastSignificantWord | .mostSignificantWord => [.u64]
  | .leastSignificantHalf | .leastSignificantByte | .mostSignificantBit => [.u32]
  | .isZero s | .not s => [s.ty]
  | .shift _ .w32 => [.u32, .u8, .u1]
  | .shift _ .w64 => [.u64, .u8]
  | .shiftMasked _ s | .commutative _ s | .signedDiv s | .unsignedDiv s => [s.ty, s.ty]
  | .add s | .sub s => [s.ty, s.ty, .u1]
  | .signExtend e | .zeroExtend e => [e.src]
  | .byteReverse k => [k.ty]
  | .getCarryFromOp | .getOverflowFromOp | .getNZCVFromOp _ | .getNZFromOp _ | .other _ => []

def resultType : DataOp D → Option Ty
  | .leastSignificantWord | .mostSignificantWord => some .u32
  | .leastSignificantHalf => some .u16
  | .leastSignificantByte => some .u8
  | .mostSignificantBit | .isZero _ | .getCarryFromOp | .getOverflowFromOp => some .u1
  | .shift _ s | .shiftMasked _ s | .add s | .sub s | .commutative _ s | .signedDiv s
  | .unsignedDiv s | .not s => some s.ty
  | .signExtend e | .zeroExtend e => some e.dst.ty
  | .byteReverse k => some k.ty
  | .getNZCVFromOp _ | .getNZFromOp _ | .other _ => none

def isAPseudoOperation : DataOp D → Bool
  | .getCarryFromOp | .getOverflowFromOp | .getNZCVFromOp _ | .getNZFromOp _
  | .mostSignificantBit | .isZero _ => true
  | _ => false

end DataOp

end Types

section Meaning

/-- What the code of an operation leaves for its pseudo-operations. -/
structure Flags where
  carry : Bool
  overflow : Bool
  nzcv : Option Word
  deriving DecidableEq, Repr

instance : Inhabited Flags := ⟨⟨false, false, none⟩⟩

variable {n : ℕ}

/-- The status flags where `lahf` and `seto` put them. -/
def hostFlags (negative zero carry overflow : Bool) : Word :=
  (if negative then 0x8000#128 else 0) ||| (if zero then 0x4000#128 else 0) |||
    (if carry then 0x100#128 else 0) ||| (if overflow then 1#128 else 0)

def testFlags (value : BitVec n) : Word :=
  hostFlags value.msb (value == 0#n) false false

/-- `adc`. -/
def addWithCarry (a b : BitVec n) (carry : Bool) : Datum Flags :=
  let sum := a + b + (BitVec.ofBool carry).setWidth n
  let carryOut := decide (2 ^ n ≤ a.toNat + b.toNat + carry.toNat)
  let overflow := decide (sum.toInt ≠ a.toInt + b.toInt + carry.toNat)
  ⟨sum.setWidth 128, carryOut, overflow,
    some (hostFlags sum.msb (sum == 0#n) carryOut overflow)⟩

namespace Shift

def eval (a : BitVec n) (amount : ℕ) : Shift → BitVec n
  | .logicalLeft => a <<< amount
  | .logicalRight => a >>> amount
  | .arithmeticRight => a.sshiftRight amount
  | .rotateRight => a.rotateRight amount

def carryOut (a : BitVec n) (amount : ℕ) (carryIn : Bool) (kind : Shift) : Bool :=
  if amount = 0 then carryIn
  else match kind with
    | .logicalLeft => decide (amount ≤ n) && a.getLsbD (n - amount)
    | .logicalRight => a.getLsbD (amount - 1)
    | .arithmeticRight => a.getLsbD (min (amount - 1) (n - 1))
    | .rotateRight => (a.rotateRight amount).msb

end Shift

def Commutative.eval (a b : BitVec n) : Commutative → BitVec n
  | .mul => a * b
  | .and => a &&& b
  | .eor => a ^^^ b
  | .or => a ||| b

def swapBytes16 (v : BitVec 16) : BitVec 16 := v >>> 8 ||| v <<< 8

def swapBytes32 (v : BitVec 32) : BitVec 32 :=
  ((v &&& 0xff000000#32) >>> 24) ||| ((v &&& 0x00ff0000#32) >>> 8) |||
    ((v &&& 0x0000ff00#32) <<< 8) ||| ((v &&& 0x000000ff#32) <<< 24)

def swapBytes64 (v : BitVec 64) : BitVec 64 :=
  ((v &&& 0xff00000000000000#64) >>> 56) ||| ((v &&& 0x00ff000000000000#64) >>> 40) |||
    ((v &&& 0x0000ff0000000000#64) >>> 24) ||| ((v &&& 0x000000ff00000000#64) >>> 8) |||
    ((v &&& 0x00000000ff000000#64) <<< 8) ||| ((v &&& 0x0000000000ff0000#64) <<< 24) |||
    ((v &&& 0x000000000000ff00#64) <<< 40) ||| ((v &&& 0x00000000000000ff#64) <<< 56)

def ofBits (value : BitVec n) : Datum Flags := .plain (value.setWidth 128)

/-- The flags of the operation that a pseudo-operation hangs on. -/
def flagsOf (vals : List (Datum Flags)) : Flags :=
  (vals[0]?.map Datum.extra).getD default

def operand (n : ℕ) (vals : List (Datum Flags)) (k : ℕ) : BitVec n :=
  (bitsOf vals k).setWidth n

def carryOperand (vals : List (Datum Flags)) : Bool := (bitsOf vals 2).getLsbD 0

variable {D : Type}

def DataOp.meaning (other : D → List Word → Datum Flags) (vals : List (Datum Flags)) :
    DataOp D → Datum Flags
  | .leastSignificantWord => ofBits ((operand 64 vals 0).setWidth 32)
  | .leastSignificantHalf => ofBits ((operand 32 vals 0).setWidth 16)
  | .leastSignificantByte => ofBits ((operand 32 vals 0).setWidth 8)
  | .mostSignificantWord =>
    ⟨((operand 64 vals 0 >>> 32).setWidth 32).setWidth 128,
      { (default : Flags) with carry := (operand 64 vals 0).getLsbD 31 }⟩
  | .mostSignificantBit => ofBits (BitVec.ofBool (operand 32 vals 0).msb)
  | .isZero s => ofBits (BitVec.ofBool (operand s.n vals 0 == 0#s.n))
  | .shift kind s =>
    let amount := (operand 8 vals 1).toNat
    ⟨(kind.eval (operand s.n vals 0) amount).setWidth 128,
      { (default : Flags) with
        carry := kind.carryOut (operand s.n vals 0) amount (carryOperand vals) }⟩
  | .shiftMasked kind s =>
    ofBits (kind.eval (operand s.n vals 0) ((operand s.n vals 1).toNat % s.n))
  | .add s => addWithCarry (operand s.n vals 0) (operand s.n vals 1) (carryOperand vals)
  | .sub s => addWithCarry (operand s.n vals 0) (~~~operand s.n vals 1) (carryOperand vals)
  | .commutative kind s => ofBits (kind.eval (operand s.n vals 0) (operand s.n vals 1))
  -- the emitted code tests for a zero divisor, and for the one quotient that overflows
  | .signedDiv s => ofBits ((operand s.n vals 0).sdiv (operand s.n vals 1))
  | .unsignedDiv s => ofBits (operand s.n vals 0 / operand s.n vals 1)
  | .not s => ofBits (~~~operand s.n vals 0)
  | .signExtend e => ofBits ((operand e.src.width vals 0).signExtend e.dst.n)
  | .zeroExtend e => ofBits ((operand e.src.width vals 0).setWidth e.dst.n)
  | .byteReverse .half => ofBits (swapBytes16 (operand 16 vals 0))
  | .byteReverse .word => ofBits (swapBytes32 (operand 32 vals 0))
  | .byteReverse .dual => ofBits (swapBytes64 (operand 64 vals 0))
  | .getCarryFromOp => ofBits (BitVec.ofBool (flagsOf vals).carry)
  | .getOverflowFromOp => ofBits (BitVec.ofBool (flagsOf vals).overflow)
  | .getNZCVFromOp s => .plain ((flagsOf vals).nzcv.getD (testFlags (operand s.n vals 0)))
  | .getNZFromOp s => .plain ((testFlags (operand s.n vals 0)) >>> 8)
  | .other op => other op (vals.map Datum.bits)

/-- What the rest of the instructions do. Only pseudo-operations look at flags. -/
structure Behaviour (D R : Type) where
  other : D → List Word → Datum Flags
  read : Opcode (DataOp D) → List Word → R → Word
  effect : Opcode (DataOp D) → List Word → R → Datum Flags × R
  call : Opcode (DataOp D) → List Word → (Slot → Word) → R → (Slot → Word) × R

def Behaviour.semantics {R : Type} (b : Behaviour D R) : Semantics (DataOp D) R Flags where
  data op vals := op.meaning b.other vals
  read op vals rest := .plain (b.read op (vals.map Datum.bits) rest)
  effect op vals rest := b.effect op (vals.map Datum.bits) rest
  call op vals file rest := b.call op (vals.map Datum.bits) file rest

end Meaning

section Congruence

variable {D R : Type} {b : Behaviour D R} {vals vals' : List (Datum Flags)}

/-- Two operations look the same to a pseudo-operation. -/
def DataOp.SameFlags (f f' : Flags) : DataOp D → Prop
  | .getCarryFromOp => f'.carry = f.carry
  | .getOverflowFromOp => f'.overflow = f.overflow
  | .getNZCVFromOp _ => f'.nzcv = f.nzcv
  | _ => True

theorem bitsOf_congr (h : vals'.map Datum.bits = vals.map Datum.bits) (k : ℕ) :
    bitsOf vals' k = bitsOf vals k := by
  simp only [bitsOf, ← List.getElem?_map, h]

theorem operand_congr (h : vals'.map Datum.bits = vals.map Datum.bits) (n k : ℕ) :
    operand n vals' k = operand n vals k := by
  rw [operand, operand, bitsOf_congr h]

theorem carryOperand_congr (h : vals'.map Datum.bits = vals.map Datum.bits) :
    carryOperand vals' = carryOperand vals := by
  rw [carryOperand, carryOperand, bitsOf_congr h]

theorem DataOp.meaning_congr {other : D → List Word → Datum Flags} {op : DataOp D}
    (h : vals'.map Datum.bits = vals.map Datum.bits)
    (hflags : op.SameFlags (flagsOf vals) (flagsOf vals')) :
    op.meaning other vals' = op.meaning other vals := by
  cases op with
  | byteReverse kind => cases kind <;> simp only [meaning, operand_congr h]
  | getCarryFromOp => simp only [meaning, show (flagsOf vals').carry = _ from hflags]
  | getOverflowFromOp => simp only [meaning, show (flagsOf vals').overflow = _ from hflags]
  | getNZCVFromOp s =>
    simp only [meaning, show (flagsOf vals').nzcv = _ from hflags, operand_congr h]
  | _ => simp only [meaning, operand_congr h, carryOperand_congr h, h]

/-- The same holds of every instruction. -/
theorem Opcode.apply_congr {op : Opcode (DataOp D)}
    (h : vals'.map Datum.bits = vals.map Datum.bits)
    (hflags : ∀ o, op = .data o → o.SameFlags (flagsOf vals) (flagsOf vals'))
    (file : Slot → Word) (rest : R) :
    op.apply b.semantics vals' file rest = op.apply b.semantics vals file rest := by
  cases op with
  | data o => simp only [apply, Behaviour.semantics, DataOp.meaning_congr h (hflags o rfl)]
  | _ => simp only [apply, Behaviour.semantics, bitsOf_congr h, h]

end Congruence

end Sober.Ir
