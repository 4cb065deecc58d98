import Mathlib.Data.Nat.Notation

/-!
# Operations with status

The floating-point and saturating instructions, whose code can set bits of the FPSR besides
giving a value. `Inst::WritesToFPSR` goes by two lists of opcodes, which leave some of them out.
-/

namespace Sober.Ir

inductive Size where
  | w32 | w64
  deriving DecidableEq, Repr

@[reducible] def Size.n : Size → ℕ
  | .w32 => 32
  | .w64 => 64

inductive HalfSize where
  | h16 | h32
  deriving DecidableEq, Repr

inductive FloatSize where
  | f16 | f32 | f64
  deriving DecidableEq, Repr

inductive ElementSize where
  | e8 | e16 | e32 | e64
  deriving DecidableEq, Repr

/-- `FPAdd32` is `fpAdd .w32`, `FPDoubleToFixedS32` is `fpToFixed .f64 true .f32` and
`FPFixedU64ToSingle` is `fpFixedTo .w32 false .w64`. The conversions from 16 bits are exact
and not among these operations. -/
inductive StatusOp where
  | signedSaturatedAdd (esize : ElementSize)
  | signedSaturatedDoublingMultiplyReturnHigh (esize : HalfSize)
  | signedSaturatedSub (esize : ElementSize)
  | unsignedSaturatedAdd (esize : ElementSize)
  | unsignedSaturatedSub (esize : ElementSize)
  | vectorSignedSaturatedAbs (esize : ElementSize)
  | vectorSignedSaturatedAccumulateUnsigned (esize : ElementSize)
  | vectorSignedSaturatedAdd (esize : ElementSize)
  | vectorSignedSaturatedDoublingMultiplyHigh (esize : HalfSize)
  | vectorSignedSaturatedDoublingMultiplyHighRounding (esize : HalfSize)
  | vectorSignedSaturatedDoublingMultiplyLong (esize : HalfSize)
  | vectorSignedSaturatedNarrowToSigned (esize : FloatSize)
  | vectorSignedSaturatedNarrowToUnsigned (esize : FloatSize)
  | vectorSignedSaturatedNeg (esize : ElementSize)
  | vectorSignedSaturatedShiftLeft (esize : ElementSize)
  | vectorSignedSaturatedShiftLeftUnsigned (esize : ElementSize)
  | vectorSignedSaturatedSub (esize : ElementSize)
  | vectorUnsignedSaturatedAccumulateSigned (esize : ElementSize)
  | vectorUnsignedSaturatedAdd (esize : ElementSize)
  | vectorUnsignedSaturatedNarrow (esize : FloatSize)
  | vectorUnsignedSaturatedShiftLeft (esize : ElementSize)
  | vectorUnsignedSaturatedSub (esize : ElementSize)
  | fpAdd (size : Size)
  | fpCompare (size : Size)
  | fpDiv (size : Size)
  | fpMax (size : Size)
  | fpMaxNumeric (size : Size)
  | fpMin (size : Size)
  | fpMinNumeric (size : Size)
  | fpMul (size : Size)
  | fpMulAdd (size : FloatSize)
  | fpMulSub (size : FloatSize)
  | fpMulX (size : Size)
  | fpRecipEstimate (size : FloatSize)
  | fpRecipExponent (size : FloatSize)
  | fpRecipStepFused (size : FloatSize)
  | fpRoundInt (size : FloatSize)
  | fpRSqrtEstimate (size : FloatSize)
  | fpRSqrtStepFused (size : FloatSize)
  | fpSqrt (size : Size)
  | fpSub (size : Size)
  | fpHalfToDouble
  | fpHalfToSingle
  | fpSingleToDouble
  | fpSingleToHalf
  | fpDoubleToHalf
  | fpDoubleToSingle
  | fpToFixed (fsize : FloatSize) (signed : Bool) (isize : FloatSize)
  | fpFixedTo (fsize : Size) (signed : Bool) (isize : Size)
  | fpVectorAdd (size : Size)
  | fpVectorDiv (size : Size)
  | fpVectorEqual (size : FloatSize)
  | fpVectorFromHalf32
  | fpVectorFromSignedFixed (size : Size)
  | fpVectorFromUnsignedFixed (size : Size)
  | fpVectorGreater (size : Size)
  | fpVectorGreaterEqual (size : Size)
  | fpVectorMax (size : Size)
  | fpVectorMaxNumeric (size : Size)
  | fpVectorMin (size : Size)
  | fpVectorMinNumeric (size : Size)
  | fpVectorMul (size : Size)
  | fpVectorMulAdd (size : FloatSize)
  | fpVectorMulX (size : Size)
  | fpVectorPairedAdd (size : Size)
  | fpVectorPairedAddLower (size : Size)
  | fpVectorRecipEstimate (size : FloatSize)
  | fpVectorRecipStepFused (size : FloatSize)
  | fpVectorRoundInt (size : FloatSize)
  | fpVectorRSqrtEstimate (size : FloatSize)
  | fpVectorRSqrtStepFused (size : FloatSize)
  | fpVectorSqrt (size : Size)
  | fpVectorSub (size : Size)
  | fpVectorToHalf32
  | fpVectorToSignedFixed (size : FloatSize)
  | fpVectorToUnsignedFixed (size : FloatSize)
  deriving DecidableEq, Repr

namespace StatusOp

def writesToFPSRCumulativeExceptionBits : StatusOp → Bool
  | .fpAdd _ | .fpCompare _ | .fpDiv _ | .fpMax _ | .fpMaxNumeric _ | .fpMin _
  | .fpMinNumeric _ | .fpMul _ | .fpMulAdd _ | .fpMulSub _ | .fpRecipEstimate _
  | .fpRecipExponent _ | .fpRecipStepFused _ | .fpRoundInt _ | .fpRSqrtEstimate _
  | .fpRSqrtStepFused _ | .fpSqrt _ | .fpSub _ | .fpHalfToDouble | .fpHalfToSingle
  | .fpSingleToDouble | .fpSingleToHalf | .fpDoubleToHalf | .fpDoubleToSingle
  | .fpToFixed _ _ .f32 | .fpToFixed _ _ .f64 | .fpFixedTo _ _ _ | .fpVectorAdd _
  | .fpVectorDiv _ | .fpVectorEqual _ | .fpVectorFromSignedFixed _
  | .fpVectorFromUnsignedFixed _ | .fpVectorGreater _ | .fpVectorGreaterEqual _
  | .fpVectorMul _ | .fpVectorMulAdd _ | .fpVectorPairedAddLower _ | .fpVectorPairedAdd _
  | .fpVectorRecipEstimate _ | .fpVectorRecipStepFused _ | .fpVectorRoundInt _
  | .fpVectorRSqrtEstimate _ | .fpVectorRSqrtStepFused _ | .fpVectorSqrt _ | .fpVectorSub _
  | .fpVectorToSignedFixed _ | .fpVectorToUnsignedFixed _ => true
  | _ => false

def writesToFPSRCumulativeSaturationBit : StatusOp → Bool
  | .signedSaturatedAdd _ | .signedSaturatedDoublingMultiplyReturnHigh _
  | .signedSaturatedSub _ | .unsignedSaturatedAdd _ | .unsignedSaturatedSub _
  | .vectorSignedSaturatedAbs _ | .vectorSignedSaturatedAccumulateUnsigned _
  | .vectorSignedSaturatedAdd _ | .vectorSignedSaturatedDoublingMultiplyHigh _
  | .vectorSignedSaturatedDoublingMultiplyHighRounding _
  | .vectorSignedSaturatedDoublingMultiplyLong _ | .vectorSignedSaturatedNarrowToSigned _
  | .vectorSignedSaturatedNarrowToUnsigned _ | .vectorSignedSaturatedNeg _
  | .vectorSignedSaturatedShiftLeft _ | .vectorSignedSaturatedShiftLeftUnsigned _
  | .vectorSignedSaturatedSub _ | .vectorUnsignedSaturatedAccumulateSigned _
  | .vectorUnsignedSaturatedAdd _ | .vectorUnsignedSaturatedNarrow _
  | .vectorUnsignedSaturatedShiftLeft _ | .vectorUnsignedSaturatedSub _ => true
  | _ => false

def isListed (op : StatusOp) : Bool :=
  op.writesToFPSRCumulativeExceptionBits || op.writesToFPSRCumulativeSaturationBit

end StatusOp

end Sober.Ir
