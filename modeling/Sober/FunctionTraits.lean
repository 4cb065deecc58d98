import Sober.Abi.Convention

/-! # Argument types recorded for native functions

A native function is described by its return type followed by its parameter
types. The dispatch code groups these types in the same way wherever it looks
at them: integers and pointers, floating point, and what it does not handle.
-/
namespace Sober
open Abi

inductive FunctionArgumentType where
  | unsupported
  | none
  | signedByte
  | signedHalfword
  | signedWord
  | signedDoubleword
  | unsignedByte
  | unsignedHalfword
  | unsignedWord
  | unsignedDoubleword
  | singlePrecisionFp
  | doublePrecisionFp
  | pointer
  | variadicList
  deriving DecidableEq, Repr

/-- How the host returns a result, as the fast call records it. -/
inductive ReturnType where
  | void
  | integer
  | float
  deriving DecidableEq, Repr

namespace FunctionArgumentType

/-- The register class of a parameter that is passed by value. -/
def kind? : FunctionArgumentType → Option Kind
  | .unsignedByte | .signedByte | .unsignedHalfword | .signedHalfword | .unsignedWord
  | .signedWord | .unsignedDoubleword | .signedDoubleword | .pointer => some .integer
  | .singlePrecisionFp | .doublePrecisionFp => some .floating
  | .none | .unsupported | .variadicList => Option.none

def returnType? : FunctionArgumentType → Option ReturnType
  | .none => some .void
  | .unsupported | .variadicList => Option.none
  | .singlePrecisionFp | .doublePrecisionFp => some .float
  | .unsignedByte | .signedByte | .unsignedHalfword | .signedHalfword | .unsignedWord
  | .signedWord | .unsignedDoubleword | .signedDoubleword | .pointer => some .integer

end FunctionArgumentType

/-- The type list of a function: its return type, then its parameters. -/
abbrev FunctionTypes := {types : List FunctionArgumentType // types ≠ []}

namespace FunctionTypes

def ret (ts : FunctionTypes) : FunctionArgumentType := ts.val.head ts.property

def params (ts : FunctionTypes) : List FunctionArgumentType := ts.val.tail

/-- A signature from its return type and its parameters. -/
def of (ret : FunctionArgumentType) (params : List FunctionArgumentType) : FunctionTypes :=
  ⟨ret :: params, by simp⟩

/-- The kinds of the parameters that are passed by value. -/
def kinds (ts : FunctionTypes) : List Kind := ts.params.filterMap FunctionArgumentType.kind?

/-- Every parameter is an integer, a pointer or floating point, and the result
can be returned. -/
def Supported (ts : FunctionTypes) : Prop :=
  (∀ t ∈ ts.params, t.kind?.isSome) ∧ ts.ret.returnType?.isSome

instance (ts : FunctionTypes) : Decidable ts.Supported :=
  inferInstanceAs (Decidable (_ ∧ _))

end FunctionTypes
end Sober
