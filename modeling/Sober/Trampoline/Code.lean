import Sober.Trampoline.Registry

/-! # Generation of trampoline code

One anonymous mapping holds the exit stub and two instruction words for each
entry. Words are encoded into a temporary vector and copied from there. An
access outside the mapping is an outcome of its own: the code does not exclude
it by construction.
-/
namespace Sober
open Machine

inductive OaknutException where
  | immOutOfRange
  deriving DecidableEq, Repr

/-- `Imm<16>` accepts a value that equals its low sixteen bits. -/
def encodeSvc (imm : BitVec 32) : Except OaknutException (BitVec 32) :=
  if imm &&& 0xFFFF = imm then .ok (0xD4000001 ||| imm <<< 5) else .error .immOutOfRange

def encodeRet : BitVec 32 := 0xD65F0000 ||| 30 <<< 5

def encodeYield : BitVec 32 := 0xD503203F

def trampolineCodeSize : ℕ := 4 * 2 * 8192

def trampolineCodeWords : ℕ := trampolineCodeSize / 4

/-- A successful `mmap`: a non-null range inside the address space. -/
structure Mapping where
  base : Word
  nonnull : base ≠ 0
  fits : base.toNat + trampolineCodeSize ≤ 2 ^ 64

/-- The code pointer: not set, the value of a failed `mmap`, or a mapping. -/
inductive TrampolineCode where
  | null
  | mapFailed
  | mapped (mapping : Mapping) (words : Fin trampolineCodeWords → BitVec 32)

/-- `&base[index]` for a pointer to instruction words. -/
def wordAddress (base : Word) (index : ℕ) : Word := base + BitVec.ofNat 64 (4 * index)

/-- A write through the code pointer, if it stays inside the mapping. -/
def storeWord (words : Fin trampolineCodeWords → BitVec 32) (index : ℕ) (w : BitVec 32) :
    Option (Fin trampolineCodeWords → BitVec 32) :=
  if h : index < trampolineCodeWords then some (Function.update words ⟨index, h⟩ w) else none

def loadWord (words : Fin trampolineCodeWords → BitVec 32) (index : ℕ) : Option (BitVec 32) :=
  if h : index < trampolineCodeWords then some (words ⟨index, h⟩) else none

structure TrampolineState where
  trampolines : List Trampoline
  trampolineCode : TrampolineCode
  trampolineCodeIndex : ℕ
  tempCodeGenBuf : List (BitVec 32)
  guestExitTrampoline : Word

def TrampolineState.initial : TrampolineState where
  trampolines := []
  trampolineCode := .null
  trampolineCodeIndex := 0
  tempCodeGenBuf := []
  guestExitTrampoline := 0

/-- `mapping` is the result of `mmap`, `none` for `MAP_FAILED`; a fresh
anonymous mapping reads as zero. The integer is the returned status. -/
def trampolineInit (mapping : Option Mapping) (s : TrampolineState) :
    Option (ℤ × TrampolineState) :=
  match mapping with
  | none => some (-1, { s with trampolineCode := .mapFailed })
  | some m =>
    let buf := s.tempCodeGenBuf ++ [encodeYield]
    match storeWord (fun _ => 0) s.trampolineCodeIndex (buf.getD 0 0) with
    | none => none
    | some words =>
      some (0, { s with
        trampolineCode := .mapped m words
        trampolineCodeIndex := s.trampolineCodeIndex + 1
        tempCodeGenBuf := []
        guestExitTrampoline := wordAddress m.base s.trampolineCodeIndex })

structure CreateArgs where
  name : String
  nativeFunc : Word
  types : FunctionTypes
  isEllipsisFunction : Bool
  hasExecutionSideEffects : Bool

inductive CreateException where
  | notAllocated
  | exhausted
  | oaknut (e : OaknutException)
  deriving DecidableEq, Repr

inductive CreateOutcome where
  | returned (s : TrampolineState)
  | threw (e : CreateException) (s : TrampolineState)
  | outOfBounds

/-- The entry appended to the registry; its code address is set afterwards. -/
def CreateArgs.trampoline (c : CreateArgs) (id : BitVec 16) (guestTrampoline : Word) :
    Trampoline where
  name := c.name
  id := id.setWidth 32
  nativeFunc := c.nativeFunc
  types := c.types
  isEllipsisFunction := c.isEllipsisFunction
  hasExecutionSideEffects := c.hasExecutionSideEffects
  guestTrampoline := guestTrampoline

/-- Encode and copy the two words of an entry. The registry has been extended
before the encoder can reject the immediate. -/
def emitTrampoline (c : CreateArgs) (m : Mapping) (words : Fin trampolineCodeWords → BitVec 32)
    (s : TrampolineState) : CreateOutcome :=
  let id := BitVec.ofNat 16 s.trampolines.length
  let addr := wordAddress m.base s.trampolineCodeIndex
  match encodeSvc (id.setWidth 32 + trampolineIdOffset) with
  | .error e => .threw (.oaknut e) { s with trampolines := s.trampolines ++ [c.trampoline id 0] }
  | .ok svc =>
    let buf := s.tempCodeGenBuf ++ [svc, encodeRet]
    match storeWord words s.trampolineCodeIndex (buf.getD 0 0) with
    | none => .outOfBounds
    | some words =>
      match storeWord words (s.trampolineCodeIndex + 1) (buf.getD 1 0) with
      | none => .outOfBounds
      | some words =>
        .returned { s with
          trampolines := s.trampolines ++ [c.trampoline id addr]
          trampolineCode := .mapped m words
          trampolineCodeIndex := s.trampolineCodeIndex + 1 + 1
          tempCodeGenBuf := [] }

/-- The guard adds the word two places ahead, not its index, to the code
pointer, and compares with the byte size taken as a number of words. -/
def trampolineCreate (c : CreateArgs) (s : TrampolineState) : CreateOutcome :=
  match s.trampolineCode with
  | .null => .threw .notAllocated s
  | .mapFailed => .outOfBounds
  | .mapped m words =>
    match loadWord words (s.trampolineCodeIndex + 2) with
    | none => .outOfBounds
    | some w =>
      if m.base.toNat + 4 * w.toNat ≥ m.base.toNat + 4 * trampolineCodeSize then
        .threw .exhausted s
      else emitTrampoline c m words s

end Sober
