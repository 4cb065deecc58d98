import Sober.Context.ProcessorIds
import Sober.Machine.Bytes

/-! # Exclusive memory accesses

The guest's load- and store-exclusive instructions become host code that keeps, for
every processor id, the address and the value of the last exclusive load in the global
monitor; a store-exclusive is a compare-and-exchange against the saved value. The JIT
of the emulator is configured to leave out the monitor's lock and the invalidation of
other processors (`Unsafe_IgnoreGlobalMonitor`); both are emitted without that option.

The processors interleave between any two accesses to the monitor or to memory. A
processor id belongs to one thread at a time, so an id has one place in the code.
-/
namespace Sober
open Machine Transition

abbrev ProcessorId := Fin maxCpus

def invalidExclusiveAddress : Word := 0xDEADDEADDEADDEAD

inductive ExclusiveSize where
  | bits8
  | bits16
  | bits32
  | bits64
  | bits128
  deriving DecidableEq

def ExclusiveSize.bytes : ExclusiveSize → ℕ
  | bits8 => 1
  | bits16 => 2
  | bits32 => 4
  | bits64 => 8
  | bits128 => 16

inductive ExclusiveReadStep where
  | lock
  | markState
  | markAddress
  | readMemory
  | saveValue (value : List Byte)
  | unlock (value : List Byte)

/-- The next access of `EmitExclusiveWriteMemoryInline`; `status` is zero on success. -/
inductive ExclusiveWriteStep where
  | lock
  | testState
  | testAddress
  | testAndClear (processorIndex : ℕ)
  | clearState
  | loadExpected
  | compareExchange (expected : List Byte)
  | unlock (status : BitVec 32)

inductive ExclusivePhase where
  | outside
  | read (vaddr : Word) (size : ExclusiveSize) (next : ExclusiveReadStep)
  | write (vaddr : Word) (size : ExclusiveSize) (value : List Byte) (next : ExclusiveWriteStep)

structure ExclusiveLoad where
  vaddr : Word
  size : ExclusiveSize
  value : List Byte

/-- A store-exclusive that reported success. -/
structure ExclusiveStore where
  processor : ProcessorId
  vaddr : Word
  size : ExclusiveSize
  value : List Byte
  /-- The bytes that were in memory. -/
  replaced : List Byte
  /-- The last exclusive load of the processor that no clear and no exchange used up. -/
  load : Option ExclusiveLoad
  /-- Another store-exclusive to the loaded address succeeded after the load. -/
  overtaken : Bool
  /-- The bytes in memory were compared with the saved value. -/
  compared : Bool

structure ExclusiveProcessor where
  /-- `exclusive_state` of the JIT state. -/
  exclusiveState : Bool
  phase : ExclusivePhase
  /-- The last exclusive load, until a clear or an exchange. -/
  load : Option ExclusiveLoad
  /-- Some store-exclusive to the address of `load` succeeded since the load. -/
  overtaken : Bool

structure ExclusiveSystem where
  memory : Memory
  /-- Who holds the monitor's spin lock. -/
  lock : Option ProcessorId
  exclusiveAddresses : ProcessorId → Word
  exclusiveValues : ProcessorId → List Byte
  processors : ProcessorId → ExclusiveProcessor
  /-- Newest first. -/
  log : List ExclusiveStore

namespace ExclusiveProcessor

def initial : ExclusiveProcessor := ⟨false, .outside, none, false⟩

def goto (c : ExclusiveProcessor) (phase : ExclusivePhase) : ExclusiveProcessor := { c with phase }

def setState (c : ExclusiveProcessor) (exclusiveState : Bool) : ExclusiveProcessor :=
  { c with exclusiveState }

def setLoad (c : ExclusiveProcessor) (load : Option ExclusiveLoad) : ExclusiveProcessor :=
  { c with load, overtaken := false }

def overtake (c : ExclusiveProcessor) (vaddr : Word) : ExclusiveProcessor :=
  { c with overtaken := c.overtaken || c.load.any (fun load => load.vaddr = vaddr) }

end ExclusiveProcessor

namespace ExclusiveSystem

def initial (memory : Memory) : ExclusiveSystem where
  memory := memory
  lock := none
  exclusiveAddresses _ := invalidExclusiveAddress
  exclusiveValues _ := List.replicate 16 0
  processors _ := .initial
  log := []

def setProcessor (s : ExclusiveSystem) (p : ProcessorId) (c : ExclusiveProcessor) :
    ExclusiveSystem :=
  { s with processors := Function.update s.processors p c }

def goto (s : ExclusiveSystem) (p : ProcessorId) (phase : ExclusivePhase) : ExclusiveSystem :=
  s.setProcessor p ((s.processors p).goto phase)

def setLock (s : ExclusiveSystem) (lock : Option ProcessorId) : ExclusiveSystem := { s with lock }

def setAddress (s : ExclusiveSystem) (p : ProcessorId) (vaddr : Word) : ExclusiveSystem :=
  { s with exclusiveAddresses := Function.update s.exclusiveAddresses p vaddr }

def saveValue (s : ExclusiveSystem) (p : ProcessorId) (value : List Byte) : ExclusiveSystem :=
  let saved := value ++ (s.exclusiveValues p).drop value.length
  { s with exclusiveValues := Function.update s.exclusiveValues p saved }

/-- `EmitExclusiveLock`: spins while the lock is taken. -/
def emitExclusiveLock (ignoreGlobalMonitor : Bool) (p : ProcessorId) (next : ExclusivePhase)
    (s : ExclusiveSystem) : ExclusiveSystem :=
  if ignoreGlobalMonitor then s.goto p next
  else if s.lock = none then (s.setLock (some p)).goto p next
  else s

/-- `EmitExclusiveUnlock`, at the end of both accesses. -/
def emitExclusiveUnlock (ignoreGlobalMonitor : Bool) (p : ProcessorId) (s : ExclusiveSystem) :
    ExclusiveSystem :=
  if ignoreGlobalMonitor then s.goto p .outside else (s.setLock none).goto p .outside

def commit (s : ExclusiveSystem) (compared : Bool) (p : ProcessorId) (vaddr : Word)
    (size : ExclusiveSize) (value : List Byte) : ExclusiveSystem where
  memory := writeBytes s.memory vaddr value
  lock := s.lock
  exclusiveAddresses := s.exclusiveAddresses
  exclusiveValues := s.exclusiveValues
  processors := Function.update (fun q => (s.processors q).overtake vaddr) p
    (((s.processors p).setLoad none).goto (.write vaddr size value (.unlock 0)))
  log := ⟨p, vaddr, size, value, readBytes s.memory vaddr size.bytes, (s.processors p).load,
    (s.processors p).overtaken, compared⟩ :: s.log

def readStep (ignoreGlobalMonitor : Bool) (p : ProcessorId) (vaddr : Word) (size : ExclusiveSize)
    (s : ExclusiveSystem) : ExclusiveReadStep → ExclusiveSystem
  | .lock => s.emitExclusiveLock ignoreGlobalMonitor p (.read vaddr size .markState)
  | .markState =>
    s.setProcessor p (((s.processors p).setState true).goto (.read vaddr size .markAddress))
  | .markAddress => (s.setAddress p vaddr).goto p (.read vaddr size .readMemory)
  | .readMemory =>
    let value := readBytes s.memory vaddr size.bytes
    s.setProcessor p (((s.processors p).setLoad (some ⟨vaddr, size, value⟩)).goto
      (.read vaddr size (.saveValue value)))
  | .saveValue value => (s.saveValue p value).goto p (.read vaddr size (.unlock value))
  | .unlock _ => s.emitExclusiveUnlock ignoreGlobalMonitor p

/-- `fastmem` tells whether the exchange is the inlined one or the callback of a fastmem
fault, which for 128 bits is the stub `MemoryWriteExclusive128`. -/
def compareExchange (fastmem : Bool) (p : ProcessorId) (vaddr : Word) (size : ExclusiveSize)
    (value expected : List Byte) (s : ExclusiveSystem) : ExclusiveSystem :=
  if fastmem = false ∧ size = .bits128 then s.commit false p vaddr size value
  else if readBytes s.memory vaddr size.bytes = expected then s.commit true p vaddr size value
  else s.setProcessor p (((s.processors p).setLoad none).goto (.write vaddr size value (.unlock 1)))

def writeStep (ignoreGlobalMonitor fastmem : Bool) (p : ProcessorId) (vaddr : Word)
    (size : ExclusiveSize) (value : List Byte) (s : ExclusiveSystem) :
    ExclusiveWriteStep → ExclusiveSystem
  | .lock => s.emitExclusiveLock ignoreGlobalMonitor p (.write vaddr size value .testState)
  | .testState =>
    if (s.processors p).exclusiveState then s.goto p (.write vaddr size value .testAddress)
    else s.goto p (.write vaddr size value (.unlock 1))
  | .testAddress =>
    if s.exclusiveAddresses p ≠ vaddr then s.goto p (.write vaddr size value (.unlock 1))
    else if ignoreGlobalMonitor then s.goto p (.write vaddr size value .clearState)
    else s.goto p (.write vaddr size value (.testAndClear 0))
  | .testAndClear j =>
    if h : j < maxCpus then
      if ⟨j, h⟩ ≠ p ∧ s.exclusiveAddresses ⟨j, h⟩ = vaddr then
        (s.setAddress ⟨j, h⟩ invalidExclusiveAddress).goto p
          (.write vaddr size value (.testAndClear (j + 1)))
      else s.goto p (.write vaddr size value (.testAndClear (j + 1)))
    else s.goto p (.write vaddr size value .clearState)
  | .clearState =>
    s.setProcessor p (((s.processors p).setState false).goto
      (.write vaddr size value .loadExpected))
  | .loadExpected =>
    s.goto p (.write vaddr size value (.compareExchange ((s.exclusiveValues p).take size.bytes)))
  | .compareExchange expected => s.compareExchange fastmem p vaddr size value expected
  | .unlock _ => s.emitExclusiveUnlock ignoreGlobalMonitor p

end ExclusiveSystem

inductive ExclusiveFault where
  | misplaced

inductive ExclusiveEvent where
  | startRead (p : ProcessorId) (vaddr : Word) (size : ExclusiveSize)
  | startWrite (p : ProcessorId) (vaddr : Word) (size : ExclusiveSize) (value : List Byte)
  | advance (p : ProcessorId) (fastmem : Bool)
  /-- `CLREX`, a supervisor call, `ClearExclusiveState`, or a new JIT with this id. -/
  | clear (p : ProcessorId)
  /-- Any other store to memory. -/
  | store (vaddr : Word) (value : List Byte)

namespace ExclusiveEvent

def step (ignoreGlobalMonitor : Bool) (s : ExclusiveSystem) :
    ExclusiveEvent → Except ExclusiveFault ExclusiveSystem
  | startRead p vaddr size =>
    match (s.processors p).phase with
    | .outside => .ok (s.goto p (.read vaddr size .lock))
    | _ => .error .misplaced
  | startWrite p vaddr size value =>
    match (s.processors p).phase with
    | .outside => .ok (s.goto p (.write vaddr size value .lock))
    | _ => .error .misplaced
  | advance p fastmem =>
    match (s.processors p).phase with
    | .outside => .error .misplaced
    | .read vaddr size next => .ok (s.readStep ignoreGlobalMonitor p vaddr size next)
    | .write vaddr size value next =>
      .ok (s.writeStep ignoreGlobalMonitor fastmem p vaddr size value next)
  | clear p =>
    match (s.processors p).phase with
    | .outside => .ok (s.setProcessor p (((s.processors p).setState false).setLoad none))
    | _ => .error .misplaced
  | store vaddr value => .ok { s with memory := writeBytes s.memory vaddr value }

/-- The operands are as wide as the access, and no guest address is the marker of a slot
without one. -/
def WellFormed : ExclusiveEvent → Prop
  | startRead _ vaddr _ => vaddr ≠ invalidExclusiveAddress
  | startWrite _ vaddr size value =>
    vaddr ≠ invalidExclusiveAddress ∧ value.length = size.bytes
  | _ => True

end ExclusiveEvent
end Sober
