import Sober.Symbols.Callers
import Sober.Transition.Run
import Mathlib.Data.Finmap

/-! # Threads and thread-specific data of the guest

Sober wraps every value that the guest stores under a key in a
`GuestRoutineWrapper` and gives the wrapper to the host's thread-specific data.
Each thread keeps a count of the wrappers it installed, and its execution context
is freed when the count reaches zero.

The host library follows POSIX: values are per thread and start empty, a key
number is given out again only after its deletion, deletion drops the values of
all threads, and a thread that exits has its values handed to the callback of
their key one at a time, each cleared before its callback runs.
-/
namespace Sober
open Machine

abbrev ThreadId := ℕ
abbrev PthreadKey := BitVec 32

def einval : BitVec 32 := 22

structure MapValue where
  guestDestructor : Word
  wrappers : List Word

inductive PthreadFault where
  /-- An event that the host does not deliver to a thread in this phase. -/
  | misplaced
  | assertionFailed
  | outOfRange
  | doubleFree
  | useAfterFree

/-- Where a thread is in its life. A running thread is inside `thread_routine`, a
destroying one inside a key's callback; both hold the wrapper they were given. -/
inductive ThreadPhase where
  | absent
  | created (wrapper : Word)
  | running (wrapper : Word)
  | exiting
  | destroying (wrapper : Word)
  | gone

/-- The thread-local execution context, and the host's values of the thread. -/
structure ThreadContext where
  phase : ThreadPhase
  refCount : Word
  initialized : Bool
  /-- How often `execution_context_free` ran on this thread. -/
  frees : ℕ
  slots : Finmap (fun _ : PthreadKey => Word)

/-- What has been asked of the store so far, as the guest sees it. -/
inductive TsdRecord where
  | created (key : PthreadKey) (destructor : Word)
  | deleted (key : PthreadKey)
  | set (t : ThreadId) (key : PthreadKey) (value : Word) (ret : BitVec 32)
  /-- The exit of a thread cleared a key, and its callback ran a guest routine. -/
  | ran (t : ThreadId) (key : PthreadKey) (routine value : Word)
  deriving DecidableEq

structure PthreadState where
  threads : ThreadId → ThreadContext
  liveKeys : PthreadKey → Bool
  heap : Word → Option GuestRoutineWrapper
  keyDestructorMap : Finmap (fun _ : PthreadKey => MapValue)
  /-- Newest first. -/
  log : List TsdRecord

namespace ThreadContext

def initial : ThreadContext := ⟨.absent, 1, false, 0, ∅⟩

def setInitialized (c : ThreadContext) : ThreadContext := { c with initialized := true }

def executionContextInit (c : ThreadContext) : Except PthreadFault ThreadContext :=
  if c.initialized then .error .assertionFailed else .ok c.setInitialized

def executionContextFree (c : ThreadContext) : ThreadContext :=
  { c with initialized := false, frees := c.frees + 1 }

def setPhase (c : ThreadContext) (phase : ThreadPhase) : ThreadContext := { c with phase }

def setSlot (c : ThreadContext) (key : PthreadKey) (p : Word) : ThreadContext :=
  { c with slots := c.slots.insert key p }

def clearSlot (c : ThreadContext) (key : PthreadKey) : ThreadContext :=
  { c with slots := c.slots.erase key }

def addRef (c : ThreadContext) : ThreadContext := { c with refCount := c.refCount + 1 }

def subRef (c : ThreadContext) : ThreadContext := { c with refCount := c.refCount - 1 }

/-- The tail of a thread's routine and of a callback. -/
def release (c : ThreadContext) : ThreadContext :=
  if c.subRef.refCount = 0 then c.subRef.executionContextFree else c.subRef

/-- The assertion of the constructor and of the destructor of a fiber. -/
def scopedExecutionFiber (c : ThreadContext) : Except PthreadFault Unit :=
  if c.initialized then .ok () else .error .assertionFailed

/-- The thread runs guest code, which may call into the store. -/
def InGuest (c : ThreadContext) : Prop :=
  match c.phase with
  | .running _ | .destroying _ => True
  | _ => False

instance (c : ThreadContext) : Decidable c.InGuest := by
  unfold InGuest
  cases c.phase <;> infer_instance

end ThreadContext

namespace PthreadState

def initial : PthreadState := ⟨fun _ => .initial, fun _ => false, fun _ => none, ∅, []⟩

def setThread (s : PthreadState) (t : ThreadId) (c : ThreadContext) : PthreadState :=
  { s with threads := Function.update s.threads t c }

def setMapped (s : PthreadState) (key : PthreadKey) (mapped : MapValue) : PthreadState :=
  { s with keyDestructorMap := s.keyDestructorMap.insert key mapped }

def setHeap (s : PthreadState) (heap : Word → Option GuestRoutineWrapper) : PthreadState :=
  { s with heap }

def newWrapper (s : PthreadState) (p : Word) (w : GuestRoutineWrapper) : PthreadState :=
  s.setHeap (Function.update s.heap p (some w))

def readWrapper (s : PthreadState) (p : Word) : Except PthreadFault GuestRoutineWrapper :=
  match s.heap p with
  | none => .error .useAfterFree
  | some w => .ok w

def deleteWrapper (s : PthreadState) (p : Word) : Except PthreadFault PthreadState :=
  match s.heap p with
  | none => .error .doubleFree
  | some _ => .ok (s.setHeap (Function.update s.heap p none))

def record (s : PthreadState) (r : TsdRecord) : PthreadState := { s with log := r :: s.log }

def pthreadGetspecific (s : PthreadState) (t : ThreadId) (key : PthreadKey) : Option Word :=
  (s.threads t).slots.lookup key

def pthreadKeyDelete (s : PthreadState) (key : PthreadKey) : BitVec 32 × PthreadState :=
  if s.liveKeys key then
    (0, { s with
      liveKeys := Function.update s.liveKeys key false
      threads := fun t => (s.threads t).clearSlot key
      log := .deleted key :: s.log })
  else (einval, s)

end PthreadState

open PthreadState ThreadContext

/-- A return code other than zero is a creation that failed; its wrapper is lost. -/
def pthreadCreateImpl (t : ThreadId) (guestRoutine arg fresh : Word) (hostRet : BitVec 32)
    (s : PthreadState) : Except PthreadFault (BitVec 32 × PthreadState) :=
  match (s.threads t).phase with
  | .absent =>
    let s := s.newWrapper fresh ⟨guestRoutine, arg⟩
    if hostRet = 0 then
      .ok (0, s.setThread t (ThreadContext.initial.setPhase (.created fresh)))
    else .ok (hostRet, s)
  | _ => .error .misplaced

/-- `thread_routine` up to the guest code. -/
def threadRoutineEnter (t : ThreadId) (s : PthreadState) : Except PthreadFault PthreadState :=
  match (s.threads t).phase with
  | .created wrapper => do
    let c ← (s.threads t).executionContextInit
    c.scopedExecutionFiber
    let _ ← s.readWrapper wrapper
    .ok (s.setThread t (c.setPhase (.running wrapper)))
  | _ => .error .misplaced

/-- `thread_routine` after the guest code. -/
def threadRoutineLeave (t : ThreadId) (s : PthreadState) : Except PthreadFault PthreadState :=
  match (s.threads t).phase with
  | .running wrapper => do
    (s.threads t).scopedExecutionFiber
    (s.setThread t ((s.threads t).release.setPhase .exiting)).deleteWrapper wrapper
  | _ => .error .misplaced

def destructorEnter (t : ThreadId) (key : PthreadKey) (s : PthreadState) :
    Except PthreadFault PthreadState :=
  match (s.threads t).phase, s.pthreadGetspecific t key with
  | .exiting, some wrapper => do
    (s.threads t).scopedExecutionFiber
    let w ← s.readWrapper wrapper
    let c := ((s.threads t).clearSlot key).setPhase (.destroying wrapper)
    .ok ((s.setThread t c).record (.ran t key w.guestRoutine w.value))
  | _, _ => .error .misplaced

def destructorLeave (t : ThreadId) (s : PthreadState) : Except PthreadFault PthreadState :=
  match (s.threads t).phase with
  | .destroying wrapper => do
    (s.threads t).scopedExecutionFiber
    let s ← s.deleteWrapper wrapper
    .ok (s.setThread t ((s.threads t).release.setPhase .exiting))
  | _ => .error .misplaced

def pthreadKeyCreateImpl (key : PthreadKey) (guestDestructor : Word) (hostRet : BitVec 32)
    (s : PthreadState) : BitVec 32 × PthreadState :=
  if hostRet ≠ 0 then (hostRet, s)
  else
    (0, { s with
      liveKeys := Function.update s.liveKeys key true
      keyDestructorMap :=
        if key ∈ s.keyDestructorMap then s.keyDestructorMap
        else s.keyDestructorMap.insert key ⟨guestDestructor, []⟩
      log := .created key guestDestructor :: s.log })

def deleteWrappers (t : ThreadId) : List Word → PthreadState → Except PthreadFault PthreadState
  | [], s => .ok s
  | wrapper :: rest, s => do
    let s ← s.deleteWrapper wrapper
    deleteWrappers t rest (s.setThread t (s.threads t).subRef)

def pthreadKeyDeleteImpl (t : ThreadId) (key : PthreadKey) (s : PthreadState) :
    Except PthreadFault (BitVec 32 × PthreadState) :=
  match s.keyDestructorMap.lookup key with
  | none => .error .outOfRange
  | some mapped => do
    let s ← deleteWrappers t mapped.wrappers s
    .ok (s.pthreadKeyDelete key)

def clearSpecific (t : ThreadId) (key : PthreadKey) (wrapper : Word) (s : PthreadState) :
    Except PthreadFault PthreadState :=
  match s.keyDestructorMap.lookup key with
  | none => .error .outOfRange
  | some mapped => do
    let mapped := { mapped with wrappers := mapped.wrappers.filter (· ≠ wrapper) }
    let s ← s.deleteWrapper wrapper
    .ok ((s.setMapped key mapped).setThread t ((s.threads t).subRef.clearSlot key))

/-- The first value under a key installs a wrapper. `fresh` is what `new` returns and
`hostRet` the code of the host's `pthread_setspecific`. -/
def installSpecific (t : ThreadId) (key : PthreadKey) (value fresh : Word) (hostRet : BitVec 32)
    (s : PthreadState) : Except PthreadFault (BitVec 32 × PthreadState) :=
  match s.keyDestructorMap.lookup key with
  | none => .ok (einval, s)
  | some mapped =>
    let s := s.newWrapper fresh ⟨mapped.guestDestructor, value⟩
    if hostRet ≠ 0 then do
      let s ← s.deleteWrapper fresh
      .ok (hostRet, s)
    else
      let mapped := { mapped with wrappers := mapped.wrappers ++ [fresh] }
      .ok (0, (s.setMapped key mapped).setThread t ((s.threads t).addRef.setSlot key fresh))

def pthreadSetspecificImpl (t : ThreadId) (key : PthreadKey) (value fresh : Word)
    (hostRet : BitVec 32) (s : PthreadState) : Except PthreadFault (BitVec 32 × PthreadState) :=
  match s.pthreadGetspecific t key with
  | some wrapper =>
    if value = 0 then (clearSpecific t key wrapper s).map (fun s => (0, s))
    else do
      let w ← s.readWrapper wrapper
      .ok (0, s.newWrapper wrapper { w with value := value })
  | none => if value = 0 then .ok (0, s) else installSpecific t key value fresh hostRet s

def pthreadGetspecificImpl (t : ThreadId) (key : PthreadKey) (s : PthreadState) :
    Except PthreadFault Word :=
  match s.pthreadGetspecific t key with
  | some wrapper => (s.readWrapper wrapper).map GuestRoutineWrapper.value
  | none => .ok 0

inductive PthreadEvent where
  | create (t : ThreadId) (guestRoutine arg fresh : Word) (hostRet : BitVec 32)
  | start (t : ThreadId)
  | finish (t : ThreadId)
  | destroy (t : ThreadId) (key : PthreadKey)
  | destroyed (t : ThreadId)
  | exit (t : ThreadId)
  | keyCreate (t : ThreadId) (key : PthreadKey) (guestDestructor : Word) (hostRet : BitVec 32)
  | keyDelete (t : ThreadId) (key : PthreadKey)
  | setSpecific (t : ThreadId) (key : PthreadKey) (value fresh : Word) (hostRet : BitVec 32)
  | getSpecific (t : ThreadId) (key : PthreadKey)

namespace PthreadEvent

def step (s : PthreadState) : PthreadEvent → Except PthreadFault PthreadState
  | create t guestRoutine arg fresh hostRet =>
    (pthreadCreateImpl t guestRoutine arg fresh hostRet s).map Prod.snd
  | start t => threadRoutineEnter t s
  | finish t => threadRoutineLeave t s
  | destroy t key => destructorEnter t key s
  | destroyed t => destructorLeave t s
  | exit t =>
    match (s.threads t).phase with
    | .exiting => .ok (s.setThread t ((s.threads t).setPhase .gone))
    | _ => .error .misplaced
  | keyCreate _ key guestDestructor hostRet =>
    .ok (pthreadKeyCreateImpl key guestDestructor hostRet s).2
  | keyDelete t key => (pthreadKeyDeleteImpl t key s).map Prod.snd
  | setSpecific t key value fresh hostRet =>
    (pthreadSetspecificImpl t key value fresh hostRet s).map
      (fun p => p.2.record (.set t key value p.1))
  | getSpecific t key => (pthreadGetspecificImpl t key s).map (fun _ => s)

def Possible (s : PthreadState) : PthreadEvent → Prop
  | create t _ _ fresh _ =>
    (s.threads t).phase = .absent ∧ fresh ≠ 0 ∧ s.heap fresh = none
  | start t => ∃ wrapper, (s.threads t).phase = .created wrapper
  | finish t => ∃ wrapper, (s.threads t).phase = .running wrapper
  | destroy t key =>
    (s.threads t).phase = .exiting ∧ s.liveKeys key ∧ ∃ p, s.pthreadGetspecific t key = some p
  | destroyed t => ∃ wrapper, (s.threads t).phase = .destroying wrapper
  | exit t => (s.threads t).phase = .exiting
  | keyCreate t key _ hostRet => (s.threads t).InGuest ∧ (hostRet = 0 → s.liveKeys key = false)
  | keyDelete t _ => (s.threads t).InGuest
  | setSpecific t key _ fresh hostRet =>
    (s.threads t).InGuest ∧ fresh ≠ 0 ∧ s.heap fresh = none ∧
      (s.liveKeys key = false → hostRet ≠ 0)
  | getSpecific t _ => (s.threads t).InGuest

end PthreadEvent

end Sober
