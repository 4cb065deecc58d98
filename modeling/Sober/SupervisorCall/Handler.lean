import Sober.SupervisorCall.Dyncall
import Sober.Guest.State
import Sober.Trampoline.Registry

/-! # The supervisor call handler

`handle_call_svc` walks the signature of the called entry, pushes one host
argument for each parameter from the guest registers or the guest stack, makes
the host call and writes the result back. The guest and the host share one
address space. The host function is a parameter; it may itself run guest code.
-/
namespace Sober
open Machine Abi

/-- Pointers a translated `va_list` holds: an address, or a position in the
buffer local to the handler. -/
inductive HostPtr where
  | address (a : Word)
  | gpArgBuffer (offset : ℕ)

structure X8664VaArgsData where
  gpOffset : BitVec 32
  fpOffset : BitVec 32
  overflowArgArea : HostPtr
  regSaveArea : Word

abbrev Aarch64VaArgsData := Aapcs64VaList

structure HandlerFrame where
  vaArgsAddress : Word
  nativeVaArgsData : X8664VaArgsData
  gpArgBuffer : Block (16 * 8)

def HandlerFrame.cleared : HandlerFrame := ⟨0, ⟨0, 0, .address 0, 0⟩, fun _ => 0⟩

/-- One call of a host function: its address and the state it is entered in,
with the handler's locals when the handler makes the call. -/
structure NativeCall where
  func : Word
  entry : HostEntry
  frame : Option HandlerFrame

structure HostReturn where
  rax : Word
  xmm0 : Word

/-- A thread's execution context with the memory and the registry it works on.
The calls made and the instructions executed are recorded in order. -/
structure World (Vm : Type) where
  jit : JitState
  haltReason : BitVec 32
  isExecuting : Bool
  dyncallVm : Vm
  svcNumber : BitVec 32
  mem : Memory
  trampolines : List Trampoline
  guestExit : Word
  calls : List NativeCall
  executed : List (Word × BitVec 32)
  cerr : List String

/-- A fresh context over a memory in which every byte is the low byte of its
address. -/
def World.fresh (trampolines : List Trampoline) (pc : Word) : World Dyncall.ofList.Vm where
  jit := .numbered pc
  haltReason := 0
  isExecuting := false
  dyncallVm := []
  svcNumber := 0
  mem a := a.setWidth 8
  trampolines := trampolines
  guestExit := 0x3000
  calls := []
  executed := []
  cerr := []

/-- Ways in which execution does not go on. A fiber that is run while the JIT is
executing names the native function that ran it. -/
inductive Fault where
  | outOfRange
  | bufferOverrun
  | reentry (func : Word)
  | assertion
  | terminate
  | fuel
  deriving DecidableEq, Repr

structure Cursor (Vm : Type) where
  vm : Vm
  xReg : ℕ
  vReg : ℕ
  stackCursor : Word
  frame : HandlerFrame

inductive MarshalError where
  | unsupportedArgument
  | bufferOverrun
  deriving DecidableEq, Repr

section Marshal
variable (dc : Dyncall) (j : JitState) (m : Memory)

def Cursor.popStack {Vm : Type} (c : Cursor Vm) : Word × Cursor Vm :=
  (read64 m c.stackCursor, { c with stackCursor := c.stackCursor + 8 })

def Cursor.takeInteger {Vm : Type} (c : Cursor Vm) : Word × Cursor Vm :=
  if c.xReg > 7 then c.popStack m
  else (j.getRegister c.xReg, { c with xReg := c.xReg + 1 })

def Cursor.takeFloating {Vm : Type} (c : Cursor Vm) : Word × Cursor Vm :=
  if c.vReg > 7 then c.popStack m
  else ((j.getVector c.vReg).lo, { c with vReg := c.vReg + 1 })

def readVaArgsData (p : Word) : Aarch64VaArgsData where
  stack := read64 m p
  grTop := read64 m (p + 8)
  vrTop := read64 m (p + 16)
  grOffs := read32 m (p + 24)
  vrOffs := read32 m (p + 28)

/-- The buffer for the general registers that are still unread, followed by as
much of the guest stack as fits. -/
def fillGpArgBuffer (guest : Aarch64VaArgsData) (grSize : ℕ) (buffer : Block (16 * 8)) :
    Block (16 * 8) :=
  let buffer := buffer.fill 0 grSize
    (fun i => m (guest.grTop - BitVec.ofNat 64 grSize + BitVec.ofNat 64 i))
  if 16 * 8 - grSize > 0 ∧ guest.stack ≠ 0 then
    buffer.fill grSize (16 * 8 - grSize) (fun i => m (guest.stack + BitVec.ofNat 64 i))
  else buffer

/-- Build the host `va_list`; `none` when the copy would leave the buffer. -/
def translateVaList (guest : Aarch64VaArgsData) (frame : HandlerFrame) : Option HandlerFrame :=
  let data : X8664VaArgsData := {
    gpOffset := 48
    fpOffset := 176 + guest.vrOffs
    overflowArgArea := .address guest.stack
    regSaveArea := guest.vrTop - 176 }
  if guest.grOffs.toInt ≥ 0 then some { frame with nativeVaArgsData := data }
  else
    let grSize := (-guest.grOffs).toNat
    if grSize ≤ 16 * 8 then
      some { frame with
        nativeVaArgsData := { data with overflowArgArea := .gpArgBuffer 0 }
        gpArgBuffer := fillGpArgBuffer m guest grSize frame.gpArgBuffer }
    else none

def pushArgument (t : FunctionArgumentType) (c : Cursor dc.Vm) :
    Except MarshalError (Cursor dc.Vm) :=
  match t with
  | .variadicList =>
    let r := c.takeInteger j m
    match translateVaList m (readVaArgsData m r.1) r.2.frame with
    | none => .error .bufferOverrun
    | some frame =>
      .ok { r.2 with frame := frame, vm := dc.argPointer r.2.vm frame.vaArgsAddress }
  | t =>
    match t.kind? with
    | some .integer =>
      let r := c.takeInteger j m
      .ok { r.2 with vm := dc.argLongLong r.2.vm r.1 }
    | some .floating =>
      let r := c.takeFloating j m
      .ok { r.2 with vm := dc.argDouble r.2.vm r.1 }
    | none => .error .unsupportedArgument

/-- The loop; an error keeps what was pushed before it. -/
def marshal : List FunctionArgumentType → Cursor dc.Vm →
    Except (MarshalError × dc.Vm) (Cursor dc.Vm)
  | [], c => .ok c
  | t :: ts, c =>
    match pushArgument dc j m t c with
    | .ok c' => marshal ts c'
    | .error e => .error (e, c.vm)

/-- For an ellipsis function every argument register not yet used is passed on. -/
def pushEllipsis (c : Cursor dc.Vm) : Cursor dc.Vm :=
  let vm := (List.range' c.xReg (8 - c.xReg)).foldl
    (fun vm i => dc.argLongLong vm (j.getRegister i)) c.vm
  let vm := (List.range' c.vReg (8 - c.vReg)).foldl
    (fun vm i => dc.argDouble vm (j.getVector i).lo) vm
  { c with vm := vm }

/-- `before` is the register file at the call: the upper half of the returned
vector is read ahead of it. -/
def writeBack (r : ReturnType) (before : JitState) (ret : HostReturn) (after : JitState) :
    JitState :=
  match r with
  | .integer => after.setRegister 0 ret.rax
  | .float => after.setVector 0 { before.getVector 0 with lo := ret.xmm0 }
  | .void => after

end Marshal

section Handler
variable (dc : Dyncall)
  (invoke : NativeCall → World dc.Vm → Except Fault (HostReturn × World dc.Vm))

/-- `dcCall*` on the prepared machine, then the result. -/
def callNative (func : Word) (r : ReturnType) (c : Cursor dc.Vm) (w : World dc.Vm) :
    Except Fault (World dc.Vm) :=
  let call : NativeCall := ⟨func, dc.enter c.vm, some c.frame⟩
  match invoke call { w with dyncallVm := c.vm, calls := w.calls ++ [call] } with
  | .error e => .error e
  | .ok (ret, w') => .ok { w' with jit := writeBack r w.jit ret w'.jit }

/-- `frame` holds the uninitialised locals of this activation. -/
def handleCallSvc (frame : HandlerFrame) (swi : BitVec 32) (w : World dc.Vm) :
    Except Fault (World dc.Vm) :=
  match trampolineGetById w.trampolines swi with
  | none => .error .outOfRange
  | some t =>
    match marshal dc w.jit w.mem t.types.params ⟨dc.reset w.dyncallVm, 0, 0, w.jit.sp, frame⟩ with
    | .error (.bufferOverrun, _) => .error .bufferOverrun
    | .error (.unsupportedArgument, vm) =>
      .ok { w with
        dyncallVm := vm
        cerr := w.cerr ++ ["CallSVC(): Unsupported function argument type"] }
    | .ok c =>
      let c := if t.isEllipsisFunction then pushEllipsis dc w.jit c else c
      match t.types.ret.returnType? with
      | none =>
        .ok { w with
          dyncallVm := c.vm
          cerr := w.cerr ++ ["CallSVC(): Unsupported function return type"] }
      | some r => callNative dc invoke t.nativeFunc r c w

/-- The run makes this native call, from a state over the memory of `w`, and none besides. -/
def MakesOneCall (call : NativeCall) (w : World dc.Vm) (run : Except Fault (World dc.Vm)) : Prop :=
  ∃ (w₁ : World dc.Vm) (finish : HostReturn × World dc.Vm → World dc.Vm),
    w₁.calls = w.calls ++ [call] ∧ w₁.mem = w.mem ∧ (∀ p, (finish p).calls = p.2.calls) ∧
      run = (invoke call w₁).map finish

theorem callNative_makesOneCall (func : Word) (r : ReturnType) (c : Cursor dc.Vm)
    (w : World dc.Vm) :
    MakesOneCall dc invoke ⟨func, dc.enter c.vm, some c.frame⟩ w
      (callNative dc invoke func r c w) := by
  refine ⟨{ w with
      dyncallVm := c.vm
      calls := w.calls ++ [⟨func, dc.enter c.vm, some c.frame⟩] },
    fun p => { p.2 with jit := writeBack r w.jit p.1 p.2.jit }, rfl, rfl, fun _ => rfl, ?_⟩
  rw [callNative]
  cases invoke ⟨func, dc.enter c.vm, some c.frame⟩ _ with
  | error e => rfl
  | ok result => rfl

theorem callNative_ok {invoke : NativeCall → World dc.Vm → Except Fault (HostReturn × World dc.Vm)}
    {func : Word} {r : ReturnType} {c : Cursor dc.Vm} {w w' : World dc.Vm}
    (h : callNative dc invoke func r c w = .ok w') :
    ∃ call ret w₁, call = ⟨func, dc.enter c.vm, some c.frame⟩ ∧
      invoke call { w with dyncallVm := c.vm, calls := w.calls ++ [call] } = .ok (ret, w₁) ∧
      w' = { w₁ with jit := writeBack r w.jit ret w₁.jit } := by
  rw [callNative] at h
  cases hi : invoke ⟨func, dc.enter c.vm, some c.frame⟩ { w with
      dyncallVm := c.vm
      calls := w.calls ++ [⟨func, dc.enter c.vm, some c.frame⟩] } with
  | error e =>
    rw [hi] at h
    cases h
  | ok result =>
    rw [hi] at h
    cases h
    exact ⟨_, result.1, result.2, rfl, hi, rfl⟩

theorem callNative_error
    {invoke : NativeCall → World dc.Vm → Except Fault (HostReturn × World dc.Vm)}
    {func : Word} {r : ReturnType} {c : Cursor dc.Vm} {w : World dc.Vm} {e : Fault}
    (h : callNative dc invoke func r c w = .error e) :
    ∃ call, call = ⟨func, dc.enter c.vm, some c.frame⟩ ∧
      invoke call { w with dyncallVm := c.vm, calls := w.calls ++ [call] } = .error e := by
  rw [callNative] at h
  cases hi : invoke ⟨func, dc.enter c.vm, some c.frame⟩ { w with
      dyncallVm := c.vm
      calls := w.calls ++ [⟨func, dc.enter c.vm, some c.frame⟩] } with
  | error e' =>
    rw [hi] at h
    cases h
    exact ⟨_, rfl, hi⟩
  | ok result =>
    rw [hi] at h
    cases h

/-- The handler makes the same call whatever the native function will do, or it
reports the signature, or it faults without any call. -/
theorem handleCallSvc_cases (frame : HandlerFrame) (swi : BitVec 32) (w : World dc.Vm) :
    (∃ t r c, trampolineGetById w.trampolines swi = some t ∧ t.types.ret.returnType? = some r ∧
      ∀ invoke, handleCallSvc dc invoke frame swi w = callNative dc invoke t.nativeFunc r c w) ∨
    (∃ vm cerr, ∀ invoke, handleCallSvc dc invoke frame swi w =
      .ok { w with dyncallVm := vm, cerr := cerr }) ∨
    ∃ e, (∀ func, e ≠ .reentry func) ∧
      ∀ invoke, handleCallSvc dc invoke frame swi w = .error e := by
  cases ht : trampolineGetById w.trampolines swi with
  | none =>
    exact .inr (.inr ⟨.outOfRange, by simp, fun invoke => by simp only [handleCallSvc, ht]⟩)
  | some t =>
    cases hm : marshal dc w.jit w.mem t.types.params
        ⟨dc.reset w.dyncallVm, 0, 0, w.jit.sp, frame⟩ with
    | error e =>
      rcases e with ⟨e, vm⟩
      cases e with
      | bufferOverrun =>
        exact .inr (.inr ⟨.bufferOverrun, by simp,
          fun invoke => by simp only [handleCallSvc, ht, hm]⟩)
      | unsupportedArgument =>
        exact .inr (.inl ⟨_, _, fun invoke => by simp only [handleCallSvc, ht, hm]; rfl⟩)
    | ok c =>
      cases hr : t.types.ret.returnType? with
      | none =>
        exact .inr (.inl ⟨_, _, fun invoke => by simp only [handleCallSvc, ht, hm, hr]; rfl⟩)
      | some r =>
        exact .inl ⟨t, r, _, rfl, hr, fun invoke => by simp only [handleCallSvc, ht, hm, hr]; rfl⟩

end Handler
end Sober
