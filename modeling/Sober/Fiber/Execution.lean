import Sober.Fiber.Scope
import Sober.SupervisorCall.FastCall
import Sober.Trampoline.Code

/-! # Guest execution

One JIT and one loop per thread. The JIT executes guest instructions until a
halt is requested; the loop around it handles supervisor calls and stops on the
exit that a YIELD requests. Native functions reach the loop again through
fibers. Runs are bounded by fuel; the data processing instructions of the guest
are a parameter.
-/
namespace Sober
open Machine Abi

inductive GuestException where
  | unallocatedEncoding
  | reservedValue
  | unpredictableInstruction
  | waitForInterrupt
  | waitForEvent
  | sendEvent
  | sendEventLocal
  | yield
  | breakpoint
  | noExecuteFault
  deriving DecidableEq, Repr

/-- Hint instructions are hooked, so these raise exceptions. -/
def hintException (insn : BitVec 32) : Option GuestException :=
  if insn = encodeYield then some .yield
  else if insn = 0xD503205F then some .waitForEvent
  else if insn = 0xD503207F then some .waitForInterrupt
  else if insn = 0xD503209F then some .sendEvent
  else if insn = 0xD50320BF then some .sendEventLocal
  else none

def decodeSvc (insn : BitVec 32) : Option (BitVec 16) :=
  if insn &&& 0xFFE0001F = 0xD4000001 then some ((insn >>> 5).setWidth 16) else none

/-- The callback: the address is not looked at. -/
def exceptionRaised {Vm : Type} (_pc : Word) (e : GuestException) (w : World Vm) :
    Except Fault (World Vm) :=
  match e with
  | .yield => .ok { w with haltReason := w.haltReason ||| haltSuccessfulExit }
  | _ => .error .assertion

/-- What surrounds the dispatch code: the guest's other instructions, the native
functions, and the contents of host registers and of uninitialised locals. -/
structure Env (Vm : Type) where
  /-- `none` when the instruction raises an exception or is not implemented. -/
  cpu : BitVec 32 → JitState → Memory → Option (JitState × Memory)
  native : NativeCall → NativeBody
  host : World Vm → HostEntry
  frame : World Vm → HandlerFrame

section Execution
variable {dc : Dyncall} (env : Env dc.Vm)

/-- `ScopedExecutionFiber::run`, called from the native function `func`. -/
def fiberRun {Vm : Type} (loop : World Vm → Except Fault (World Vm)) (func address : Word)
    (w : World Vm) : Except Fault (World Vm) :=
  if w.isExecuting then .error (.reentry func)
  else loop { w with jit := { w.jit.setRegister 30 w.guestExit with pc := address } }

theorem Effect.fiberRun {Vm : Type} {R : World Vm → World Vm → Prop} (hR : Effect R)
    {loop : World Vm → Except Fault (World Vm)} (hloop : ∀ w w', loop w = .ok w' → R w w')
    (func address : Word) (w w' : World Vm)
    (h : Sober.fiberRun loop func address w = .ok w') : R w w' := by
  rw [Sober.fiberRun] at h
  split_ifs at h
  exact hR.trans (hR.jit w _) (hloop _ _ h)

/-- Call a native function whose fibers run in `loop`. -/
def Env.invoke (loop : World dc.Vm → Except Fault (World dc.Vm)) (call : NativeCall)
    (w : World dc.Vm) : Except Fault (HostReturn × World dc.Vm) :=
  (env.native call).exec (fiberRun loop call.func) w

def guestStep (loop : World dc.Vm → Except Fault (World dc.Vm)) (w : World dc.Vm) :
    Except Fault (World dc.Vm) :=
  let pc := w.jit.pc
  let insn := read32 w.mem pc
  let w := { w with executed := w.executed ++ [(pc, insn)] }
  match hintException insn with
  | some e => exceptionRaised pc e { w with jit := { w.jit with pc := pc + 4 } }
  | none =>
    match decodeSvc insn with
    | some imm =>
      let w := { w with jit := { w.jit with pc := pc + 4 } }
      emitA64CallSupervisor dc (env.invoke loop) (env.host w) (imm.setWidth 32) w
    | none =>
      match env.cpu insn w.jit w.mem with
      | some (jit, mem) => .ok { w with jit := jit, mem := mem }
      | none => .error .assertion

/-- Execute until a halt is requested; the request is consumed. -/
def runCode (loop : World dc.Vm → Except Fault (World dc.Vm)) : ℕ → World dc.Vm →
    Except Fault (BitVec 32 × World dc.Vm)
  | 0, _ => .error .fuel
  | n + 1, w =>
    if w.haltReason ≠ 0 then
      .ok (w.haltReason, { w with haltReason := 0, isExecuting := false })
    else
      match guestStep env loop w with
      | .error e => .error e
      | .ok w' => runCode loop n w'

def jitRun (loop : World dc.Vm → Except Fault (World dc.Vm)) (fuel : ℕ) (w : World dc.Vm) :
    Except Fault (BitVec 32 × World dc.Vm) :=
  if w.isExecuting then .error .assertion
  else runCode env loop fuel { w with isExecuting := true }

/-- `execution_loop`; fuel bounds its turns, the instructions of each turn and
the depth of nested loops. -/
def executionLoop : ℕ → World dc.Vm → Except Fault (World dc.Vm)
  | 0, _ => .error .fuel
  | n + 1, w =>
    match jitRun env (executionLoop n) n { w with jit := w.jit.clearExclusiveState } with
    | .error e => .error e
    | .ok (reason, w) =>
      if reason = haltSupervisorCall then
        match handleCallSvc dc (env.invoke (executionLoop n)) (env.frame w) w.svcNumber w with
        | .error e => .error e
        | .ok w' => executionLoop n w'
      else if reason = haltSuccessfulExit then .ok w
      else .error .terminate

end Execution
end Sober
