import Sober.Fiber.Execution
import Sober.SupervisorCall.SlowPath

/-! # Nested guest execution is transparent

Whatever runs inside a fiber scope, leaving the scope puts the callee-saved
registers back. A native function that never replaces the registers saved by
one of its scopes therefore returns with them unchanged, and the handler then
writes nothing but the result.
-/
namespace Sober
open Machine Abi

section Body
variable {Vm : Type} {run : Word → World Vm → Except Fault (World Vm)}

/-- A scope that keeps its saved registers restores the ones of its entry. -/
theorem FiberBody.exec_saved {body : FiberBody} (hkeep : body.KeepsSaved)
    {saved regs : SavedRegisters} {w w' : World Vm} {value : HostReturn}
    (h : body.exec run saved w = .ok (value, regs, w')) : regs = saved := by
  induction body generalizing saved w with
  | done v =>
    cases h
    rfl
  | memory f next ih => exact ih _ (hkeep _) h
  | setRegister index v next ih => exact ih hkeep h
  | setVectorFirst index v next ih => exact ih hkeep h
  | getRegister index next ih => exact ih _ (hkeep _) h
  | getSaved next ih => exact ih _ (hkeep _) h
  | setSaved regs next ih => exact hkeep.elim
  | run address next ih =>
    obtain ⟨w₁, -, hnext⟩ := FiberBody.exec_run_ok h
    exact ih hkeep hnext
  | callee inner next _ ih =>
    obtain ⟨v, restored, w₁, -, hnext⟩ := FiberBody.exec_callee_ok h
    exact ih _ (hkeep _) hnext

theorem NativeBody.exec_preserves {body : NativeBody} (hkeep : body.KeepsSaved)
    {w w' : World Vm} {value : HostReturn} (h : body.exec run w = .ok (value, w')) :
    getSavedRegisters w'.jit = getSavedRegisters w.jit := by
  induction body generalizing w with
  | ret v =>
    cases h
    rfl
  | abort => cases h
  | memory f next ih => exact ih _ (hkeep w.mem) (w := { w with mem := f w.mem }) h
  | callee inner next ih =>
    obtain ⟨v, regs, w₁, hi, hnext⟩ := NativeBody.exec_callee_ok h
    have hregs : regs = getSavedRegisters w.jit := FiberBody.exec_saved hkeep.1 hi
    rw [ih _ (hkeep.2 _) hnext, getSavedRegisters_restore, hregs]

end Body

/-- Delivering a result leaves the saved registers alone. -/
theorem ResultDelivered.getSavedRegisters_eq {r : ReturnType} {ret : HostReturn}
    {before after j : JitState} (h : ResultDelivered r ret before after j) :
    getSavedRegisters j = getSavedRegisters after := by
  apply SavedRegisters.ext
  · funext i
    have hi : 19 + i.val < 31 := by omega
    simp only [getSavedRegisters, JitState.getRegister, hi, dif_pos]
    apply h.reg
    intro e
    have hv : 19 + i.val = 0 := congrArg Fin.val e
    omega
  · exact h.sp
  · exact h.pc
  · funext i
    fin_cases i <;> exact congrArg Vec.lo (h.vec _ (by decide))

/-- The registers that a call preserves: `x19` to `x30`, the stack pointer, the
program counter, and the low halves of `v8` to `v15`. -/
structure CalleeSavedEq (j j' : JitState) : Prop where
  reg : ∀ i, 19 ≤ i → i ≤ 30 → j'.getRegister i = j.getRegister i
  sp : j'.sp = j.sp
  pc : j'.pc = j.pc
  vec : ∀ i, 8 ≤ i → i ≤ 15 → (j'.getVector i).lo = (j.getVector i).lo

theorem CalleeSavedEq.of_saved {j j' : JitState}
    (h : getSavedRegisters j' = getSavedRegisters j) : CalleeSavedEq j j' where
  reg i hlo hhi := by
    have hr := congrFun (congrArg SavedRegisters.r h) ⟨i - 19, by omega⟩
    have hi : 19 + (i - 19) = i := by omega
    simpa [getSavedRegisters, hi] using hr
  sp := congrArg SavedRegisters.sp h
  pc := congrArg SavedRegisters.pc h
  vec i hlo hhi := by
    have hd := congrFun (congrArg SavedRegisters.d h) ⟨i - 8, by omega⟩
    have hi : 8 + (i - 8) = i := by omega
    simpa [getSavedRegisters, hi] using hd

/-- After a supervisor call that the handler took, with fibers nested to any
depth inside it, the callee-saved registers are those of the call. The native
call was fixed before the function started, and its result is delivered over
whatever registers the nested code left. -/
theorem handleCallSvc_transparent (dc : Dyncall) (env : Env dc.Vm)
    (hnative : ∀ call, (env.native call).KeepsSaved) (n : ℕ) (frame : HandlerFrame)
    (swi : BitVec 32) (w w' : World dc.Vm)
    (h : handleCallSvc dc (env.invoke (executionLoop env n)) frame swi w = .ok w') :
    CalleeSavedEq w.jit w'.jit ∧
      ((w'.jit = w.jit ∧ w'.calls = w.calls) ∨
        ∃ t r call vm ret w₁, trampolineGetById w.trampolines swi = some t ∧
          t.types.ret.returnType? = some r ∧ call.func = t.nativeFunc ∧
          (∀ invoke, MakesOneCall dc invoke call w (handleCallSvc dc invoke frame swi w)) ∧
          env.invoke (executionLoop env n) call
            { w with dyncallVm := vm, calls := w.calls ++ [call] } = .ok (ret, w₁) ∧
          ResultDelivered r ret w.jit w₁.jit w'.jit) := by
  rcases handleCallSvc_cases dc frame swi w with
    ⟨t, r, c, ht, hr, hcall⟩ | ⟨vm, cerr, hreport⟩ | ⟨e, -, hfault⟩
  · rw [hcall] at h
    rcases callNative_ok dc h with ⟨call, ret, w₁, rfl, hi, rfl⟩
    have hdelivered := writeBack_delivered r ret w.jit w₁.jit
    have hsaved := NativeBody.exec_preserves (hnative _) hi
    refine ⟨CalleeSavedEq.of_saved (hdelivered.getSavedRegisters_eq.trans hsaved), .inr ?_⟩
    refine ⟨t, r, _, c.vm, ret, w₁, ht, hr, rfl, ?_, hi, hdelivered⟩
    intro invoke
    rw [hcall]
    exact callNative_makesOneCall dc invoke t.nativeFunc r c w
  · rw [hreport] at h
    cases h
    exact ⟨CalleeSavedEq.of_saved rfl, .inl ⟨rfl, rfl⟩⟩
  · rw [hfault] at h
    cases h

/-- A function without parameters that may run guest code. -/
def callbackTrampoline : Trampoline where
  name := "callback"
  id := 0
  nativeFunc := 0x5000
  types := .of .signedWord []
  isEllipsisFunction := false
  hasExecutionSideEffects := true
  guestTrampoline := 0x2000

/-- The exit stub at `0x3000` over memory that is otherwise zero. -/
def stubMemory : Memory := fun a =>
  if a = 0x3000 then 0x3F else if a = 0x3001 then 0x20
  else if a = 0x3002 then 0x03 else if a = 0x3003 then 0xD5 else 0

/-- The guest routine overwrites `x19` and returns; the native function hands
out the value it finds there. -/
def callbackEnv : Env Dyncall.ofList.Vm where
  cpu _ j m := some ({ j.setRegister 19 99 with pc := j.getRegister 30 }, m)
  native _ := .callee (.run 0x4000 (.getRegister 19 fun v => .done ⟨v, 0⟩)) .ret
  host _ := ⟨⟨fun _ _ => 0, fun _ => 0⟩, 0⟩
  frame _ := .cleared

theorem handleCallSvc_transparent_callback :
    ∃ w', handleCallSvc .ofList (callbackEnv.invoke (executionLoop callbackEnv 4)) .cleared 0x10
        { World.fresh [callbackTrampoline] 0x2004 with mem := stubMemory } = .ok w' ∧
      w'.jit.getRegister 0 = 99 ∧
      CalleeSavedEq (World.fresh [callbackTrampoline] 0x2004).jit w'.jit := by
  have hnative : ∀ call, (callbackEnv.native call).KeepsSaved := by
    intro call
    exact ⟨fun _ => trivial, fun _ => trivial⟩
  exact ⟨_, rfl, rfl, (handleCallSvc_transparent .ofList callbackEnv hnative 4 .cleared 0x10
    { World.fresh [callbackTrampoline] 0x2004 with mem := stubMemory } _ rfl).1⟩

end Sober
