import Sober.Fiber.Control

/-! # What a run keeps

Beside every layer of execution stands the list of the changes that it makes to
the memory, by guest instructions and by native functions, nested loops included.
A relation between the states before and after that composes and looks only at
memory and at the calls made holds of a run if each of these changes is one that
keeps it. Nothing is asked of states that the run does not reach.
-/
namespace Sober
open Machine Abi

abbrev Change := Memory × Memory

section Body
variable {Vm : Type} (run : Word → World Vm → Except Fault (World Vm))
  (inside : Word → World Vm → List Change)

def FiberBody.changes : FiberBody → SavedRegisters → World Vm → List Change
  | .done _, _, _ => []
  | .memory f next, saved, w =>
    (w.mem, f w.mem) :: (next w.mem).changes saved { w with mem := f w.mem }
  | .setRegister index value next, saved, w =>
    next.changes saved { w with jit := w.jit.setRegister index value }
  | .setVectorFirst index value next, saved, w =>
    next.changes saved { w with jit := w.jit.setVectorFirst index value }
  | .getRegister index next, saved, w => (next (w.jit.getRegister index)).changes saved w
  | .getSaved next, saved, w => (next saved).changes saved w
  | .setSaved regs next, _, w => next.changes regs w
  | .run address next, saved, w => inside address w ++
    match run address w with
    | .error _ => []
    | .ok w' => next.changes saved w'
  | .callee inner next, saved, w => inner.changes (getSavedRegisters w.jit) w ++
    match inner.exec run (getSavedRegisters w.jit) w with
    | .error _ => []
    | .ok (value, regs, w') =>
      (next value).changes saved { w' with jit := restoreSavedRegisters regs w'.jit }

def NativeBody.changes : NativeBody → World Vm → List Change
  | .ret _, _ => []
  | .abort, _ => []
  | .memory f next, w => (w.mem, f w.mem) :: (next w.mem).changes { w with mem := f w.mem }
  | .callee inner next, w => inner.changes run inside (getSavedRegisters w.jit) w ++
    match inner.exec run (getSavedRegisters w.jit) w with
    | .error _ => []
    | .ok (value, regs, w') =>
      (next value).changes { w' with jit := restoreSavedRegisters regs w'.jit }

end Body

def fiberChanges {Vm : Type} (inside : World Vm → List Change) (address : Word) (w : World Vm) :
    List Change :=
  if w.isExecuting then []
  else inside { w with jit := { w.jit.setRegister 30 w.guestExit with pc := address } }

section Run
variable {dc : Dyncall} (env : Env dc.Vm)
  (atCall : (World dc.Vm → Except Fault (World dc.Vm)) → (World dc.Vm → List Change) →
    NativeCall → World dc.Vm → List Change)

section Layer
variable (loop : World dc.Vm → Except Fault (World dc.Vm)) (inside : World dc.Vm → List Change)

def fastCallChanges (swi : BitVec 32) (w : World dc.Vm) : List Change :=
  match getSupervisorFastCall w.trampolines swi with
  | .error _ => []
  | .ok fc =>
    let call : NativeCall := ⟨fc.function, fc.entry w.jit (env.host w), none⟩
    atCall loop inside call { w with calls := w.calls ++ [call] }

def guestStepChanges (w : World dc.Vm) : List Change :=
  let insn := read32 w.mem w.jit.pc
  match hintException insn with
  | some _ => []
  | none =>
    match decodeSvc insn with
    | some imm => fastCallChanges env atCall loop inside (imm.setWidth 32) w.issue
    | none =>
      match env.cpu insn w.jit w.mem with
      | some (_, mem) => [(w.mem, mem)]
      | none => []

def runCodeChanges : ℕ → World dc.Vm → List Change
  | 0, _ => []
  | n + 1, w =>
    if w.haltReason ≠ 0 then []
    else guestStepChanges env atCall loop inside w ++
      match guestStep env loop w with
      | .error _ => []
      | .ok w' => runCodeChanges n w'

end Layer

/-- The call that the handler makes, and the state it makes it in. -/
def handledCall (frame : HandlerFrame) (swi : BitVec 32) (w : World dc.Vm) :
    Option (NativeCall × World dc.Vm) :=
  match trampolineGetById w.trampolines swi with
  | none => none
  | some t =>
    match marshal dc w.jit w.mem t.types.params ⟨dc.reset w.dyncallVm, 0, 0, w.jit.sp, frame⟩ with
    | .error _ => none
    | .ok c =>
      let c := if t.isEllipsisFunction then pushEllipsis dc w.jit c else c
      let call : NativeCall := ⟨t.nativeFunc, dc.enter c.vm, some c.frame⟩
      if t.types.ret.returnType?.isSome then
        some (call, { w with dyncallVm := c.vm, calls := w.calls ++ [call] })
      else none

def handlerChanges (loop : World dc.Vm → Except Fault (World dc.Vm))
    (inside : World dc.Vm → List Change) (w : World dc.Vm) : List Change :=
  match handledCall (env.frame w) w.svcNumber w with
  | none => []
  | some (call, w₁) => atCall loop inside call w₁

/-- The changes of `execution_loop`; `atCall` says which changes of a native call
are counted. -/
def loopChanges : ℕ → World dc.Vm → List Change
  | 0, _ => []
  | n + 1, w =>
    let w := { w with jit := w.jit.clearExclusiveState }
    runCodeChanges env atCall (executionLoop env n) (loopChanges n) n
        { w with isExecuting := true } ++
      match jitRun env (executionLoop env n) n w with
      | .error _ => []
      | .ok (reason, w) =>
        if reason = haltSupervisorCall then
          handlerChanges env atCall (executionLoop env n) (loopChanges n) w ++
            match handleCallSvc dc (env.invoke (executionLoop env n)) (env.frame w)
              w.svcNumber w with
            | .error _ => []
            | .ok w' => loopChanges n w'
        else []

end Run

section Effect
variable {Vm : Type} {run : Word → World Vm → Except Fault (World Vm)}
  {inside : Word → World Vm → List Change} {R : World Vm → World Vm → Prop} {K : Change → Prop}

theorem FiberBody.keeps_of_changes (hR : Effect R)
    (hstore : ∀ (w : World Vm) mem, K (w.mem, mem) → R w { w with mem := mem })
    (hrun : ∀ address w w', run address w = .ok w' → (∀ c ∈ inside address w, K c) → R w w')
    {body : FiberBody} {saved regs : SavedRegisters} {w w' : World Vm} {value : HostReturn}
    (h : body.exec run saved w = .ok (value, regs, w'))
    (hK : ∀ c ∈ body.changes run inside saved w, K c) : R w w' := by
  induction body generalizing saved w value regs w' with
  | done v =>
    cases h
    exact hR.refl w
  | memory f next ih =>
    rw [FiberBody.changes, List.forall_mem_cons] at hK
    exact hR.trans (hstore w _ hK.1) (ih _ h hK.2)
  | setRegister index v next ih => exact hR.trans (hR.jit w _) (ih h hK)
  | setVectorFirst index v next ih => exact hR.trans (hR.jit w _) (ih h hK)
  | getRegister index next ih => exact ih _ h hK
  | getSaved next ih => exact ih _ h hK
  | setSaved regs next ih => exact ih h hK
  | run address next ih =>
    obtain ⟨w₁, hr, hnext⟩ := FiberBody.exec_run_ok h
    rw [FiberBody.changes, hr, List.forall_mem_append] at hK
    exact hR.trans (hrun _ _ _ hr hK.1) (ih hnext hK.2)
  | callee inner next ihi ih =>
    obtain ⟨v, restored, w₁, hi, hnext⟩ := FiberBody.exec_callee_ok h
    rw [FiberBody.changes, hi, List.forall_mem_append] at hK
    exact hR.trans (hR.trans (ihi hi hK.1) (hR.jit _ _)) (ih _ hnext hK.2)

theorem NativeBody.keeps_of_changes (hR : Effect R)
    (hstore : ∀ (w : World Vm) mem, K (w.mem, mem) → R w { w with mem := mem })
    (hrun : ∀ address w w', run address w = .ok w' → (∀ c ∈ inside address w, K c) → R w w')
    {body : NativeBody} {w w' : World Vm} {value : HostReturn}
    (h : body.exec run w = .ok (value, w')) (hK : ∀ c ∈ body.changes run inside w, K c) :
    R w w' := by
  induction body generalizing w with
  | ret v =>
    cases h
    exact hR.refl _
  | abort => cases h
  | memory f next ih =>
    rw [NativeBody.changes, List.forall_mem_cons] at hK
    exact hR.trans (hstore w _ hK.1) (ih _ h hK.2)
  | callee inner next ih =>
    obtain ⟨v, restored, w₁, hi, hnext⟩ := NativeBody.exec_callee_ok h
    rw [NativeBody.changes, hi, List.forall_mem_append] at hK
    have hinner := FiberBody.keeps_of_changes hR hstore hrun hi hK.1
    exact hR.trans (hR.trans hinner (hR.jit _ _)) (ih _ hnext hK.2)

theorem Effect.fiberRun_of_changes (hR : Effect R)
    {loop : World Vm → Except Fault (World Vm)} {changes : World Vm → List Change}
    (hloop : ∀ w w', loop w = .ok w' → (∀ c ∈ changes w, K c) → R w w') (func address : Word)
    (w w' : World Vm) (h : Sober.fiberRun loop func address w = .ok w')
    (hK : ∀ c ∈ fiberChanges changes address w, K c) : R w w' := by
  rw [Sober.fiberRun] at h
  split_ifs at h with hexec
  rw [fiberChanges, if_neg hexec] at hK
  exact hR.trans (hR.jit w _) (hloop _ _ h hK)

end Effect

/-- The handler makes the call of `handledCall`, or none. -/
theorem handleCallSvc_ok_cases {dc : Dyncall}
    {invoke : NativeCall → World dc.Vm → Except Fault (HostReturn × World dc.Vm)}
    {frame : HandlerFrame} {swi : BitVec 32} {w w' : World dc.Vm}
    (h : handleCallSvc dc invoke frame swi w = .ok w') :
    (∃ call vm w₁ ret w₂ jit, w₁ = { w with dyncallVm := vm, calls := w.calls ++ [call] } ∧
      handledCall frame swi w = some (call, w₁) ∧ invoke call w₁ = .ok (ret, w₂) ∧
      w' = { w₂ with jit := jit }) ∨
    (w'.mem = w.mem ∧ w'.calls = w.calls) := by
  cases ht : trampolineGetById w.trampolines swi with
  | none => simp [handleCallSvc, ht] at h
  | some t =>
    cases hm : marshal dc w.jit w.mem t.types.params
        ⟨dc.reset w.dyncallVm, 0, 0, w.jit.sp, frame⟩ with
    | error e =>
      rcases e with ⟨e, vm⟩
      cases e with
      | bufferOverrun => simp [handleCallSvc, ht, hm] at h
      | unsupportedArgument =>
        simp only [handleCallSvc, ht, hm] at h
        cases h
        exact .inr ⟨rfl, rfl⟩
    | ok c =>
      cases hr : t.types.ret.returnType? with
      | none =>
        simp only [handleCallSvc, ht, hm, hr] at h
        cases h
        exact .inr ⟨rfl, rfl⟩
      | some r =>
        simp only [handleCallSvc, ht, hm, hr] at h
        obtain ⟨call, ret, w₂, rfl, hi, rfl⟩ := callNative_ok dc h
        exact .inl ⟨_, _, _, ret, w₂, _, rfl, by simp [handledCall, ht, hm, hr], hi, rfl⟩

/-- The relation is kept by changes with the property `K`, and by a native call
whose counted changes have it. -/
structure RunInvariant {dc : Dyncall} (env : Env dc.Vm)
    (atCall : (World dc.Vm → Except Fault (World dc.Vm)) → (World dc.Vm → List Change) →
      NativeCall → World dc.Vm → List Change)
    (K : Change → Prop) (R : World dc.Vm → World dc.Vm → Prop) : Prop where
  trans : ∀ {w w₁ w₂}, R w w₁ → R w₁ w₂ → R w w₂
  control : ∀ {w w' : World dc.Vm}, w'.mem = w.mem → w'.calls = w.calls → R w w'
  store : ∀ (w : World dc.Vm) mem, K (w.mem, mem) → R w { w with mem := mem }
  /-- The call is recorded before the function starts. -/
  native : ∀ {loop inside}, (∀ w w', loop w = .ok w' → (∀ c ∈ inside w, K c) → R w w') →
    ∀ {call ret} (vm : dc.Vm) {w w₁ w' : World dc.Vm},
      w₁ = { w with dyncallVm := vm, calls := w.calls ++ [call] } →
      env.invoke loop call w₁ = .ok (ret, w') → (∀ c ∈ atCall loop inside call w₁, K c) → R w w'

namespace RunInvariant
variable {dc : Dyncall} {env : Env dc.Vm}
  {atCall : (World dc.Vm → Except Fault (World dc.Vm)) → (World dc.Vm → List Change) →
    NativeCall → World dc.Vm → List Change}
  {K : Change → Prop} {R : World dc.Vm → World dc.Vm → Prop}
  {loop : World dc.Vm → Except Fault (World dc.Vm)} {inside : World dc.Vm → List Change}

theorem effect (hR : RunInvariant env atCall K R) : Effect R where
  refl _ := hR.control rfl rfl
  trans := hR.trans
  jit _ _ := hR.control rfl rfl

theorem handleCallSvc (hR : RunInvariant env atCall K R)
    (hloop : ∀ w w', loop w = .ok w' → (∀ c ∈ inside w, K c) → R w w') {w w' : World dc.Vm}
    (h : Sober.handleCallSvc dc (env.invoke loop) (env.frame w) w.svcNumber w = .ok w')
    (hK : ∀ c ∈ handlerChanges env atCall loop inside w, K c) : R w w' := by
  rcases handleCallSvc_ok_cases h with
    ⟨call, vm, w₁, ret, w₂, jit, hw₁, hcall, hi, rfl⟩ | ⟨hmem, hcalls⟩
  · rw [handlerChanges, hcall] at hK
    exact hR.trans (hR.native hloop vm hw₁ hi hK) (hR.effect.jit w₂ _)
  · exact hR.control hmem hcalls

theorem fastCall (hR : RunInvariant env atCall K R)
    (hloop : ∀ w w', loop w = .ok w' → (∀ c ∈ inside w, K c) → R w w') {swi : BitVec 32}
    {w w' : World dc.Vm}
    (h : emitA64CallSupervisor dc (env.invoke loop) (env.host w) swi w = .ok w')
    (hK : ∀ c ∈ fastCallChanges env atCall loop inside swi w, K c) : R w w' := by
  rw [emitA64CallSupervisor] at h
  cases hfast : getSupervisorFastCall w.trampolines swi with
  | ok fc =>
    rw [hfast] at h
    rw [fastCallChanges, hfast] at hK
    obtain ⟨call, ret, w₁, rfl, hi, rfl⟩ := emittedFastCall_ok dc h
    exact hR.trans (hR.native hloop w.dyncallVm rfl hi hK) (hR.effect.jit w₁ _)
  | error message =>
    rw [hfast] at h
    cases h
    exact hR.control rfl rfl

theorem guestStep (hR : RunInvariant env atCall K R)
    (hloop : ∀ w w', loop w = .ok w' → (∀ c ∈ inside w, K c) → R w w') {w w' : World dc.Vm}
    (h : Sober.guestStep env loop w = .ok w')
    (hK : ∀ c ∈ guestStepChanges env atCall loop inside w, K c) : R w w' := by
  have hissue : R w w.issue := hR.control rfl rfl
  cases hhint : hintException (read32 w.mem w.jit.pc) with
  | some e =>
    simp only [Sober.guestStep, hhint] at h
    cases e <;> cases h
    exact hR.control rfl rfl
  | none =>
    cases hsvc : decodeSvc (read32 w.mem w.jit.pc) with
    | some imm =>
      simp only [Sober.guestStep, hhint, hsvc] at h
      simp only [guestStepChanges, hhint, hsvc] at hK
      exact hR.trans hissue (hR.fastCall hloop h hK)
    | none =>
      cases hcpu : env.cpu (read32 w.mem w.jit.pc) w.jit w.mem with
      | none => simp [Sober.guestStep, hhint, hsvc, hcpu] at h
      | some result =>
        simp only [Sober.guestStep, hhint, hsvc, hcpu] at h
        simp only [guestStepChanges, hhint, hsvc, hcpu, List.forall_mem_singleton] at hK
        cases h
        exact hR.trans (hR.store w _ hK) (hR.control rfl rfl)

theorem runCode (hR : RunInvariant env atCall K R)
    (hloop : ∀ w w', loop w = .ok w' → (∀ c ∈ inside w, K c) → R w w') (n : ℕ)
    {w w' : World dc.Vm} {reason : BitVec 32}
    (h : Sober.runCode env loop n w = .ok (reason, w'))
    (hK : ∀ c ∈ runCodeChanges env atCall loop inside n w, K c) : R w w' := by
  induction n generalizing w with
  | zero => cases h
  | succ n ih =>
    rcases runCode_succ h with ⟨-, -, rfl⟩ | ⟨hhalt, w₁, hstep, hrest⟩
    · exact hR.control rfl rfl
    · rw [runCodeChanges, if_neg (not_not.mpr hhalt), hstep, List.forall_mem_append] at hK
      exact hR.trans (hR.guestStep hloop hstep hK.1) (ih hrest hK.2)

/-- The loop keeps the relation, whatever the depth of nested loops. -/
theorem executionLoop (hR : RunInvariant env atCall K R) (n : ℕ) (w w' : World dc.Vm)
    (h : Sober.executionLoop env n w = .ok w') (hK : ∀ c ∈ loopChanges env atCall n w, K c) :
    R w w' := by
  induction n generalizing w w' with
  | zero => cases h
  | succ n ih =>
    obtain ⟨reason, w₁, hjit, hrest⟩ := executionLoop_succ h
    simp only [loopChanges, hjit, List.forall_mem_append] at hK
    have hrun : R w w₁ := by
      refine hR.trans ?_ (hR.runCode ih n (jitRun_ok hjit).2 hK.1)
      exact hR.control rfl rfl
    rcases hrest with ⟨hsvc, w₂, hhandled, hloop⟩ | ⟨-, rfl⟩
    · rw [if_pos hsvc, hhandled, List.forall_mem_append] at hK
      have hcall := hR.handleCallSvc ih hhandled hK.2.1
      exact hR.trans hrun (hR.trans hcall (ih _ _ hloop hK.2.2))
    · exact hrun

end RunInvariant
end Sober
