import Sober.Fiber.Control

/-! # Where the assertion of a fiber fails

A fiber asserts that the JIT is not executing when it runs a routine. The JIT
executes during a native function exactly if the function was called from
compiled code, so a run on an idle JIT fails the assertion only inside a
function that has a fast call and runs guest code.
-/
namespace Sober
open Machine Abi

def FiberBody.RunsGuest : FiberBody → Prop
  | .done _ => False
  | .memory _ next => ∃ m, (next m).RunsGuest
  | .setRegister _ _ next => next.RunsGuest
  | .setVectorFirst _ _ next => next.RunsGuest
  | .getRegister _ next => ∃ v, (next v).RunsGuest
  | .getSaved next => ∃ regs, (next regs).RunsGuest
  | .setSaved _ next => next.RunsGuest
  | .run _ _ => True
  | .callee inner next => inner.RunsGuest ∨ ∃ v, (next v).RunsGuest

def NativeBody.RunsGuest : NativeBody → Prop
  | .ret _ => False
  | .abort => False
  | .memory _ next => ∃ m, (next m).RunsGuest
  | .callee inner next => inner.RunsGuest ∨ ∃ v, (next v).RunsGuest

def FiberBody.MustRun : FiberBody → Prop
  | .done _ => False
  | .memory _ next => ∀ m, (next m).MustRun
  | .setRegister _ _ next => next.MustRun
  | .setVectorFirst _ _ next => next.MustRun
  | .getRegister _ next => ∀ v, (next v).MustRun
  | .getSaved next => ∀ regs, (next regs).MustRun
  | .setSaved _ next => next.MustRun
  | .run _ _ => True
  | .callee inner next => inner.MustRun ∨ ∀ v, (next v).MustRun

def NativeBody.MustRun : NativeBody → Prop
  | .ret _ => False
  | .abort => False
  | .memory _ next => ∀ m, (next m).MustRun
  | .callee inner next => inner.MustRun ∨ ∀ v, (next v).MustRun

section Body
variable {Vm : Type} {run : Word → World Vm → Except Fault (World Vm)}

/-- A scope fails only in a routine it runs. -/
theorem FiberBody.exec_error (hrun : ∀ address w w', run address w = .ok w' → Calm w w')
    {body : FiberBody} {saved : SavedRegisters} {w : World Vm} {e : Fault}
    (h : body.exec run saved w = .error e) :
    body.RunsGuest ∧ ∃ address w₁, Calm w w₁ ∧ run address w₁ = .error e := by
  induction body generalizing saved w with
  | done v => cases h
  | memory f next ih =>
    rcases ih _ h with ⟨hg, address, w₁, hc, he⟩
    exact ⟨⟨_, hg⟩, address, w₁, (Calm.memory w _).trans hc, he⟩
  | setRegister index v next ih =>
    rcases ih h with ⟨hg, address, w₁, hc, he⟩
    exact ⟨hg, address, w₁, (Calm.jit w _).trans hc, he⟩
  | setVectorFirst index v next ih =>
    rcases ih h with ⟨hg, address, w₁, hc, he⟩
    exact ⟨hg, address, w₁, (Calm.jit w _).trans hc, he⟩
  | getRegister index next ih =>
    rcases ih _ h with ⟨hg, hrest⟩
    exact ⟨⟨_, hg⟩, hrest⟩
  | getSaved next ih =>
    rcases ih _ h with ⟨hg, hrest⟩
    exact ⟨⟨_, hg⟩, hrest⟩
  | setSaved regs next ih => exact ih h
  | run address next ih =>
    rw [FiberBody.exec] at h
    cases hr : run address w with
    | error e' =>
      rw [hr] at h
      cases h
      exact ⟨trivial, address, w, Calm.refl w, hr⟩
    | ok w' =>
      rw [hr] at h
      rcases ih h with ⟨-, address', w₁, hc, he⟩
      exact ⟨trivial, address', w₁, (hrun _ _ _ hr).trans hc, he⟩
  | callee inner next ihi ih =>
    rw [FiberBody.exec] at h
    cases hi : inner.exec run (getSavedRegisters w.jit) w with
    | error e' =>
      rw [hi] at h
      cases h
      rcases ihi hi with ⟨hg, hrest⟩
      exact ⟨.inl hg, hrest⟩
    | ok result =>
      rw [hi] at h
      rcases ih _ h with ⟨hg, address, w₁, hc, he⟩
      have hinner := FiberBody.exec_calm hrun hi
      exact ⟨.inr ⟨_, hg⟩, address, w₁, (hinner.trans (Calm.jit _ _)).trans hc, he⟩

/-- A native function fails in a routine it runs, or it gives up. -/
theorem NativeBody.exec_error (hrun : ∀ address w w', run address w = .ok w' → Calm w w')
    {body : NativeBody} {w : World Vm} {e : Fault} (h : body.exec run w = .error e) :
    e = .terminate ∨
      body.RunsGuest ∧ ∃ address w₁, Calm w w₁ ∧ run address w₁ = .error e := by
  induction body generalizing w with
  | ret v => cases h
  | abort =>
    cases h
    exact .inl rfl
  | memory f next ih =>
    rcases ih _ h with he | ⟨hg, address, w₁, hc, he⟩
    · exact .inl he
    · exact .inr ⟨⟨_, hg⟩, address, w₁, (Calm.memory w _).trans hc, he⟩
  | callee inner next ih =>
    rw [NativeBody.exec] at h
    cases hi : inner.exec run (getSavedRegisters w.jit) w with
    | error e' =>
      rw [hi] at h
      cases h
      rcases FiberBody.exec_error hrun hi with ⟨hg, hrest⟩
      exact .inr ⟨.inl hg, hrest⟩
    | ok result =>
      rw [hi] at h
      have hinner := FiberBody.exec_calm hrun hi
      rcases ih _ h with he | ⟨hg, address, w₁, hc, he⟩
      · exact .inl he
      · exact .inr ⟨.inr ⟨_, hg⟩, address, w₁, (hinner.trans (Calm.jit _ _)).trans hc, he⟩

/-- Where every routine fails with `e`, so does a scope, or it returns there. -/
theorem FiberBody.exec_executing {e : Fault}
    (hfail : ∀ address w, w.isExecuting = true → run address w = .error e)
    (body : FiberBody) (saved : SavedRegisters) {w : World Vm} (hexec : w.isExecuting = true) :
    body.exec run saved w = .error e ∨ ∃ value regs w',
      body.exec run saved w = .ok (value, regs, w') ∧ w'.isExecuting = true := by
  induction body generalizing saved w with
  | done v => exact .inr ⟨v, saved, w, rfl, hexec⟩
  | memory f next ih => exact ih w.mem saved (w := { w with mem := f w.mem }) hexec
  | setRegister index v next ih =>
    exact ih saved (w := { w with jit := w.jit.setRegister index v }) hexec
  | setVectorFirst index v next ih =>
    exact ih saved (w := { w with jit := w.jit.setVectorFirst index v }) hexec
  | getRegister index next ih => exact ih _ saved hexec
  | getSaved next ih => exact ih saved saved hexec
  | setSaved regs next ih => exact ih regs hexec
  | run address next ih =>
    rw [FiberBody.exec, hfail address w hexec]
    exact .inl rfl
  | callee inner next ihi ih =>
    rw [FiberBody.exec]
    rcases ihi (getSavedRegisters w.jit) hexec with hi | ⟨value, regs, w', hi, hexec'⟩
    · rw [hi]
      exact .inl rfl
    · rw [hi]
      exact ih value saved (w := { w' with jit := restoreSavedRegisters regs w'.jit }) hexec'

theorem FiberBody.exec_of_mustRun {e : Fault}
    (hfail : ∀ address w, w.isExecuting = true → run address w = .error e)
    {body : FiberBody} (hbody : body.MustRun) (saved : SavedRegisters) {w : World Vm}
    (hexec : w.isExecuting = true) : body.exec run saved w = .error e := by
  induction body generalizing saved w with
  | done v => cases hbody
  | memory f next ih =>
    exact ih w.mem (hbody _) saved (w := { w with mem := f w.mem }) hexec
  | setRegister index v next ih =>
    exact ih hbody saved (w := { w with jit := w.jit.setRegister index v }) hexec
  | setVectorFirst index v next ih =>
    exact ih hbody saved (w := { w with jit := w.jit.setVectorFirst index v }) hexec
  | getRegister index next ih => exact ih _ (hbody _) saved hexec
  | getSaved next ih => exact ih saved (hbody _) saved hexec
  | setSaved regs next ih => exact ih hbody regs hexec
  | run address next ih => rw [FiberBody.exec, hfail address w hexec]
  | callee inner next ihi ih =>
    rw [FiberBody.exec]
    rcases FiberBody.exec_executing hfail inner (getSavedRegisters w.jit) hexec with
      hi | ⟨value, regs, w', hi, hexec'⟩
    · rw [hi]
    · rcases hbody with hinner | hnext
      · rw [ihi hinner (getSavedRegisters w.jit) hexec]
      · rw [hi]
        exact ih value (hnext value) saved
          (w := { w' with jit := restoreSavedRegisters regs w'.jit }) hexec'

theorem NativeBody.exec_of_mustRun {e : Fault}
    (hfail : ∀ address w, w.isExecuting = true → run address w = .error e)
    {body : NativeBody} (hbody : body.MustRun) {w : World Vm} (hexec : w.isExecuting = true) :
    body.exec run w = .error e := by
  induction body generalizing w with
  | ret v => cases hbody
  | abort => cases hbody
  | memory f next ih => exact ih w.mem (hbody _) (w := { w with mem := f w.mem }) hexec
  | callee inner next ih =>
    rw [NativeBody.exec]
    rcases FiberBody.exec_executing hfail inner (getSavedRegisters w.jit) hexec with
      hi | ⟨value, regs, w', hi, hexec'⟩
    · rw [hi]
    · rcases hbody with hinner | hnext
      · rw [FiberBody.exec_of_mustRun hfail hinner (getSavedRegisters w.jit) hexec]
      · rw [hi]
        exact ih value (hnext value)
          (w := { w' with jit := restoreSavedRegisters regs w'.jit }) hexec'

end Body

section Native
variable {dc : Dyncall} {env : Env dc.Vm} {loop : World dc.Vm → Except Fault (World dc.Vm)}

/-- Compiled code may call `func` directly, and `func` can run guest code. -/
def FastReenters (env : Env dc.Vm) (trampolines : List Trampoline) (func : Word) : Prop :=
  ∃ swi fc call, getSupervisorFastCall trampolines swi = .ok fc ∧ fc.function = func ∧
    call.func = func ∧ (env.native call).RunsGuest

theorem fiberRun_of_idle {Vm : Type} {loop : World Vm → Except Fault (World Vm)}
    {w : World Vm} (hidle : Idle w) (func address : Word) :
    fiberRun loop func address w =
      loop { w with jit := { w.jit.setRegister 30 w.guestExit with pc := address } } := by
  have hexec : ¬ w.isExecuting = true := by simp [hidle.isExecuting]
  rw [fiberRun, if_neg hexec]

/-- Called from compiled code, a function that fails the assertion does so itself. -/
theorem invoke_reentry_executing (hloop : ∀ w w', loop w = .ok w' → Calm w w')
    {call : NativeCall} {w : World dc.Vm} {func : Word}
    (h : env.invoke loop call w = .error (.reentry func)) (hexec : w.isExecuting = true) :
    call.func = func ∧ (env.native call).RunsGuest := by
  rcases NativeBody.exec_error (fiberRun_calm hloop call.func) h with
    he | ⟨hg, address, w₁, hc, he⟩
  · cases he
  · rw [fiberRun, (hc.executing hexec).1, if_pos rfl] at he
    cases he
    exact ⟨rfl, hg⟩

/-- Called by the handler, it fails in a loop that one of its fibers runs. -/
theorem invoke_reentry_idle (hloop : ∀ w w', loop w = .ok w' → Calm w w')
    {call : NativeCall} {w : World dc.Vm} {func : Word}
    (h : env.invoke loop call w = .error (.reentry func)) (hidle : Idle w) :
    ∃ w₁, w₁.trampolines = w.trampolines ∧ Idle w₁ ∧ loop w₁ = .error (.reentry func) := by
  rcases NativeBody.exec_error (fiberRun_calm hloop call.func) h with
    he | ⟨-, address, w₁, hc, he⟩
  · cases he
  · have hidle₁ := (hc.idle hidle).1
    rw [fiberRun_of_idle hidle₁] at he
    refine ⟨_, ?_, ?_, he⟩
    · exact hc.trampolines
    · exact ⟨hidle₁.isExecuting, hidle₁.haltReason⟩

/-- While the JIT executes, a function that must run guest code fails the assertion. -/
theorem invoke_of_mustRun {call : NativeCall} (hbody : (env.native call).MustRun)
    {w : World dc.Vm} (hexec : w.isExecuting = true) :
    env.invoke loop call w = .error (.reentry call.func) := by
  apply NativeBody.exec_of_mustRun _ hbody hexec
  intro address w' hexec'
  rw [fiberRun, if_pos hexec']

theorem hintException_of_svc {insn : BitVec 32} {imm : BitVec 16}
    (h : decodeSvc insn = some imm) : hintException insn = none := by
  rw [hintException]
  split_ifs with h₁ h₂ h₃ h₄ h₅
  · subst h₁
    cases h
  · subst h₂
    cases h
  · subst h₃
    cases h
  · subst h₄
    cases h
  · subst h₅
    cases h
  · rfl

/-- A supervisor call for which such a function has a fast call fails it. -/
theorem guestStep_of_mustRun {w : World dc.Vm} (hexec : w.isExecuting = true)
    {imm : BitVec 16} (hsvc : decodeSvc (read32 w.mem w.jit.pc) = some imm)
    {fc : SupervisorFastCall}
    (hfast : getSupervisorFastCall w.trampolines (imm.setWidth 32) = .ok fc)
    (hbody : ∀ call, call.func = fc.function → (env.native call).MustRun) :
    guestStep env loop w = .error (.reentry fc.function) := by
  simp only [guestStep, hintException_of_svc hsvc, hsvc, emitA64CallSupervisor, hfast,
    emittedFastCall]
  rw [invoke_of_mustRun]
  · exact hbody _ rfl
  · exact hexec

theorem guestStep_reentry (hloop : ∀ w w', loop w = .ok w' → Calm w w') {w : World dc.Vm}
    {func : Word} (h : guestStep env loop w = .error (.reentry func))
    (hexec : w.isExecuting = true) :
    FastReenters env w.trampolines func := by
  rcases guestStep_cases env loop w with
    ⟨e, -, hstep⟩ | ⟨imm, -, hstep⟩ | ⟨jit, mem, -, hstep⟩ | hstep
  · rw [hstep] at h
    cases e <;> cases h
  · rw [hstep, emitA64CallSupervisor] at h
    cases hfast : getSupervisorFastCall w.issue.trampolines (imm.setWidth 32) with
    | ok fc =>
      rw [hfast] at h
      rcases emittedFastCall_error dc h with ⟨call, hcall, hi⟩
      rcases invoke_reentry_executing hloop hi hexec with ⟨hfunc, hg⟩
      exact ⟨_, fc, call, hfast, by rw [← hfunc, hcall], hfunc, hg⟩
    | error message =>
      rw [hfast] at h
      cases h
  · rw [hstep] at h
    cases h
  · rw [hstep] at h
    cases h

theorem runCode_reentry (hloop : ∀ w w', loop w = .ok w' → Calm w w') (n : ℕ)
    {w : World dc.Vm} {func : Word} (h : runCode env loop n w = .error (.reentry func))
    (hexec : w.isExecuting = true) :
    FastReenters env w.trampolines func := by
  induction n generalizing w with
  | zero => cases h
  | succ n ih =>
    rw [runCode] at h
    by_cases hhalt : w.haltReason = 0
    · rw [if_neg (not_not.mpr hhalt)] at h
      cases hstep : guestStep env loop w with
      | error e =>
        rw [hstep] at h
        cases h
        exact guestStep_reentry hloop hstep hexec
      | ok w₁ =>
        rw [hstep] at h
        rcases guestStep_control hloop hexec hhalt hstep with ⟨hr, -, he, -⟩
        rw [← hr]
        exact ih h he
    · rw [if_pos hhalt] at h
      cases h

end Native

section Loop
variable {dc : Dyncall} {env : Env dc.Vm}

/-- From an idle JIT the assertion fails only in a function with a fast call,
whatever the depth of nested loops. -/
theorem executionLoop_reentry (n : ℕ) {w : World dc.Vm} {func : Word} (hidle : Idle w)
    (h : executionLoop env n w = .error (.reentry func)) :
    FastReenters env w.trampolines func := by
  induction n generalizing w with
  | zero => cases h
  | succ n ih =>
    rw [executionLoop] at h
    cases hj : jitRun env (executionLoop env n) n { w with jit := w.jit.clearExclusiveState } with
    | error e =>
      rw [hj] at h
      cases h
      rw [jitRun, hidle.isExecuting, if_neg Bool.false_ne_true] at hj
      have hfast := runCode_reentry (executionLoop_calm n) n hj rfl
      exact hfast
    | ok result =>
      rcases result with ⟨reason, w₁⟩
      simp only [hj] at h
      have hcalm := jitRun_calm (executionLoop_calm n) hj
      have hidle₁ := (hcalm.idle hidle).1
      rw [← hcalm.trampolines]
      by_cases hsvc : reason = haltSupervisorCall
      · rw [if_pos hsvc] at h
        cases hh : handleCallSvc dc (env.invoke (executionLoop env n)) (env.frame w₁)
            w₁.svcNumber w₁ with
        | ok w₂ =>
          simp only [hh] at h
          have hcalm₂ := handleCallSvc_calm (executionLoop_calm n) hh
          rw [← hcalm₂.trampolines]
          exact ih (hcalm₂.idle hidle₁).1 h
        | error e =>
          simp only [hh] at h
          cases h
          rcases handleCallSvc_cases dc (env.frame w₁) w₁.svcNumber w₁ with
            ⟨t, r, c, -, -, hcall⟩ | ⟨vm, cerr, hreport⟩ | ⟨e, hne, hfault⟩
          · rw [hcall] at hh
            rcases callNative_error dc hh with ⟨call, -, hi⟩
            rcases invoke_reentry_idle (executionLoop_calm n) hi
              ⟨hidle₁.isExecuting, hidle₁.haltReason⟩ with ⟨w₂, hr, hidle₂, hl⟩
            change w₂.trampolines = w₁.trampolines at hr
            rw [← hr]
            exact ih hidle₂ hl
          · rw [hreport] at hh
            cases hh
          · rw [hfault] at hh
            cases hh
            exact absurd rfl (hne func)
      · rw [if_neg hsvc] at h
        split_ifs at h
        cases h

/-- The same of a fiber that the host starts on an idle JIT. -/
theorem fiberRun_reentry (n : ℕ) {caller address func : Word} {w : World dc.Vm} (hidle : Idle w)
    (h : fiberRun (executionLoop env n) caller address w = .error (.reentry func)) :
    FastReenters env w.trampolines func := by
  rw [fiberRun_of_idle hidle] at h
  apply executionLoop_reentry n _ h
  exact ⟨hidle.isExecuting, hidle.haltReason⟩

end Loop
end Sober
