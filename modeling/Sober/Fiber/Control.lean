import Sober.Fiber.Execution

/-! # Control state through runs

While the JIT executes, a native function can only compute and return: running
a fiber stops it. While the JIT is idle, every fiber that returns leaves it
idle again. Both facts are one relation between the state before and after,
kept by every layer of execution.
-/
namespace Sober
open Machine Abi

/-- Between two runs of the JIT: nothing executes and no halt is pending. -/
structure Idle {Vm : Type} (w : World Vm) : Prop where
  isExecuting : w.isExecuting = false
  haltReason : w.haltReason = 0

structure Calm {Vm : Type} (w w' : World Vm) : Prop where
  trampolines : w'.trampolines = w.trampolines
  guestExit : w'.guestExit = w.guestExit
  executing : w.isExecuting = true → w'.isExecuting = true ∧ w'.haltReason = w.haltReason ∧
    w'.executed = w.executed
  idle : Idle w → Idle w' ∧ ∃ more, w'.executed = w.executed ++ more

namespace Calm
variable {Vm : Type} {w w₁ w₂ : World Vm}

theorem refl (w : World Vm) : Calm w w where
  trampolines := rfl
  guestExit := rfl
  executing h := ⟨h, rfl, rfl⟩
  idle h := ⟨h, [], by simp⟩

theorem trans (h₁ : Calm w w₁) (h₂ : Calm w₁ w₂) : Calm w w₂ where
  trampolines := h₂.trampolines.trans h₁.trampolines
  guestExit := h₂.guestExit.trans h₁.guestExit
  executing h := by
    rcases h₁.executing h with ⟨he, hr, ht⟩
    rcases h₂.executing he with ⟨he', hr', ht'⟩
    exact ⟨he', hr'.trans hr, ht'.trans ht⟩
  idle h := by
    rcases h₁.idle h with ⟨hi, more, ht⟩
    rcases h₂.idle hi with ⟨hi', more', ht'⟩
    exact ⟨hi', more ++ more', by rw [ht', ht, List.append_assoc]⟩

theorem jit (w : World Vm) (j : JitState) : Calm w { w with jit := j } where
  trampolines := rfl
  guestExit := rfl
  executing h := ⟨h, rfl, rfl⟩
  idle h := ⟨⟨h.isExecuting, h.haltReason⟩, [], by simp⟩

theorem memory (w : World Vm) (m : Memory) : Calm w { w with mem := m } where
  trampolines := rfl
  guestExit := rfl
  executing h := ⟨h, rfl, rfl⟩
  idle h := ⟨⟨h.isExecuting, h.haltReason⟩, [], by simp⟩

theorem effect : Effect (@Calm Vm) where
  refl := refl
  trans := trans
  jit := jit

end Calm

section Body
variable {Vm : Type} {run : Word → World Vm → Except Fault (World Vm)}

theorem FiberBody.exec_calm (hrun : ∀ address w w', run address w = .ok w' → Calm w w')
    {body : FiberBody} {saved regs : SavedRegisters} {w w' : World Vm} {value : HostReturn}
    (h : body.exec run saved w = .ok (value, regs, w')) : Calm w w' :=
  FiberBody.exec_keeps Calm.effect (fun _ _ w => Calm.memory w _) hrun body.stores_true h

theorem NativeBody.exec_calm (hrun : ∀ address w w', run address w = .ok w' → Calm w w')
    {body : NativeBody} {w w' : World Vm} {value : HostReturn}
    (h : body.exec run w = .ok (value, w')) : Calm w w' :=
  NativeBody.exec_keeps Calm.effect (fun _ _ w => Calm.memory w _) hrun body.stores_true h

end Body

section Native
variable {dc : Dyncall} {env : Env dc.Vm} {loop : World dc.Vm → Except Fault (World dc.Vm)}

theorem fiberRun_calm {Vm : Type} {loop : World Vm → Except Fault (World Vm)}
    (hloop : ∀ w w', loop w = .ok w' → Calm w w') (func address : Word) (w w' : World Vm)
    (h : fiberRun loop func address w = .ok w') : Calm w w' :=
  Calm.effect.fiberRun hloop func address w w' h

theorem invoke_calm (hloop : ∀ w w', loop w = .ok w' → Calm w w') {call : NativeCall}
    {w w' : World dc.Vm} {ret : HostReturn} (h : env.invoke loop call w = .ok (ret, w')) :
    Calm w w' :=
  NativeBody.exec_calm (fiberRun_calm hloop call.func) h

theorem Calm.withCall {Vm : Type} (w : World Vm) (vm : Vm) (call : NativeCall) :
    Calm w { w with dyncallVm := vm, calls := w.calls ++ [call] } where
  trampolines := rfl
  guestExit := rfl
  executing h := ⟨h, rfl, rfl⟩
  idle h := ⟨⟨h.isExecuting, h.haltReason⟩, [], by simp⟩

theorem handleCallSvc_calm (hloop : ∀ w w', loop w = .ok w' → Calm w w') {frame : HandlerFrame}
    {swi : BitVec 32} {w w' : World dc.Vm}
    (h : handleCallSvc dc (env.invoke loop) frame swi w = .ok w') : Calm w w' := by
  rcases handleCallSvc_cases dc frame swi w with
    ⟨t, r, c, -, -, hcall⟩ | ⟨vm, cerr, hreport⟩ | ⟨e, -, hfault⟩
  · rw [hcall] at h
    rcases callNative_ok dc h with ⟨call, ret, w₁, -, hi, rfl⟩
    exact ((Calm.withCall w _ _).trans (invoke_calm hloop hi)).trans (Calm.jit _ _)
  · rw [hreport] at h
    cases h
    exact ⟨rfl, rfl, fun h => ⟨h, rfl, rfl⟩,
      fun h => ⟨⟨h.isExecuting, h.haltReason⟩, [], by simp⟩⟩
  · rw [hfault] at h
    cases h

/-- A supervisor call compiled into the guest code asks at most for the handler. -/
theorem emitA64CallSupervisor_control (hloop : ∀ w w', loop w = .ok w' → Calm w w')
    {host : HostEntry} {swi : BitVec 32} {w w' : World dc.Vm}
    (h : emitA64CallSupervisor dc (env.invoke loop) host swi w = .ok w')
    (hexec : w.isExecuting = true) :
    w'.trampolines = w.trampolines ∧ w'.guestExit = w.guestExit ∧ w'.isExecuting = true ∧
      w'.executed = w.executed ∧
      (w'.haltReason = w.haltReason ∨ w'.haltReason = w.haltReason ||| haltSupervisorCall) := by
  rw [emitA64CallSupervisor] at h
  cases hfast : getSupervisorFastCall w.trampolines swi with
  | ok fc =>
    rw [hfast] at h
    rcases emittedFastCall_ok dc h with ⟨call, ret, w₁, -, hi, rfl⟩
    have hcalm := (Calm.withCall w w.dyncallVm call).trans (invoke_calm hloop hi)
    rcases hcalm.executing hexec with ⟨he, hr, ht⟩
    exact ⟨hcalm.trampolines, hcalm.guestExit, he, ht, .inl hr⟩
  | error message =>
    rw [hfast] at h
    cases h
    exact ⟨rfl, rfl, hexec, rfl, .inr rfl⟩

theorem hintException_yield {insn : BitVec 32} (h : hintException insn = some .yield) :
    insn = encodeYield := by
  by_contra hn
  simp only [hintException, if_neg hn] at h
  split_ifs at h <;> cases h

/-- The instruction at the program counter is recorded and passed. -/
def World.issue {Vm : Type} (w : World Vm) : World Vm :=
  { w with
    executed := w.executed ++ [(w.jit.pc, read32 w.mem w.jit.pc)]
    jit := { w.jit with pc := w.jit.pc + 4 } }

/-- The four ways of one guest instruction. -/
theorem guestStep_cases (env : Env dc.Vm) (loop : World dc.Vm → Except Fault (World dc.Vm))
    (w : World dc.Vm) :
    (∃ e, hintException (read32 w.mem w.jit.pc) = some e ∧
      guestStep env loop w = exceptionRaised w.jit.pc e w.issue) ∨
    (∃ imm, decodeSvc (read32 w.mem w.jit.pc) = some imm ∧ guestStep env loop w =
      emitA64CallSupervisor dc (env.invoke loop) (env.host w.issue) (imm.setWidth 32) w.issue) ∨
    (∃ jit mem, env.cpu (read32 w.mem w.jit.pc) w.jit w.mem = some (jit, mem) ∧
      guestStep env loop w = .ok { w.issue with jit := jit, mem := mem }) ∨
    guestStep env loop w = .error .assertion := by
  cases hhint : hintException (read32 w.mem w.jit.pc) with
  | some e =>
    left
    exact ⟨e, rfl, by simp only [guestStep, hhint]; rfl⟩
  | none =>
    right
    cases hsvc : decodeSvc (read32 w.mem w.jit.pc) with
    | some imm =>
      left
      exact ⟨imm, rfl, by simp only [guestStep, hhint, hsvc]; rfl⟩
    | none =>
      right
      cases hcpu : env.cpu (read32 w.mem w.jit.pc) w.jit w.mem with
      | none =>
        right
        simp only [guestStep, hhint, hsvc, hcpu]
      | some result =>
        left
        exact ⟨result.1, result.2, rfl, by simp only [guestStep, hhint, hsvc, hcpu]; rfl⟩

/-- One guest instruction: it is recorded, and only a YIELD asks for the exit. -/
theorem guestStep_control (hloop : ∀ w w', loop w = .ok w' → Calm w w') {w w' : World dc.Vm}
    (hexec : w.isExecuting = true) (hhalt : w.haltReason = 0)
    (h : guestStep env loop w = .ok w') :
    w'.trampolines = w.trampolines ∧ w'.guestExit = w.guestExit ∧ w'.isExecuting = true ∧
      w'.executed = w.executed ++ [(w.jit.pc, read32 w.mem w.jit.pc)] ∧
      (w'.haltReason = haltSuccessfulExit → read32 w.mem w.jit.pc = encodeYield) := by
  rcases guestStep_cases env loop w with
    ⟨e, hhint, hstep⟩ | ⟨imm, -, hstep⟩ | ⟨jit, mem, -, hstep⟩ | hstep
  · rw [hstep] at h
    cases e <;> cases h
    exact ⟨rfl, rfl, hexec, rfl, fun _ => hintException_yield hhint⟩
  · rw [hstep] at h
    rcases emitA64CallSupervisor_control hloop h hexec with ⟨hr, hg, he, ht, hreason⟩
    refine ⟨hr, hg, he, ht, fun hexit => ?_⟩
    rw [show w.issue.haltReason = 0 from hhalt, hexit] at hreason
    rcases hreason with hreason | hreason <;> cases hreason
  · rw [hstep] at h
    cases h
    refine ⟨rfl, rfl, hexec, rfl, fun hexit => ?_⟩
    rw [show w.issue.haltReason = 0 from hhalt] at hexit
    cases hexit
  · rw [hstep] at h
    cases h

/-- The recorded instructions since `start` end in the YIELD that asks for the exit. -/
def EndsInYield (start : List (Word × BitVec 32)) {Vm : Type} (w : World Vm) : Prop :=
  ∃ before pc, w.executed = start ++ before ++ [(pc, encodeYield)]

/-- The inversion of one turn of the JIT: it halts, or executes an instruction. -/
theorem runCode_succ {n : ℕ} {w w' : World dc.Vm} {reason : BitVec 32}
    (h : runCode env loop (n + 1) w = .ok (reason, w')) :
    (w.haltReason ≠ 0 ∧ reason = w.haltReason ∧
        w' = { w with haltReason := 0, isExecuting := false }) ∨
      (w.haltReason = 0 ∧ ∃ w₁, guestStep env loop w = .ok w₁ ∧
        runCode env loop n w₁ = .ok (reason, w')) := by
  rw [runCode] at h
  by_cases hhalt : w.haltReason = 0
  · rw [if_neg (not_not.mpr hhalt)] at h
    cases hstep : guestStep env loop w with
    | error e =>
      rw [hstep] at h
      cases h
    | ok w₁ =>
      rw [hstep] at h
      exact .inr ⟨hhalt, w₁, rfl, h⟩
  · rw [if_pos hhalt] at h
    cases h
    exact .inl ⟨hhalt, rfl, rfl⟩

/-- The JIT comes back idle, and with the exit only right after a YIELD. -/
theorem runCode_control (hloop : ∀ w w', loop w = .ok w' → Calm w w') (n : ℕ)
    {w w' : World dc.Vm} {reason : BitVec 32} {start : List (Word × BitVec 32)}
    (h : runCode env loop n w = .ok (reason, w')) (hexec : w.isExecuting = true)
    (htrace : ∃ more, w.executed = start ++ more) :
    w'.trampolines = w.trampolines ∧ w'.guestExit = w.guestExit ∧ Idle w' ∧
      (∃ more, w'.executed = start ++ more) ∧
      ((w.haltReason = haltSuccessfulExit → EndsInYield start w) →
        reason = haltSuccessfulExit → EndsInYield start w') := by
  induction n generalizing w with
  | zero => cases h
  | succ n ih =>
    rcases runCode_succ h with ⟨-, rfl, rfl⟩ | ⟨hhalt, w₁, hstep, hrest⟩
    · exact ⟨rfl, rfl, ⟨rfl, rfl⟩, htrace, fun hpending => hpending⟩
    · rcases guestStep_control hloop hexec hhalt hstep with ⟨hr, hg, he, ht, hyield⟩
      rcases htrace with ⟨more, hmore⟩
      have htrace₁ : w₁.executed = start ++ more ++ [(w.jit.pc, read32 w.mem w.jit.pc)] := by
        rw [ht, hmore]
      rcases ih hrest he ⟨_, htrace₁.trans (List.append_assoc _ _ _)⟩ with
        ⟨hr', hg', hidle, htrace', hend⟩
      refine ⟨hr'.trans hr, hg'.trans hg, hidle, htrace', fun _ => hend ?_⟩
      intro hexit
      rw [hyield hexit] at htrace₁
      exact ⟨more, _, htrace₁⟩

theorem jitRun_ok {n : ℕ} {w : World dc.Vm} {result : BitVec 32 × World dc.Vm}
    (h : jitRun env loop n w = .ok result) :
    w.isExecuting = false ∧ runCode env loop n { w with isExecuting := true } = .ok result := by
  rw [jitRun] at h
  split_ifs at h with he
  exact ⟨Bool.eq_false_iff.mpr he, h⟩

theorem jitRun_control (hloop : ∀ w w', loop w = .ok w' → Calm w w') (n : ℕ)
    {w w' : World dc.Vm} {reason : BitVec 32} (h : jitRun env loop n w = .ok (reason, w')) :
    w'.trampolines = w.trampolines ∧ w'.guestExit = w.guestExit ∧ Idle w' ∧
      (∃ more, w'.executed = w.executed ++ more) ∧
      (w.haltReason = 0 → reason = haltSuccessfulExit → EndsInYield w.executed w') := by
  rcases runCode_control hloop n (jitRun_ok h).2 rfl ⟨[], (List.append_nil _).symm⟩ with
    ⟨hr, hg, hidle, htrace, hend⟩
  refine ⟨hr, hg, hidle, htrace, fun hhalt => hend ?_⟩
  intro hexit
  simp only [hhalt] at hexit
  cases hexit

end Native

section Loop
variable {dc : Dyncall} {env : Env dc.Vm}

/-- The inversion of one turn of the loop. -/
theorem executionLoop_succ {n : ℕ} {w w' : World dc.Vm}
    (h : executionLoop env (n + 1) w = .ok w') :
    ∃ reason w₁, jitRun env (executionLoop env n) n
        { w with jit := w.jit.clearExclusiveState } = .ok (reason, w₁) ∧
      ((reason = haltSupervisorCall ∧ ∃ w₂,
          handleCallSvc dc (env.invoke (executionLoop env n)) (env.frame w₁) w₁.svcNumber w₁ =
            .ok w₂ ∧ executionLoop env n w₂ = .ok w') ∨
        (reason = haltSuccessfulExit ∧ w' = w₁)) := by
  rw [executionLoop] at h
  cases hj : jitRun env (executionLoop env n) n { w with jit := w.jit.clearExclusiveState } with
  | error e =>
    rw [hj] at h
    cases h
  | ok result =>
    rcases result with ⟨reason, w₁⟩
    simp only [hj] at h
    split_ifs at h with hsvc hexit
    · cases hh : handleCallSvc dc (env.invoke (executionLoop env n)) (env.frame w₁)
          w₁.svcNumber w₁ with
      | error e =>
        simp [hh] at h
      | ok w₂ =>
        simp only [hh] at h
        exact ⟨reason, w₁, rfl, .inl ⟨hsvc, w₂, hh, h⟩⟩
    · exact ⟨reason, w₁, rfl, .inr ⟨hexit, (Except.ok.inj h).symm⟩⟩

/-- One run of the JIT inside the loop is calm. -/
theorem jitRun_calm {n : ℕ} (hloop : ∀ w w', executionLoop env n w = .ok w' → Calm w w')
    {w w₁ : World dc.Vm} {reason : BitVec 32}
    (hj : jitRun env (executionLoop env n) n { w with jit := w.jit.clearExclusiveState } =
      .ok (reason, w₁)) : Calm w w₁ := by
  have hexec := (jitRun_ok hj).1
  rcases jitRun_control hloop n hj with ⟨hr, hg, hidle, ⟨more, htrace⟩, -⟩
  refine ⟨hr, hg, fun he => ?_, fun _ => ⟨hidle, more, htrace⟩⟩
  rw [he] at hexec
  cases hexec

/-- The loop is calm, nested loops included. -/
theorem executionLoop_calm (n : ℕ) (w w' : World dc.Vm) (h : executionLoop env n w = .ok w') :
    Calm w w' := by
  induction n generalizing w w' with
  | zero => cases h
  | succ n ih =>
    rcases executionLoop_succ h with ⟨reason, w₁, hj, ⟨-, w₂, hh, hrest⟩ | ⟨-, rfl⟩⟩
    · exact ((jitRun_calm ih hj).trans (handleCallSvc_calm ih hh)).trans (ih _ _ hrest)
    · exact jitRun_calm ih hj

end Loop
end Sober
