import Sober.Fiber.Nesting
import Sober.Fiber.Stub
import Sober.SupervisorCall.FastPath
import Sober.Symbols.Callers

/-! # Calling a native function through its own trampoline

A fiber that is handed the code address of a registry entry places the
arguments as the guest's calling convention asks, runs the supervisor call and
the return of the entry, and leaves at the exit stub. What the function gets
back out of the guest registers is what was placed there.
-/
namespace Sober
open Machine Abi

namespace RoutineArg

def kind : RoutineArg → Kind
  | .integer _ => .integer
  | .float _ => .floating

def word : RoutineArg → Word
  | .integer value => value
  | .float bits => bits.setWidth 64

def Matches (arg : RoutineArg) (t : FunctionArgumentType) : Prop :=
  match arg with
  | .integer _ => t.kind? = some .integer
  | .float _ => t = .singlePrecisionFp

theorem Matches.kind? {arg : RoutineArg} {t : FunctionArgumentType} (h : arg.Matches t) :
    t.kind? = some arg.kind := by
  cases arg with
  | integer value => exact h
  | float bits =>
    cases h
    rfl

end RoutineArg

section Placement

/-- The registers after the arguments have been placed. -/
def placeArgs : List RoutineArg → ℕ → ℕ → JitState → JitState
  | [], _, _, j => j
  | .integer value :: args, registerIndex, vectorIndex, j =>
    placeArgs args (registerIndex + 1) vectorIndex (j.setRegister registerIndex value)
  | .float bits :: args, registerIndex, vectorIndex, j =>
    placeArgs args registerIndex (vectorIndex + 1) (j.setVectorFirst vectorIndex (bits.setWidth 64))

theorem exec_runWith {Vm : Type} (run : Word → World Vm → Except Fault (World Vm))
    (routine : Word) (next : FiberBody) (args : List RoutineArg) (x v : ℕ)
    (saved : SavedRegisters) (w : World Vm) :
    (FiberBody.runWith routine next args x v).exec run saved w =
      (FiberBody.run routine next).exec run saved { w with jit := placeArgs args x v w.jit } := by
  induction args generalizing x v w with
  | nil => rfl
  | cons arg args ih =>
    cases arg with
    | integer value => exact ih _ _ _
    | float bits => exact ih _ _ _

theorem getRegister_setRegister_of_ne {j : JitState} {i k : ℕ} (hi : i < 31) (h : i ≠ k)
    (value : Word) : (j.setRegister k value).getRegister i = j.getRegister i := by
  by_cases hk : k < 31
  · have hne : (⟨i, hi⟩ : Fin 31) ≠ ⟨k, hk⟩ := fun e => h (congrArg Fin.val e)
    simp [JitState.setRegister, JitState.getRegister, hi, hk, hne]
  · simp [JitState.setRegister, JitState.getRegister, hi, hk]

theorem getVector_setVectorFirst_of_ne {j : JitState} {i k : ℕ} (hi : i < 32) (hk : k < 32)
    (h : i ≠ k) (value : Word) : (j.setVectorFirst k value).getVector i = j.getVector i := by
  apply Function.update_of_ne
  intro e
  apply h
  have hval := congrArg Fin.val e
  simp only [Fin.val_ofNat] at hval
  omega

/-- Arguments placed later leave the argument registers in use alone. -/
theorem placeArgs_keeps (args : List RoutineArg) {x v : ℕ} (j : JitState)
    (hv : v + (args.map RoutineArg.kind).count .floating ≤ 8) :
    (∀ i < x, i < 31 → (placeArgs args x v j).getRegister i = j.getRegister i) ∧
      ∀ i < v, (placeArgs args x v j).getVector i = j.getVector i := by
  induction args generalizing x v j with
  | nil => exact ⟨fun _ _ _ => rfl, fun _ _ => rfl⟩
  | cons arg args ih =>
    cases arg with
    | integer value =>
      obtain ⟨hreg, hvec⟩ := ih (x := x + 1) (v := v) (j.setRegister x value)
        (by simpa [RoutineArg.kind] using hv)
      refine ⟨fun i hi hlt => ?_, fun i hi => ?_⟩
      · rw [placeArgs, hreg i (by omega) hlt, getRegister_setRegister_of_ne hlt (by omega)]
      · rw [placeArgs, hvec i hi]
        simp only [JitState.setRegister, JitState.getVector]
        split_ifs <;> rfl
    | float bits =>
      have hv' : v + 1 + (args.map RoutineArg.kind).count .floating ≤ 8 := by
        simp only [List.map_cons, RoutineArg.kind, List.count_cons_self] at hv
        omega
      obtain ⟨hreg, hvec⟩ := ih (x := x) (v := v + 1) (j.setVectorFirst v (bits.setWidth 64)) hv'
      refine ⟨fun i hi hlt => ?_, fun i hi => ?_⟩
      · rw [placeArgs, hreg i hi hlt]
        rfl
      · rw [placeArgs, hvec i (by omega),
          getVector_setVectorFirst_of_ne (by omega) (by omega) (by omega)]

theorem readAfter_placeArgs (args : List RoutineArg) (ks : List Kind) (m : Memory) (j : JitState)
    (hx : ks.count .integer + (args.map RoutineArg.kind).count .integer ≤ 8)
    (hv : ks.count .floating + (args.map RoutineArg.kind).count .floating ≤ 8) :
    aapcs64.readAfter
        ((placeArgs args (ks.count .integer) (ks.count .floating) j).argState m) ks
        (args.map RoutineArg.kind) = args.map RoutineArg.word := by
  induction args generalizing ks j with
  | nil => rfl
  | cons arg args ih =>
    cases arg with
    | integer value =>
      simp only [List.map_cons, RoutineArg.kind, List.count_cons_self] at hx
      simp only [List.map_cons, RoutineArg.kind, List.count_cons_of_ne
        (show Kind.integer ≠ .floating by decide)] at hv
      have hi : ks.count .integer < aapcs64.limit .integer := show _ < 8 by omega
      have htail := ih (ks ++ [.integer]) (j.setRegister (ks.count .integer) value)
        (by simp only [List.count_append, List.count_singleton_self]; omega)
        (by simpa [List.count_append] using hv)
      have hhead := (placeArgs_keeps args (x := ks.count .integer + 1) (v := ks.count .floating)
        (j.setRegister (ks.count .integer) value) hv).1 (ks.count .integer) (by omega)
        (lt_of_lt_of_le hi (by decide))
      simp only [List.count_append, List.count_singleton_self,
        List.count_singleton, beq_iff_eq, reduceCtorEq, if_false, Nat.add_zero] at htail
      simp only [List.map_cons, RoutineArg.kind, placeArgs, Convention.readAfter, htail,
        Convention.next_of_lt hi, ArgState.at, JitState.argState_integer, hhead]
      have hlt : ks.count .integer < 31 := lt_of_lt_of_le hi (by decide)
      simp [JitState.setRegister, JitState.getRegister, hlt, RoutineArg.word]
    | float bits =>
      simp only [List.map_cons, RoutineArg.kind, List.count_cons_self] at hv
      simp only [List.map_cons, RoutineArg.kind, List.count_cons_of_ne
        (show Kind.floating ≠ .integer by decide)] at hx
      have hi : ks.count .floating < aapcs64.limit .floating := show _ < 8 by omega
      have htail := ih (ks ++ [.floating])
        (j.setVectorFirst (ks.count .floating) (bits.setWidth 64))
        (by simpa [List.count_append] using hx)
        (by simp only [List.count_append, List.count_singleton_self]; omega)
      have hhead := (placeArgs_keeps args (x := ks.count .integer) (v := ks.count .floating + 1)
        (j.setVectorFirst (ks.count .floating) (bits.setWidth 64)) (by omega)).2
        (ks.count .floating) (by omega)
      simp only [List.count_append, List.count_singleton_self,
        List.count_singleton, beq_iff_eq, reduceCtorEq, if_false, Nat.add_zero] at htail
      simp only [List.map_cons, RoutineArg.kind, placeArgs, Convention.readAfter, htail,
        Convention.next_of_lt hi, ArgState.at, JitState.argState_floating, hhead]
      simp [JitState.setVectorFirst, JitState.setVector, JitState.getVector, RoutineArg.word]

end Placement
section Execution
variable {dc : Dyncall} {env : Env dc.Vm} {loop : World dc.Vm → Except Fault (World dc.Vm)}

def ExecutesRet (env : Env dc.Vm) : Prop :=
  ∀ j m, env.cpu encodeRet j m = some ({ j with pc := j.getRegister 30 }, m)

theorem guestStep_of_svc {w : World dc.Vm} {imm : BitVec 16}
    (h : decodeSvc (read32 w.mem w.jit.pc) = some imm) : guestStep env loop w =
      emitA64CallSupervisor dc (env.invoke loop) (env.host w.issue) (imm.setWidth 32) w.issue := by
  simp only [guestStep, hintException_of_svc h, h]
  rfl

theorem guestStep_of_ret (hret : ExecutesRet env) {w : World dc.Vm}
    (h : read32 w.mem w.jit.pc = encodeRet) : guestStep env loop w =
      .ok { w.issue with jit := { w.jit with pc := w.jit.getRegister 30 } } := by
  simp only [guestStep, h, hintException_encodeRet, decodeSvc_encodeRet, hret _ _, World.issue]

theorem guestStep_of_yield {w : World dc.Vm} (h : read32 w.mem w.jit.pc = encodeYield) :
    guestStep env loop w =
      .ok { w.issue with haltReason := w.haltReason ||| haltSuccessfulExit } := by
  have hhint : hintException encodeYield = some .yield := rfl
  simp only [guestStep, h, hhint, exceptionRaised, World.issue]

theorem runCode_halted (n : ℕ) {w : World dc.Vm} (h : w.haltReason ≠ 0) :
    runCode env loop (n + 1) w =
      .ok (w.haltReason, { w with haltReason := 0, isExecuting := false }) := by
  rw [runCode, if_pos h]

theorem runCode_step (n : ℕ) {w w' : World dc.Vm} (hhalt : w.haltReason = 0)
    (h : guestStep env loop w = .ok w') :
    runCode env loop (n + 1) w = runCode env loop n w' := by
  rw [runCode, if_neg (not_not.mpr hhalt)]
  simp only [h]

/-- The end of every entry: a return to the exit stub, which leaves the guest. -/
theorem runCode_return (hret : ExecutesRet env) (n : ℕ) {w : World dc.Vm}
    (hhalt : w.haltReason = 0) (hpc : read32 w.mem w.jit.pc = encodeRet)
    (hexit : read32 w.mem (w.jit.getRegister 30) = encodeYield) :
    ∃ w', runCode env loop (n + 3) w = .ok (haltSuccessfulExit, w') ∧ w'.calls = w.calls ∧
      w'.jit.getRegister 0 = w.jit.getRegister 0 := by
  let w₁ : World dc.Vm := { w.issue with jit := { w.jit with pc := w.jit.getRegister 30 } }
  let w₂ : World dc.Vm := { w₁.issue with haltReason := w₁.haltReason ||| haltSuccessfulExit }
  have hhalt₂ : w₂.haltReason = haltSuccessfulExit := by
    change w.haltReason ||| haltSuccessfulExit = _
    rw [hhalt]
    rfl
  have hyield : guestStep env loop w₁ = .ok w₂ := guestStep_of_yield hexit
  have hleave : runCode env loop (n + 1) w₂ = _ := runCode_halted n (by rw [hhalt₂]; decide)
  rw [hhalt₂] at hleave
  refine ⟨{ w₂ with haltReason := 0, isExecuting := false }, ?_, rfl, rfl⟩
  rw [runCode_step (n + 2) hhalt (guestStep_of_ret hret hpc)]
  exact (runCode_step (n + 1) (w := w₁) hhalt hyield).trans hleave

theorem executionLoop_of_exit {n : ℕ} {w w' : World dc.Vm} (hidle : Idle w)
    (h : runCode env (executionLoop env n) n { w with
      jit := w.jit.clearExclusiveState, isExecuting := true } = .ok (haltSuccessfulExit, w')) :
    executionLoop env (n + 1) w = .ok w' := by
  have hexec : ¬ w.isExecuting = true := by simp [hidle.isExecuting]
  have hne : haltSuccessfulExit ≠ haltSupervisorCall := by decide
  simp only [executionLoop, jitRun, if_neg hexec, h, if_neg hne, if_true]

theorem executionLoop_of_svc {n : ℕ} {w w₁ w₂ : World dc.Vm} (hidle : Idle w)
    (h : runCode env (executionLoop env n) n { w with
      jit := w.jit.clearExclusiveState, isExecuting := true } = .ok (haltSupervisorCall, w₁))
    (hhandle : handleCallSvc dc (env.invoke (executionLoop env n)) (env.frame w₁) w₁.svcNumber w₁ =
      .ok w₂) : executionLoop env (n + 1) w = executionLoop env n w₂ := by
  have hexec : ¬ w.isExecuting = true := by simp [hidle.isExecuting]
  simp only [executionLoop, jitRun, if_neg hexec, h, if_true, hhandle]

/-- The code buffer is part of the memory that the guest executes from. -/
def HoldsCode (mem : Memory) (s : TrampolineState) : Prop :=
  ∀ a word, s.loadAt a = some word → read32 mem a = word

/-- Called with these arguments and with this memory, the function of an entry returns without
running guest code, keeps the saved guest registers and does not write to the code buffer. -/
def RunsHostOnly (env : Env dc.Vm) (s : TrampolineState) (t : Trampoline) (args : List Word)
    (mem : Memory) : Prop :=
  ∀ (call : NativeCall) (w : World dc.Vm), call.func = t.nativeFunc →
    systemV.read t.types.kinds call.entry.args = args → w.mem = mem →
    ∃ ret j mem', (∀ run, (env.native call).exec run w =
        .ok (ret, { w with jit := j, mem := mem' })) ∧
      getSavedRegisters j = getSavedRegisters w.jit ∧ HoldsCode mem' s

theorem wordAddress_add_four (base : Word) (i : ℕ) :
    wordAddress base i + 4 = wordAddress base (i + 1) := by
  rw [wordAddress, wordAddress, BitVec.add_assoc, Nat.mul_succ, BitVec.ofNat_add]
  rfl

namespace Layout
variable {m : Mapping} {calls : List CreateArgs} {s : TrampolineState}

theorem loadAt_ret (h : Layout m calls s) (hn : calls.length ≤ 8191) {i : ℕ}
    (hi : i < calls.length) :
    s.loadAt (wordAddress m.base (1 + 2 * i + 1)) = some encodeRet := by
  have hw : 1 + 2 * i + 1 < trampolineCodeWords := by
    simp only [trampolineCodeWords, trampolineCodeSize]
    omega
  rw [h.loadAt_wordAddress hw, ← loadWord_layout calls.length hw, loadWord_ret hn hi]

theorem loadAt_exit (h : Layout m calls s) :
    s.loadAt (wordAddress m.base 0) = some encodeYield :=
  h.loadAt_wordAddress (by decide)

/-- After the call the registers lead through the return to the exit stub. -/
theorem leaves (h : Layout m calls s) (hn : calls.length ≤ 8191) {i : ℕ} (hi : i < calls.length)
    {mem : Memory} (hcode : HoldsCode mem s) {j j' : JitState}
    (hpc : j.pc = wordAddress m.base (1 + 2 * i + 1))
    (hlink : j.getRegister 30 = wordAddress m.base 0)
    (hsaved : getSavedRegisters j' = getSavedRegisters j) :
    read32 mem j'.pc = encodeRet ∧ read32 mem (j'.getRegister 30) = encodeYield := by
  have hkept := CalleeSavedEq.of_saved hsaved
  rw [hkept.pc, hkept.reg 30 (by decide) (by decide), hpc, hlink]
  exact ⟨hcode _ _ (h.loadAt_ret hn hi), hcode _ _ h.loadAt_exit⟩

end Layout

/-- The state in which a fiber enters the code of entry `i`. -/
structure AtEntry (m : Mapping) (s : TrampolineState) (i : ℕ) (w : World dc.Vm) : Prop where
  halt : w.haltReason = 0
  trampolines : w.trampolines = s.trampolines
  code : HoldsCode w.mem s
  pc : w.jit.pc = wordAddress m.base (1 + 2 * i)
  link : w.jit.getRegister 30 = wordAddress m.base 0

/-- One call of the function was made, with the parameters that the guest
registers held, and the guest has left with its result. -/
def CalledOnce (env : Env dc.Vm) (t : Trampoline) (w w' : World dc.Vm) : Prop :=
  ∃ (call : NativeCall) (ret : HostReturn) (w₁ w₂ : World dc.Vm),
    w'.calls = w.calls ++ [call] ∧ call.func = t.nativeFunc ∧
    systemV.read t.types.kinds call.entry.args =
      aapcs64.read t.types.kinds (w.jit.argState w.mem) ∧
    w₁.calls = w.calls ++ [call] ∧ (∀ run, (env.native call).exec run w₁ = .ok (ret, w₂)) ∧
    (t.types.ret.returnType? = some .integer → w'.jit.getRegister 0 = ret.rax)

section Entry
variable {m : Mapping} {calls : List CreateArgs} {s : TrampolineState} {i : ℕ} {t : Trampoline}
  {w : World dc.Vm}

/-- The first instruction of an entry is its supervisor call. -/
theorem AtEntry.guestStep_eq (hw : AtEntry m s i w) (h : Layout m calls s)
    (hn : calls.length ≤ 8191) (hi : i < calls.length) :
    guestStep env loop w = emitA64CallSupervisor dc (env.invoke loop) (env.host w.issue)
      (BitVec.ofNat 32 (i + 16)) w.issue := by
  have hsvc : decodeSvc (read32 w.mem w.jit.pc) = some (BitVec.ofNat 16 (i + 16)) := by
    rw [hw.pc, hw.code _ _ (h.loadAt_entry hn hi), decodeSvc_svcWord (by omega)]
  rw [guestStep_of_svc hsvc, setWidth_identifier (by omega)]

theorem runCode_entry_fast (hret : ExecutesRet env)
    (hhost : RunsHostOnly env s t (aapcs64.read t.types.kinds (w.jit.argState w.mem)) w.mem)
    (h : Layout m calls s) (hn : calls.length ≤ 8191) (hi : i < calls.length)
    (hw : AtEntry m s i w) {fc : SupervisorFastCall} (he : FastEligible t fc)
    (hfast : getSupervisorFastCall s.trampolines (BitVec.ofNat 32 (i + 16)) = .ok fc) (n : ℕ) :
    ∃ w', runCode env loop (n + 4) w = .ok (haltSuccessfulExit, w') ∧ CalledOnce env t w w' := by
  let call : NativeCall := ⟨fc.function, fc.entry w.issue.jit (env.host w.issue), none⟩
  let w₁ : World dc.Vm := { w.issue with calls := w.issue.calls ++ [call] }
  have hread : systemV.read t.types.kinds call.entry.args =
      aapcs64.read t.types.kinds (w.jit.argState w.mem) := he.read_entry _ _ _
  obtain ⟨ret, j, mem, hexec, hsaved, hcode⟩ := hhost call w₁ he.function hread rfl
  let w₂ : World dc.Vm := { w₁ with
    jit := (storeResult fc.returnType ret j).clearExclusiveState, mem := mem }
  have hdelivered : ResultDelivered fc.returnType ret j j w₂.jit := storeResult_delivered _ _ _
  have hstep : guestStep env loop w = .ok w₂ := by
    rw [hw.guestStep_eq h hn hi, emitA64CallSupervisor]
    have hget : getSupervisorFastCall w.issue.trampolines (BitVec.ofNat 32 (i + 16)) = .ok fc := by
      change getSupervisorFastCall w.trampolines _ = _
      rw [hw.trampolines, hfast]
    have hinvoke : env.invoke loop call w₁ = .ok (ret, { w₁ with jit := j, mem := mem }) := hexec _
    simp only [hget, emittedFastCall]
    rw [hinvoke]
  have hpc : w.issue.jit.pc = wordAddress m.base (1 + 2 * i + 1) := by
    rw [← wordAddress_add_four, ← hw.pc]
    rfl
  obtain ⟨hpc₂, hlink₂⟩ := h.leaves hn hi hcode (j := w.issue.jit) hpc hw.link
    (hdelivered.getSavedRegisters_eq.trans hsaved)
  have hhalt : w₂.haltReason = 0 := hw.halt
  obtain ⟨w', hrun, hcalls, hx0⟩ := runCode_return hret n hhalt hpc₂ hlink₂
  refine ⟨w', (runCode_step (n + 3) hw.halt hstep).trans hrun, call, ret, w₁, _, hcalls,
    he.function, hread, rfl, hexec, ?_⟩
  intro hinteger
  rw [hx0, hdelivered.x0, if_pos]
  exact Option.some.inj (he.returnType.symm.trans hinteger)

/-- Without a fast call the guest is left at the supervisor call. -/
theorem runCode_entry_slow (h : Layout m calls s) (hn : calls.length ≤ 8191)
    (hi : i < calls.length) (hw : AtEntry m s i w) {message : Option String}
    (hslow : getSupervisorFastCall s.trampolines (BitVec.ofNat 32 (i + 16)) = .error message)
    (n : ℕ) :
    runCode env loop (n + 2) w = .ok (haltSupervisorCall, { w.issue with
      jit := w.issue.jit.clearExclusiveState
      svcNumber := BitVec.ofNat 32 (i + 16)
      haltReason := 0
      isExecuting := false }) := by
  have hget : getSupervisorFastCall w.issue.trampolines (BitVec.ofNat 32 (i + 16)) =
      .error message := by
    change getSupervisorFastCall w.trampolines _ = _
    rw [hw.trampolines, hslow]
  have hstep : guestStep env loop w =
      .ok (emittedCallSVC dc (BitVec.ofNat 32 (i + 16)) w.issue) := by
    rw [hw.guestStep_eq h hn hi, emitA64CallSupervisor]
    simp only [hget]
  have hhalt : (emittedCallSVC dc (BitVec.ofNat 32 (i + 16)) w.issue).haltReason =
      haltSupervisorCall := by
    change w.haltReason ||| haltSupervisorCall = _
    rw [hw.halt]
    rfl
  rw [runCode_step (n + 1) hw.halt hstep, runCode_halted n (by rw [hhalt]; decide), hhalt]
  rfl

/-- The handler makes the call from the halted state and the guest returns. -/
theorem executionLoop_handled (loop : World dc.Vm → Except Fault (World dc.Vm))
    (hret : ExecutesRet env)
    (hhost : RunsHostOnly env s t (aapcs64.read t.types.kinds (w.jit.argState w.mem)) w.mem)
    (h : Layout m calls s) (hn : calls.length ≤ 8191) (hi : i < calls.length)
    (hidle : Idle w) (hget : trampolineGetById w.trampolines (BitVec.ofNat 32 (i + 16)) = some t)
    (hfixed : t.isEllipsisFunction = false) (hs : t.types.Supported)
    (hpc : w.jit.pc = wordAddress m.base (1 + 2 * i + 1))
    (hlink : w.jit.getRegister 30 = wordAddress m.base 0) (frame : HandlerFrame) (n : ℕ) :
    ∃ w₃ w', handleCallSvc dc (env.invoke loop) frame (BitVec.ofNat 32 (i + 16)) w = .ok w₃ ∧
      executionLoop env (n + 4) w₃ = .ok w' ∧ CalledOnce env t w w' := by
  obtain ⟨r, c, hr, hpasses, hhandle⟩ :=
    handleCallSvc_of_supported dc frame hget hfixed hs
  let call : NativeCall := ⟨t.nativeFunc, dc.enter c.vm, some c.frame⟩
  let w₁ : World dc.Vm := { w with dyncallVm := c.vm, calls := w.calls ++ [call] }
  obtain ⟨ret, j, mem, hexec, hsaved, hcode⟩ := hhost call w₁ rfl hpasses.read_enter rfl
  let w₃ : World dc.Vm := { w₁ with jit := writeBack r w.jit ret j, mem := mem }
  have hdelivered : ResultDelivered r ret w.jit j w₃.jit := writeBack_delivered _ _ _ _
  have hcall : handleCallSvc dc (env.invoke loop) frame (BitVec.ofNat 32 (i + 16)) w = .ok w₃ := by
    have hinvoke : env.invoke loop call w₁ = .ok (ret, { w₁ with jit := j, mem := mem }) := hexec _
    rw [hhandle, callNative, hinvoke]
  obtain ⟨hpc₃, hlink₃⟩ := h.leaves hn hi hcode hpc hlink
    (hdelivered.getSavedRegisters_eq.trans hsaved)
  have hidle₃ : Idle w₃ := ⟨hidle.isExecuting, hidle.haltReason⟩
  let w₄ : World dc.Vm := { w₃ with jit := w₃.jit.clearExclusiveState, isExecuting := true }
  obtain ⟨w', hrun, hcalls, hx0⟩ :=
    runCode_return (w := w₄) hret n hidle₃.haltReason hpc₃ hlink₃
  refine ⟨w₃, w', hcall, executionLoop_of_exit hidle₃ hrun, call, ret, w₁, _, hcalls, rfl,
    hpasses.read_enter, rfl, hexec, ?_⟩
  intro hinteger
  have hx0₃ : w'.jit.getRegister 0 = w₃.jit.getRegister 0 := hx0
  rw [hx0₃, hdelivered.x0, if_pos]
  exact Option.some.inj (hr.symm.trans hinteger)

/-- A loop that starts at an entry returns, on either path. -/
theorem executionLoop_entry (hret : ExecutesRet env)
    (hhost : RunsHostOnly env s t (aapcs64.read t.types.kinds (w.jit.argState w.mem)) w.mem)
    (h : Layout m calls s) (hn : calls.length ≤ 8191) (hi : i < calls.length)
    (ht : trampolineMaybeGetById s.trampolines (BitVec.ofNat 32 (i + 16)) = some t)
    (hfixed : t.isEllipsisFunction = false) (hs : t.types.Supported) (hidle : Idle w)
    (hw : AtEntry m s i w) (n : ℕ) :
    ∃ w', executionLoop env (n + 5) w = .ok w' ∧ CalledOnce env t w w' := by
  let w₀ : World dc.Vm := { w with jit := w.jit.clearExclusiveState, isExecuting := true }
  have hw₀ : AtEntry m s i w₀ := ⟨hw.halt, hw.trampolines, hw.code, hw.pc, hw.link⟩
  cases hfast : getSupervisorFastCall s.trampolines (BitVec.ofNat 32 (i + 16)) with
  | ok fc =>
    obtain ⟨t', ht', he⟩ := getSupervisorFastCall_ok hfast
    rw [ht] at ht'
    cases ht'
    obtain ⟨w', hrun, hcalled⟩ := runCode_entry_fast (w := w₀) hret hhost h hn hi hw₀ he hfast n
    exact ⟨w', executionLoop_of_exit hidle hrun, hcalled⟩
  | error message =>
    let w₁ : World dc.Vm := { w₀.issue with
      jit := w₀.issue.jit.clearExclusiveState
      svcNumber := BitVec.ofNat 32 (i + 16)
      haltReason := 0
      isExecuting := false }
    have hslow : runCode env (executionLoop env (n + 4)) (n + 4) w₀ =
        .ok (haltSupervisorCall, w₁) := runCode_entry_slow h hn hi hw₀ hfast (n + 2)
    have hget : trampolineGetById w₁.trampolines (BitVec.ofNat 32 (i + 16)) = some t := by
      change trampolineGetById w.trampolines _ = _
      rw [hw.trampolines, trampolineGetById_of_maybe ht]
    have hpc : w₁.jit.pc = wordAddress m.base (1 + 2 * i + 1) := by
      rw [← wordAddress_add_four, ← hw.pc]
      rfl
    obtain ⟨w₃, w', hhandle, hrun, hcalled⟩ :=
      executionLoop_handled (executionLoop env (n + 4)) hret hhost h hn hi (w := w₁) ⟨rfl, rfl⟩
        hget hfixed hs hpc hw.link (env.frame w₁) n
    exact ⟨w', (executionLoop_of_svc hidle hslow hhandle).trans hrun, hcalled⟩

end Entry

end Execution
theorem kinds_of_matches {args : List RoutineArg} {ts : List FunctionArgumentType}
    (h : List.Forall₂ RoutineArg.Matches args ts) :
    ts.filterMap FunctionArgumentType.kind? = args.map RoutineArg.kind := by
  induction h with
  | nil => rfl
  | cons hmatch _ ih => rw [List.filterMap_cons_some hmatch.kind?, ih, List.map_cons]

/-- What a function reads when it is entered with placed arguments: the link
register and the program counter are no argument registers. -/
theorem read_placeArgs (args : List RoutineArg) (j : JitState) (mem : Memory)
    (link pc : Word) (hx : (args.map RoutineArg.kind).count .integer ≤ 8)
    (hv : (args.map RoutineArg.kind).count .floating ≤ 8) :
    aapcs64.read (args.map RoutineArg.kind)
      (({ (placeArgs args 0 0 j).setRegister 30 link with pc := pc } : JitState).argState mem) =
        args.map RoutineArg.word := by
  have hplaced := readAfter_placeArgs args [] mem j (by simpa using hx) (by simpa using hv)
  have hread := aapcs64.read_append [] (args.map RoutineArg.kind)
    ((placeArgs args 0 0 j).argState mem)
  rw [List.nil_append, Convention.read_nil, List.nil_append] at hread
  rw [← hplaced]
  refine Eq.trans ?_ hread
  apply List.map_congr_left
  intro l hl
  have hfit (k : Kind) : (args.map RoutineArg.kind).count k ≤ aapcs64.limit k := by
    cases k with
    | integer => exact hx
    | floating => exact hv
  rcases aapcs64.register_of_mem hfit hl with ⟨k, i, rfl, hi⟩
  cases k with
  | integer => exact getRegister_setRegister_of_ne (by omega) (by omega) link
  | floating => rfl

/-- For every entry of fixed arity with supported parameters that fit the
argument registers, and arguments that match them: a fiber that is run at the
entry's own code address returns, after exactly one call of the entry's
function, with exactly these arguments in order. Register 0 then holds an
integer result, and leaving the fiber restores the callee-saved registers. -/
theorem self_call_is_identity {dc : Dyncall} (env : Env dc.Vm) (m : Mapping)
    (calls : List CreateArgs) (s : TrampolineState) (hs : startUp (some m) calls = some s)
    (i : ℕ) (t : Trampoline) (ht : s.trampolines[i]? = some t)
    (hfixed : t.isEllipsisFunction = false) (hsupported : t.types.Supported)
    (hintegers : t.types.kinds.count .integer ≤ 8) (hfloats : t.types.kinds.count .floating ≤ 8)
    (args : List RoutineArg) (hargs : List.Forall₂ RoutineArg.Matches args t.types.params)
    (w : World dc.Vm) (hidle : Idle w) (htrampolines : w.trampolines = s.trampolines)
    (hexit : w.guestExit = s.guestExitTrampoline) (hcode : HoldsCode w.mem s)
    (hret : ExecutesRet env) (hhost : RunsHostOnly env s t (args.map RoutineArg.word) w.mem)
    (caller : Word) (n : ℕ) (hfuel : 5 ≤ n) :
    ∃ (value : HostReturn) (w' : World dc.Vm),
      (NativeBody.callee
        (.runWith t.guestTrampoline (.getRegister 0 fun v => .done ⟨v, 0⟩) args 0 0)
        .ret).exec (fiberRun (executionLoop env n) caller) w = .ok (value, w') ∧
      CalleeSavedEq w.jit w'.jit ∧
      ∃ (call : NativeCall) (ret : HostReturn) (w₁ w₂ : World dc.Vm),
        w'.calls = w.calls ++ [call] ∧ call.func = t.nativeFunc ∧
        systemV.read t.types.kinds call.entry.args = args.map RoutineArg.word ∧
        w₁.calls = w.calls ++ [call] ∧ (∀ run, (env.native call).exec run w₁ = .ok (ret, w₂)) ∧
        (t.types.ret.returnType? = some .integer → value.rax = ret.rax) := by
  obtain ⟨hn, hlayout⟩ := layout_of_startUp hs
  have hi : i < calls.length := by
    rw [← hlayout.length]
    exact (List.getElem?_eq_some_iff.mp ht).1
  have hentry := hlayout.trampolines_getElem? hi
  rw [ht, Option.some.injEq] at hentry
  have hget := hlayout.maybeGetById hn hi
  rw [← hentry] at hget
  have hkinds : t.types.kinds = args.map RoutineArg.kind := kinds_of_matches hargs
  let w₀ : World dc.Vm := { w with jit := { (placeArgs args 0 0 w.jit).setRegister 30 w.guestExit
    with pc := t.guestTrampoline } }
  have hw₀ : AtEntry m s i w₀ := by
    refine ⟨hidle.haltReason, htrampolines, hcode, ?_, ?_⟩
    · exact congrArg Trampoline.guestTrampoline hentry
    · exact hexit.trans hlayout.guestExit
  have hplaced :
      aapcs64.read t.types.kinds (w₀.jit.argState w₀.mem) = args.map RoutineArg.word := by
    rw [hkinds] at hintegers hfloats ⊢
    exact read_placeArgs args w.jit w.mem _ _ hintegers hfloats
  obtain ⟨k, rfl⟩ := Nat.exists_eq_add_of_le' hfuel
  obtain ⟨w₁, hrun, call, ret, w₂, w₃, hcalls, hfunc, hread, hbefore, hexec, hresult⟩ :=
    executionLoop_entry (w := w₀) hret (hplaced ▸ hhost) hlayout hn hi hget hfixed hsupported
      ⟨hidle.isExecuting, hidle.haltReason⟩ hw₀ k
  have hfiber : fiberRun (executionLoop env (k + 5)) caller t.guestTrampoline
      { w with jit := placeArgs args 0 0 w.jit } = .ok w₁ := by
    have hidle₁ : Idle { w with jit := placeArgs args 0 0 w.jit } :=
      ⟨hidle.isExecuting, hidle.haltReason⟩
    rw [fiberRun_of_idle hidle₁]
    exact hrun
  refine ⟨⟨w₁.jit.getRegister 0, 0⟩,
    { w₁ with jit := restoreSavedRegisters (getSavedRegisters w.jit) w₁.jit }, ?_,
    .of_saved (getSavedRegisters_restore _ _), call, ret, w₂, w₃, hcalls, hfunc,
    hread.trans hplaced, hbefore, hexec, hresult⟩
  simp only [NativeBody.exec, exec_runWith, FiberBody.exec, hfiber]

/-- A memory that holds the code buffer and is zero elsewhere. -/
def TrampolineState.memory (s : TrampolineState) : Memory := fun x =>
  match s.trampolineCode with
  | .mapped m words =>
    let offset := (x - m.base).toNat
    ((loadWord words (offset / 4)).getD 0).extractLsb' (8 * (offset % 4)) 8
  | _ => 0

theorem ofBytes32_extract (word : BitVec 32) :
    ofBytes32 (fun i => word.extractLsb' (8 * i) 8) = word := by
  simp only [ofBytes32]
  rw [BitVec.extractLsb'_append_extractLsb'_eq_extractLsb' (by decide),
    BitVec.extractLsb'_append_extractLsb'_eq_extractLsb' (by decide),
    BitVec.extractLsb'_append_extractLsb'_eq_extractLsb' (by decide)]
  exact BitVec.extractLsb'_eq_self

theorem holdsCode_memory (s : TrampolineState) : HoldsCode s.memory s := by
  intro a word hload
  cases hcode : s.trampolineCode with
  | null => simp [TrampolineState.loadAt, hcode] at hload
  | mapFailed => simp [TrampolineState.loadAt, hcode] at hload
  | mapped m words =>
    simp only [TrampolineState.loadAt, hcode] at hload
    split_ifs at hload with haligned
    have hlt : (a - m.base).toNat / 4 < trampolineCodeWords := by
      by_contra hge
      rw [loadWord, dif_neg hge] at hload
      cases hload
    have hbyte (i : ℕ) (hi : i < 4) :
        s.memory (a + BitVec.ofNat 64 i) = word.extractLsb' (8 * i) 8 := by
      have hoffset : (a + BitVec.ofNat 64 i - m.base).toNat = (a - m.base).toNat + i := by
        simp only [trampolineCodeWords, trampolineCodeSize] at hlt
        bv_omega
      have hquot : ((a - m.base).toNat + i) / 4 = (a - m.base).toNat / 4 := by omega
      have hrem : ((a - m.base).toNat + i) % 4 = i := by omega
      simp only [TrampolineState.memory, hcode, hoffset, hquot, hrem, hload, Option.getD_some]
    rw [read32, ← ofBytes32_extract word]
    simp only [ofBytes32, hbyte 0 (by decide), hbyte 1 (by decide), hbyte 2 (by decide),
      hbyte 3 (by decide)]

def scaleCall : CreateArgs :=
  ⟨"scale", 0x1000, .of .signedWord [.singlePrecisionFp, .signedWord], false, false⟩

/-- The native function returns a fixed value; the processor knows `RET`. -/
def scaleEnv : Env Dyncall.ofList.Vm where
  cpu insn j m := if insn = encodeRet then some ({ j with pc := j.getRegister 30 }, m) else none
  native _ := .ret ⟨42, 0⟩
  host _ := ⟨⟨fun _ _ => 0, fun _ => 0⟩, 0⟩
  frame _ := .cleared

theorem self_call_is_identity_scale :
    ∃ s t value w', startUp (some lowMapping) [scaleCall] = some s ∧ s.trampolines[0]? = some t ∧
      (NativeBody.callee (.runWith t.guestTrampoline (.getRegister 0 fun v => .done ⟨v, 0⟩)
        [.float 0x3F800000, .integer 7] 0 0) .ret).exec (fiberRun (executionLoop scaleEnv 5) 0)
        { World.fresh s.trampolines 0 with
          guestExit := s.guestExitTrampoline, mem := s.memory } = .ok (value, w') ∧
      value.rax = 42 ∧ ∃ call, w'.calls = [call] ∧ call.func = 0x1000 ∧
        systemV.read [.floating, .integer] call.entry.args = [0x3F800000, 7] := by
  obtain ⟨s, hs, hlayout⟩ := startUp_layout lowMapping [scaleCall] (by decide)
  have ht := hlayout.trampolines_getElem? (i := 0) (by decide)
  have hhost (t : Trampoline) (args : List Word) : RunsHostOnly scaleEnv s t args s.memory := by
    intro call w _ _ hmem
    exact ⟨⟨42, 0⟩, w.jit, w.mem, fun _ => rfl, rfl, hmem ▸ holdsCode_memory s⟩
  obtain ⟨value, w', hrun, -, call, ret, w₁, w₂, hcalls, hfunc, hread, -, hexec, hresult⟩ :=
    self_call_is_identity scaleEnv lowMapping [scaleCall] s hs 0 _ ht rfl (by decide) (by decide)
      (by decide) [.float 0x3F800000, .integer 7] (.cons rfl (.cons rfl .nil))
      { World.fresh s.trampolines 0 with
        guestExit := s.guestExitTrampoline, mem := s.memory } ⟨rfl, rfl⟩ rfl rfl
      (holdsCode_memory s) (fun j m => rfl) (hhost _ _) 0 5 le_rfl
  refine ⟨s, _, value, w', hs, ht, hrun, ?_, call, hcalls, hfunc, hread⟩
  cases hexec fun _ w => .ok w
  exact hresult rfl

end Sober
