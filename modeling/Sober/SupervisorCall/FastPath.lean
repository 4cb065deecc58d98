import Sober.SupervisorCall.FastCall
import Sober.SupervisorCall.SlowPath

/-! # The fast path against the handler

A function that runs no guest code sees its declared parameters, the memory and
the control and status word of the host's floating-point unit. For a signature
of fixed arity the compiled call and the handler give it the same parameters in
the same registers. The control word is not the same: compiled code calls the
function under the guest's, the handler under the host's, and only the flags
raised under the guest's reach the guest.
-/
namespace Sober
open Machine Abi

/-- A native function that runs no guest code: from its address, its parameters,
`MXCSR` and the memory to its result, `MXCSR` and the memory. -/
abbrev HostBody :=
  Word → List Word → BitVec 32 → Memory → Except Fault (HostReturn × BitVec 32 × Memory)

/-- `SwitchMxcsrOnEntry` and `SwitchMxcsrOnExit` stand around guest code only. -/
def World.mxcsr {Vm : Type} (hostMxcsr : BitVec 32) (w : World Vm) : BitVec 32 :=
  if w.isExecuting then w.jit.guestMxcsr else hostMxcsr

def World.setMxcsr {Vm : Type} (mxcsr : BitVec 32) (w : World Vm) : World Vm :=
  if w.isExecuting then { w with jit := w.jit.setGuestMxcsr mxcsr } else w

/-- A call of a function with parameters of the kinds `ks`. -/
def hostInvoke {Vm : Type} (ks : List Kind) (hostMxcsr : BitVec 32) (body : HostBody)
    (call : NativeCall) (w : World Vm) : Except Fault (HostReturn × World Vm) :=
  match body call.func (systemV.read ks call.entry.args) (w.mxcsr hostMxcsr) w.mem with
  | .error e => .error e
  | .ok (ret, mxcsr, mem) => .ok (ret, { w.setMxcsr mxcsr with mem := mem })

namespace FastEligible
variable {t : Trampoline} {fc : SupervisorFastCall}

theorem fits_systemV (h : FastEligible t fc) (k : Kind) :
    t.types.kinds.count k ≤ systemV.limit k := by
  cases k with
  | integer => exact h.integers
  | floating => exact h.floats

theorem fits_aapcs64 (h : FastEligible t fc) (k : Kind) :
    t.types.kinds.count k ≤ aapcs64.limit k := by
  cases k with
  | integer => exact h.integers.trans (by decide)
  | floating => exact h.floats

/-- The emitted loads cover every declared parameter. -/
theorem entry_register (h : FastEligible t fc) (j : JitState) (m : Memory) (host : HostEntry)
    {k : Kind} {i : ℕ} (hi : i < t.types.kinds.count k) :
    (fc.entry j host).args.reg k i = (j.argState m).reg k i := by
  cases k with
  | integer =>
    have hle := h.integers
    have hlt : i < fc.integerParams := by
      rw [h.integerParams]
      split_ifs <;> omega
    exact if_pos hlt
  | floating =>
    have hle := h.floats
    have hlt : i < fc.floatParams := by
      rw [h.floatParams]
      split_ifs <;> omega
    exact if_pos hlt

theorem read_entry (h : FastEligible t fc) (j : JitState) (m : Memory) (host : HostEntry) :
    systemV.read t.types.kinds (fc.entry j host).args =
      aapcs64.read t.types.kinds (j.argState m) := by
  rw [Convention.read, Convention.read,
    aapcs64.locations_eq_of_fit systemV h.fits_aapcs64 h.fits_systemV]
  apply List.map_congr_left
  intro l hl
  rcases systemV.register_of_mem h.fits_systemV hl with ⟨k, i, rfl, hi⟩
  exact h.entry_register j m host hi

end FastEligible

/-- Both stores leave the upper half of `v0` as it was at the call. -/
theorem storeResult_eq_writeBack (r : ReturnType) (ret : HostReturn) (j : JitState) :
    (storeResult r ret j).clearExclusiveState =
      writeBack r j.clearExclusiveState ret j.clearExclusiveState := by
  cases r with
  | void => rfl
  | integer => rfl
  | float => rfl

/-- Clearing the exclusive state does not touch what `ResultDelivered` speaks of. -/
theorem ResultDelivered.of_cleared {r : ReturnType} {ret : HostReturn} {before after j : JitState}
    (h : ResultDelivered r ret before.clearExclusiveState after.clearExclusiveState j) :
    ResultDelivered r ret before after j :=
  ⟨h.x0, h.v0, h.reg, h.vec, h.sp, h.pc, h.cpsrNzcv, h.fpcr, h.fpsr⟩

theorem writeBack_cleared_delivered (r : ReturnType) (ret : HostReturn) (j : JitState) :
    ResultDelivered r ret j j
      (writeBack r j.clearExclusiveState ret j.clearExclusiveState) :=
  (writeBack_delivered r ret j.clearExclusiveState j.clearExclusiveState).of_cleared

theorem storeResult_delivered (r : ReturnType) (ret : HostReturn) (j : JitState) :
    ResultDelivered r ret j j (storeResult r ret j).clearExclusiveState := by
  rw [storeResult_eq_writeBack]
  exact writeBack_cleared_delivered r ret j

theorem storeResult_setGuestMxcsr_delivered (r : ReturnType) (ret : HostReturn) (j : JitState)
    (mxcsr : BitVec 32) :
    ResultDelivered r ret j (j.setGuestMxcsr mxcsr)
      (storeResult r ret (j.setGuestMxcsr mxcsr)).clearExclusiveState := by
  have h := storeResult_delivered r ret (j.setGuestMxcsr mxcsr)
  exact ⟨h.x0, h.v0, h.reg, h.vec, h.sp, h.pc, h.cpsrNzcv, h.fpcr, h.fpsr⟩

def ReturnType.result (r : ReturnType) (ret : HostReturn) : Option Word :=
  match r with
  | .integer => some ret.rax
  | .float => some ret.xmm0
  | .void => none

/-- Two register files that no guest instruction can tell apart. -/
structure JitState.SameRegisters (a b : JitState) : Prop where
  reg : a.reg = b.reg
  sp : a.sp = b.sp
  pc : a.pc = b.pc
  cpsrNzcv : a.cpsrNzcv = b.cpsrNzcv
  vec : a.vec = b.vec
  fpcr : a.fpcr = b.fpcr
  fpsr : a.fpsr = b.fpsr
  exclusiveState : a.exclusiveState = b.exclusiveState

/-- Both fail in the same way, or both return and `R` holds. -/
def SameOutcome {α β : Type} (R : α → β → Prop) : Except Fault α → Except Fault β → Prop
  | .ok a, .ok b => R a b
  | .error e, .error e' => e = e'
  | _, _ => False

/-- The two control words make no difference to what the function hands to the
guest, and the function raises no flag that the guest has not seen raised. -/
def SameNative (r : ReturnType) (j : JitState) (a b : HostReturn × BitVec 32 × Memory) : Prop :=
  r.result a.1 = r.result b.1 ∧ a.2.2 = b.2.2 ∧ (j.setGuestMxcsr a.2.1).fpsr = j.fpsr

theorem sameRegisters_stored_iff (r : ReturnType) (retf rets : HostReturn) (mxcsr : BitVec 32)
    (j : JitState) :
    (storeResult r retf (j.setGuestMxcsr mxcsr)).clearExclusiveState.SameRegisters
        (writeBack r j.clearExclusiveState rets j.clearExclusiveState) ↔
      r.result retf = r.result rets ∧ (j.setGuestMxcsr mxcsr).fpsr = j.fpsr := by
  cases r with
  | void => exact ⟨fun h => ⟨rfl, h.fpsr⟩, fun h => ⟨rfl, rfl, rfl, rfl, rfl, rfl, h.2, rfl⟩⟩
  | integer =>
    constructor
    · intro h
      have h0 : Function.update j.reg 0 retf.rax 0 = Function.update j.reg 0 rets.rax 0 :=
        congrFun h.reg 0
      rw [Function.update_self, Function.update_self] at h0
      exact ⟨congrArg some h0, h.fpsr⟩
    · rintro ⟨hret, hf⟩
      have hreg := congrArg (Function.update j.reg 0) (Option.some.inj hret)
      exact ⟨hreg, rfl, rfl, rfl, rfl, rfl, hf, rfl⟩
  | float =>
    let v0 (ret : HostReturn) : Vec := { j.getVector 0 with lo := ret.xmm0 }
    constructor
    · intro h
      have h0 : Function.update j.vec 0 (v0 retf) 0 = Function.update j.vec 0 (v0 rets) 0 :=
        congrFun h.vec 0
      rw [Function.update_self, Function.update_self] at h0
      exact ⟨congrArg some (congrArg Vec.lo h0), h.fpsr⟩
    · rintro ⟨hret, hf⟩
      have hvec := congrArg (fun lo => Function.update j.vec 0 { j.getVector 0 with lo := lo })
        (Option.some.inj hret)
      exact ⟨rfl, rfl, rfl, rfl, hvec, rfl, hf, rfl⟩

section Agreement
variable (dc : Dyncall) (hostMxcsr : BitVec 32) (body : HostBody)

theorem emittedFastCall_hostInvoke {t : Trampoline} {fc : SupervisorFastCall}
    (he : FastEligible t fc) (host : HostEntry) {w : World dc.Vm} (hexec : w.isExecuting = true) :
    emittedFastCall dc (hostInvoke t.types.kinds hostMxcsr body) host fc w =
      match body t.nativeFunc (aapcs64.read t.types.kinds (w.jit.argState w.mem))
        w.jit.guestMxcsr w.mem with
      | .error e => .error e
      | .ok (ret, mxcsr, mem) => .ok { w with
          mem := mem
          calls := w.calls ++ [⟨fc.function, fc.entry w.jit host, none⟩]
          jit := (storeResult fc.returnType ret
            (w.jit.setGuestMxcsr mxcsr)).clearExclusiveState } := by
  simp only [emittedFastCall, hostInvoke, World.mxcsr, World.setMxcsr, hexec, if_true]
  rw [he.read_entry w.jit w.mem host, he.function]
  cases body t.nativeFunc (aapcs64.read t.types.kinds (w.jit.argState w.mem))
    w.jit.guestMxcsr w.mem with
  | error e => rfl
  | ok result => rfl

theorem callNative_hostInvoke {ks : List Kind} (func : Word) (r : ReturnType)
    {c : Cursor dc.Vm} {w : World dc.Vm} (hexec : w.isExecuting = false)
    (hp : Passes dc w.jit w.mem ks c.vm) :
    callNative dc (hostInvoke ks hostMxcsr body) func r c w =
      match body func (aapcs64.read ks (w.jit.argState w.mem)) hostMxcsr w.mem with
      | .error e => .error e
      | .ok (ret, _, mem) => .ok { w with
          dyncallVm := c.vm
          mem := mem
          calls := w.calls ++ [⟨func, dc.enter c.vm, some c.frame⟩]
          jit := writeBack r w.jit ret w.jit } := by
  simp only [callNative, hostInvoke, World.mxcsr, World.setMxcsr, hexec, Bool.false_eq_true,
    if_false]
  rw [hp.read_enter]
  cases body func (aapcs64.read ks (w.jit.argState w.mem)) hostMxcsr w.mem with
  | error e => rfl
  | ok result => rfl

/-- Either path calls the same function, with every declared parameter in the
same argument register; compiled code calls it under the guest's control word and
the handler under the host's. The two leave the same guest registers and memory
exactly if that makes no difference to the function. -/
theorem fastCall_agrees_iff (host : HostEntry) (frame : HandlerFrame) (swi : BitVec 32)
    (w : World dc.Vm) (t : Trampoline) (fc : SupervisorFastCall) (hexec : w.isExecuting = true)
    (ht : trampolineMaybeGetById w.trampolines swi = some t)
    (hfixed : t.isEllipsisFunction = false)
    (hfast : getSupervisorFastCall w.trampolines swi = .ok fc) :
    let args := aapcs64.read t.types.kinds (w.jit.argState w.mem)
    let underGuest := body t.nativeFunc args w.jit.guestMxcsr w.mem
    let underHost := body t.nativeFunc args hostMxcsr w.mem
    let invoke := hostInvoke t.types.kinds hostMxcsr body
    let fastRun := emitA64CallSupervisor dc invoke host swi w
    let slowRun := slowSupervisorCall dc invoke frame swi w
    t.types.Supported ∧ ∃ fast slow : NativeCall,
      fast.func = t.nativeFunc ∧ slow.func = t.nativeFunc ∧
      (∀ l ∈ systemV.locations t.types.kinds, (∃ k i, l = .register k i) ∧
        fast.entry.args.at l = slow.entry.args.at l) ∧
      SameOutcome (fun wf (a : HostReturn × BitVec 32 × Memory) =>
        wf.calls = w.calls ++ [fast] ∧ wf.mem = a.2.2 ∧
          ResultDelivered fc.returnType a.1 w.jit (w.jit.setGuestMxcsr a.2.1) wf.jit)
        fastRun underGuest ∧
      SameOutcome (fun ws (b : HostReturn × BitVec 32 × Memory) =>
        ws.calls = w.calls ++ [slow] ∧ ws.mem = b.2.2 ∧
          ResultDelivered fc.returnType b.1 w.jit w.jit ws.jit)
        slowRun underHost ∧
      (SameOutcome (fun wf ws => wf.jit.SameRegisters ws.jit ∧ wf.mem = ws.mem) fastRun slowRun ↔
        SameOutcome (SameNative fc.returnType w.jit) underGuest underHost) := by
  intro args underGuest underHost invoke fastRun slowRun
  rcases getSupervisorFastCall_ok hfast with ⟨t', ht', he⟩
  obtain rfl : t = t' := Option.some.inj (ht.symm.trans ht')
  let halted : World dc.Vm :=
    { emittedCallSVC dc swi w with haltReason := 0, isExecuting := false }
  have hget : trampolineGetById halted.trampolines swi = some t := trampolineGetById_of_maybe ht
  obtain ⟨r, c, hr, hp, hcall⟩ := handleCallSvc_of_supported dc frame hget hfixed
    he.supported
  obtain rfl : fc.returnType = r := Option.some.inj (he.returnType.symm.trans hr)
  have hslow : slowRun = _ :=
    (hcall invoke).trans (callNative_hostInvoke dc hostMxcsr body _ _ rfl hp)
  have hemit : fastRun = emittedFastCall dc invoke host fc w := by
    simp only [fastRun, emitA64CallSupervisor, hfast]
  have hfastRun : fastRun = _ :=
    hemit.trans (emittedFastCall_hostInvoke dc hostMxcsr body he host hexec)
  change slowRun = match underHost with | .error e => _ | .ok (ret, _, mem) => _ at hslow
  change fastRun = match underGuest with | .error e => _ | .ok (ret, _, mem) => _ at hfastRun
  refine ⟨he.supported, ⟨fc.function, fc.entry w.jit host, none⟩,
    ⟨t.nativeFunc, dc.enter c.vm, some c.frame⟩, he.function, rfl, ?_, ?_⟩
  · intro l hl
    have hsame := List.map_inj_left.mp ((he.read_entry w.jit w.mem host).trans hp.read_enter.symm)
    rcases systemV.register_of_mem he.fits_systemV hl with ⟨k, i, rfl, -⟩
    exact ⟨⟨k, i, rfl⟩, hsame _ hl⟩
  · rw [hfastRun, hslow]
    clear_value underGuest underHost
    have hstored (ret : HostReturn) :=
      storeResult_setGuestMxcsr_delivered fc.returnType ret w.jit
    have hwritten (ret : HostReturn) := writeBack_cleared_delivered fc.returnType ret w.jit
    rcases underGuest with e | ⟨retf, mxcsr, memf⟩ <;> rcases underHost with e' | ⟨rets, -, mems⟩
    · exact ⟨rfl, rfl, Iff.rfl⟩
    · exact ⟨rfl, ⟨rfl, rfl, hwritten rets⟩, Iff.rfl⟩
    · exact ⟨⟨rfl, rfl, hstored retf mxcsr⟩, rfl, Iff.rfl⟩
    · refine ⟨⟨rfl, rfl, hstored retf mxcsr⟩, ⟨rfl, rfl, hwritten rets⟩, ?_⟩
      have hsame := sameRegisters_stored_iff fc.returnType retf rets mxcsr w.jit
      exact ⟨fun h => ⟨(hsame.mp h.1).1, h.2, (hsame.mp h.1).2⟩,
        fun h => ⟨hsame.mpr ⟨h.1, h.2.2⟩, h.2.1⟩⟩

end Agreement

def mixedTrampoline : Trampoline where
  name := "ldexp"
  id := 0
  nativeFunc := 0x5000
  types := .of .doublePrecisionFp [.doublePrecisionFp, .signedWord]
  isEllipsisFunction := false
  hasExecutionSideEffects := false
  guestTrampoline := 0x2000

/-- A positive subnormal `x` times a half, by the rounding mode of `mxcsr`. A bit
that is lost raises the underflow and the precision flag. -/
def halveSubnormal (mxcsr : BitVec 32) (x : Word) : Word × BitVec 32 :=
  let half := x >>> 1
  if x.getLsbD 0 = false then (half, mxcsr)
  else
    let rounded := match ((mxcsr >>> 13) &&& 0x3).toNat with
      | 0 => if half.getLsbD 0 then half + 1 else half
      | 2 => half + 1
      | _ => half
    (rounded, mxcsr ||| 0x30)

/-- `ldexp` of a positive subnormal and the exponent -1. -/
def ldexpHalf : HostBody := fun _ args mxcsr m =>
  let (value, mxcsr) := halveSubnormal mxcsr (args.headD 0)
  .ok (⟨0, value⟩, mxcsr, m)

/-- A guest that rounds toward zero and calls `ldexp` of `x` and -1. -/
def ldexpWorld (x : Word) : World Dyncall.ofList.Vm :=
  { World.fresh [mixedTrampoline] 0 with
    isExecuting := true
    jit := (((JitState.numbered 0).setFpcr 0x00C00000).setRegister 0 0xFFFFFFFF).setVectorFirst
      0 x }

theorem fastCall_agrees_iff_exact :
    SameOutcome (fun wf ws => wf.jit.SameRegisters ws.jit ∧ wf.mem = ws.mem)
      (emitA64CallSupervisor .ofList (hostInvoke mixedTrampoline.types.kinds 0x1F80 ldexpHalf)
        ⟨⟨fun _ _ => 9, fun _ => 9⟩, 0⟩ 0x10 (ldexpWorld 2))
      (slowSupervisorCall .ofList (hostInvoke mixedTrampoline.types.kinds 0x1F80 ldexpHalf)
        .cleared 0x10 (ldexpWorld 2)) := by
  obtain ⟨-, fast, slow, -, -, -, -, -, hiff⟩ :=
    fastCall_agrees_iff .ofList 0x1F80 ldexpHalf ⟨⟨fun _ _ => 9, fun _ => 9⟩, 0⟩ .cleared 0x10
      (ldexpWorld 2) mixedTrampoline ⟨0x5000, 1, 1, .float⟩ rfl rfl rfl rfl
  exact hiff.mpr ⟨by decide, rfl, by decide⟩

/-- Three times the least subnormal, halved: toward zero in compiled code, which
also sets two bits of `FPSR`; to the nearest in the handler. -/
theorem fastCall_disagrees_ldexp :
    mixedTrampoline.isEllipsisFunction = false ∧
    getSupervisorFastCall (ldexpWorld 3).trampolines 0x10 = .ok ⟨0x5000, 1, 1, .float⟩ ∧
    ∃ wf ws : World Dyncall.ofList.Vm,
      emitA64CallSupervisor .ofList (hostInvoke mixedTrampoline.types.kinds 0x1F80 ldexpHalf)
        ⟨⟨fun _ _ => 9, fun _ => 9⟩, 0⟩ 0x10 (ldexpWorld 3) = .ok wf ∧
      slowSupervisorCall .ofList (hostInvoke mixedTrampoline.types.kinds 0x1F80 ldexpHalf)
        .cleared 0x10 (ldexpWorld 3) = .ok ws ∧
      wf.jit.getVector 0 = ⟨1, 200⟩ ∧ ws.jit.getVector 0 = ⟨2, 200⟩ ∧
      wf.jit.fpsr = 0x18 ∧ ws.jit.fpsr = 0 :=
  ⟨rfl, rfl, _, _, rfl, rfl, by decide, by decide, by decide, by decide⟩

end Sober
