import Sober.SupervisorCall.FastPath

/-! # Variadic arguments of ellipsis functions

The handler passes on every argument register the fixed part leaves, two of
the general ones through the host stack. The compiled call passes the six
general and eight vector registers that the host has, and does not set `al`.
-/
namespace Sober
open Machine Abi

theorem range'_split {a b i : ℕ} (ha : a ≤ i) (hb : i < b) :
    List.range' a (b - a) = List.range' a (i - a) ++ i :: List.range' (i + 1) (b - (i + 1)) := by
  have hlen : b - a = (i - a) + (b - (i + 1) + 1) := by omega
  have hmid : a + (i - a) = i := by omega
  rw [hlen, ← List.range'_append_1, hmid, List.range'_succ]

section Slow
variable {dc : Dyncall} {j : JitState} {m : Memory}

/-- The arguments pushed for an ellipsis function with a fixed part of kinds `ks`. -/
def PassesAll (dc : Dyncall) (j : JitState) (m : Memory) (ks : List Kind) (vm : dc.Vm) : Prop :=
  dc.args vm = ks.zip (aapcs64.read ks (j.argState m)) ++
    (List.range' (ks.count .integer) (8 - ks.count .integer)).map
      (fun i => (.integer, j.getRegister i)) ++
    (List.range' (ks.count .floating) (8 - ks.count .floating)).map
      (fun i => (.floating, (j.getVector i).lo))

theorem Passes.pushEllipsis {ks : List Kind} {c : Cursor dc.Vm} (h : Passes dc j m ks c.vm)
    (hc : Placed j ks c) (hi : ks.count .integer ≤ 8) (hf : ks.count .floating ≤ 8) :
    PassesAll dc j m ks (pushEllipsis dc j c).vm := by
  have hx : c.xReg = ks.count .integer := hc.xReg.trans (Nat.min_eq_right hi)
  have hv : c.vReg = ks.count .floating := hc.vReg.trans (Nat.min_eq_right hf)
  rw [PassesAll, args_pushEllipsis, hx, hv, h]

theorem count_filled {ks : List Kind} {k : Kind} {i : ℕ} (h : ks.count k ≤ i) :
    (ks ++ List.replicate (i - ks.count k) k).count k = i := by
  rw [List.count_append, List.count_replicate_self]
  omega

theorem map_fst_passed (ks : List Kind) (s : ArgState) :
    (ks.zip (aapcs64.read ks s)).map Prod.fst = ks := by
  apply List.map_fst_zip
  simp [Convention.read, Convention.locations]

namespace PassesAll
variable {ks : List Kind} {vm : dc.Vm}

theorem integer_at (h : PassesAll dc j m ks vm) {i : ℕ} (hlo : ks.count .integer ≤ i)
    (hhi : i < 8) :
    (dc.enter vm).args.at (systemV.next
      (ks ++ List.replicate (i - ks.count .integer) .integer) .integer) = j.getRegister i := by
  have hplace := systemV.place_at_next
    (ks.zip (aapcs64.read ks (j.argState m)) ++
      (List.range' (ks.count .integer) (i - ks.count .integer)).map
        (fun i => (.integer, j.getRegister i)))
    (.integer, j.getRegister i)
    ((List.range' (i + 1) (8 - (i + 1))).map (fun i => (.integer, j.getRegister i)) ++
      (List.range' (ks.count .floating) (8 - ks.count .floating)).map
        (fun i => (.floating, (j.getVector i).lo))) (dc.residue vm)
  rw [List.map_append, map_fst_passed, List.map_map] at hplace
  simp only [Function.comp_def, List.map_const', List.length_range'] at hplace
  rw [dc.enter_args, h, range'_split hlo hhi]
  simpa using hplace

theorem floating_at (h : PassesAll dc j m ks vm) {i : ℕ} (hlo : ks.count .floating ≤ i)
    (hhi : i < 8) :
    (dc.enter vm).args.at (systemV.next
      (ks ++ List.replicate (8 - ks.count .integer) .integer ++
        List.replicate (i - ks.count .floating) .floating) .floating) = (j.getVector i).lo := by
  have hplace := systemV.place_at_next
    (ks.zip (aapcs64.read ks (j.argState m)) ++
      (List.range' (ks.count .integer) (8 - ks.count .integer)).map
        (fun i => (.integer, j.getRegister i)) ++
      (List.range' (ks.count .floating) (i - ks.count .floating)).map
        (fun i => (.floating, (j.getVector i).lo)))
    (.floating, (j.getVector i).lo)
    ((List.range' (i + 1) (8 - (i + 1))).map (fun i => (.floating, (j.getVector i).lo)))
    (dc.residue vm)
  rw [List.map_append, List.map_append, map_fst_passed, List.map_map, List.map_map] at hplace
  simp only [Function.comp_def, List.map_const', List.length_range'] at hplace
  rw [dc.enter_args, h, range'_split hlo hhi]
  simpa using hplace

theorem eight_le_al (h : PassesAll dc j m ks vm) (hf : ks.count .floating ≤ 8) :
    8 ≤ (dc.enter vm).al := by
  have hal := dc.le_al vm
  rw [h, List.map_append, List.map_append, map_fst_passed, List.map_map, List.map_map] at hal
  simp only [Function.comp_def, List.map_const', List.length_range', List.count_append,
    List.count_replicate_self] at hal
  omega

theorem carries (h : PassesAll dc j m ks vm) (hi : ks.count .integer ≤ 6)
    (hf : ks.count .floating ≤ 8) : (dc.enter vm).Carries (j.argState m) ks 8 8 where
  floats_le := le_rfl
  reg i hlo hhi h6 := by
    have hat := h.integer_at hlo hhi
    rw [Convention.next, count_filled hlo, if_pos (by exact h6)] at hat
    exact hat
  stack i h6 hhi := by
    have hlo : ks.count .integer ≤ i := hi.trans h6
    have hat := h.integer_at hlo hhi
    have hspilled : systemV.spilled (ks ++ List.replicate (i - ks.count .integer) .integer) =
        i - 6 := by
      simp only [Convention.spilled, count_filled hlo, systemV, List.count_append,
        List.count_replicate, beq_iff_eq, reduceCtorEq, if_false]
      omega
    rw [Convention.next, count_filled hlo, if_neg (by exact not_lt.mpr h6), hspilled] at hat
    exact hat
  vec i hlo hhi := by
    have hat := h.floating_at hlo hhi
    have hcount : List.count .floating (ks ++
        List.replicate (8 - ks.count .integer) Kind.integer ++
        List.replicate (i - ks.count .floating) Kind.floating) = i := by
      simp only [List.count_append, List.count_replicate, beq_iff_eq, reduceCtorEq, if_false,
        if_true]
      omega
    rw [Convention.next, hcount, if_pos (by exact hhi)] at hat
    exact ⟨hhi.trans_le (h.eight_le_al hf), hat⟩

end PassesAll
end Slow

/-- The compiled call loads every host argument register; the vector ones count
only as far as `al` says. -/
theorem FastEligible.carries {t : Trampoline} {fc : SupervisorFastCall} (h : FastEligible t fc)
    (hell : t.isEllipsisFunction = true) (j : JitState) (m : Memory) (host : HostEntry)
    {floats : ℕ} (h8 : floats ≤ 8)
    (hal : floats = t.types.kinds.count .floating ∨ floats ≤ host.al) :
    (fc.entry j host).Carries (j.argState m) t.types.kinds 6 floats where
  floats_le := h8
  reg i _ _ h6 := by
    have hparams : fc.integerParams = 6 := by rw [h.integerParams, if_pos hell]
    simp [SupervisorFastCall.entry, hparams, h6]
  stack i hlo hhi := by omega
  vec i hlo hhi := by
    have hparams : fc.floatParams = 8 := by rw [h.floatParams, if_pos hell]
    have hi : i < 8 := hhi.trans_le h8
    have hle : i < host.al := by omega
    exact ⟨hle, by simp [SupervisorFastCall.entry, hparams, hi]⟩

section Agreement
variable (dc : Dyncall)
  (invoke : NativeCall → World dc.Vm → Except Fault (HostReturn × World dc.Vm))

theorem handleCallSvc_of_ellipsis (frame : HandlerFrame) {swi : BitVec 32} {w : World dc.Vm}
    {t : Trampoline} (ht : trampolineGetById w.trampolines swi = some t)
    (hell : t.isEllipsisFunction = true) (hs : t.types.Supported)
    (hi : t.types.kinds.count .integer ≤ 6) (hf : t.types.kinds.count .floating ≤ 8) :
    ∃ r c, PassesAll dc w.jit w.mem t.types.kinds c.vm ∧
      handleCallSvc dc invoke frame swi w = callNative dc invoke t.nativeFunc r c w := by
  rcases Option.isSome_iff_exists.mp hs.2 with ⟨r, hr⟩
  rcases marshal_passes w.jit w.mem t.types.params hs.1 w.dyncallVm frame with ⟨c, hrun, hc, -, hp⟩
  refine ⟨r, pushEllipsis dc w.jit c, hp.pushEllipsis hc (hi.trans (by decide)) hf, ?_⟩
  simp [handleCallSvc, ht, hrun, hell, hr]

/-- A variadic callee finds the argument registers behind its fixed part in
order, on the slow path as far as AAPCS64 has registers, and on the fast path
as far as the host has them and `al` covers the vector registers in use. -/
theorem ellipsis_fetches_agree (host : HostEntry) (frame : HandlerFrame) (swi : BitVec 32)
    (w : World dc.Vm) (t : Trampoline) (fc : SupervisorFastCall)
    (ht : trampolineMaybeGetById w.trampolines swi = some t)
    (hell : t.isEllipsisFunction = true)
    (hfast : getSupervisorFastCall w.trampolines swi = .ok fc) :
    ∃ fast slow : NativeCall, fast.func = t.nativeFunc ∧ slow.func = t.nativeFunc ∧
      fast.entry.al = host.al ∧
      MakesOneCall dc invoke fast w (emitA64CallSupervisor dc invoke host swi w) ∧
      MakesOneCall dc invoke slow w (slowSupervisorCall dc invoke frame swi w) ∧
      ∀ (requests : List Kind) (stale stale' : ℕ → Word),
        t.types.kinds.count .integer + requests.count .integer ≤ 8 →
        t.types.kinds.count .floating + requests.count .floating ≤ 8 →
        slow.entry.fetch stale t.types.kinds requests =
          stream (HostEntry.registerArg (w.jit.argState w.mem)) requests
            (fun k => t.types.kinds.count k) ∧
        (t.types.kinds.count .integer + requests.count .integer ≤ 6 →
          (requests.count .floating = 0 ∨
            t.types.kinds.count .floating + requests.count .floating ≤ fast.entry.al) →
          fast.entry.fetch stale' t.types.kinds requests =
            slow.entry.fetch stale t.types.kinds requests) := by
  rcases getSupervisorFastCall_ok hfast with ⟨t', ht', he⟩
  obtain rfl : t = t' := Option.some.inj (ht.symm.trans ht')
  let halted : World dc.Vm :=
    { emittedCallSVC dc swi w with haltReason := 0, isExecuting := false }
  have hget : trampolineGetById halted.trampolines swi = some t := trampolineGetById_of_maybe ht
  obtain ⟨r, c, hp, hcall⟩ := handleCallSvc_of_ellipsis dc invoke frame hget hell he.supported
    he.integers he.floats
  have hslow : slowSupervisorCall dc invoke frame swi w =
      callNative dc invoke t.nativeFunc r c halted := hcall
  have hemit : emitA64CallSupervisor dc invoke host swi w =
      emittedFastCall dc invoke host fc w := by rw [emitA64CallSupervisor, hfast]
  refine ⟨⟨fc.function, fc.entry w.jit host, none⟩, ⟨t.nativeFunc, dc.enter c.vm, some c.frame⟩,
    he.function, rfl, rfl, ?_, ?_, ?_⟩
  · rw [hemit]
    exact emittedFastCall_makesOneCall dc invoke host fc w
  · rw [hslow]
    exact callNative_makesOneCall dc invoke t.nativeFunc r c halted
  · intro requests stale stale' hints hfloats
    have hregs : (dc.enter c.vm).fetch stale t.types.kinds requests =
        stream (HostEntry.registerArg (w.jit.argState w.mem)) requests
          (fun k => t.types.kinds.count k) :=
      HostEntry.fetch_eq_registers (hp.carries he.integers he.floats) stale he.floats requests
        hints hfloats
    refine ⟨hregs, fun hsix hal => Eq.trans ?_ hregs.symm⟩
    have hcarries := he.carries hell w.jit w.mem host hfloats (by
      rcases hal with h0 | hal
      · left
        omega
      · right
        exact hal)
    exact HostEntry.fetch_eq_registers hcarries stale' he.floats requests hsix le_rfl

end Agreement

def printfTrampoline : Trampoline where
  name := "printf"
  id := 0
  nativeFunc := 0x5000
  types := .of .signedWord [.pointer]
  isEllipsisFunction := true
  hasExecutionSideEffects := false
  guestTrampoline := 0x2000

theorem ellipsis_fetches_agree_printf :
    ∃ fast slow : NativeCall,
      fast.entry.fetch (fun _ => 0) printfTrampoline.types.kinds [.floating, .integer] =
        slow.entry.fetch (fun _ => 0) printfTrampoline.types.kinds [.floating, .integer] ∧
      slow.entry.fetch (fun _ => 0) printfTrampoline.types.kinds [.floating, .integer] =
        [100, 1] := by
  obtain ⟨fast, slow, -, -, hal, -, -, hfetch⟩ :=
    ellipsis_fetches_agree .ofList (fun _ w => .ok (⟨0, 0⟩, w))
      ⟨⟨fun _ _ => 9, fun _ => 9⟩, 1⟩ .cleared 0x10 (.fresh [printfTrampoline] 0) printfTrampoline
      ⟨0x5000, 6, 8, .integer⟩ rfl rfl rfl
  obtain ⟨hslow, hsame⟩ := hfetch [.floating, .integer] (fun _ => 0) (fun _ => 0)
    (by decide) (by decide)
  exact ⟨fast, slow, hsame (by decide) (.inr (by rw [hal]; decide)), hslow.trans (by decide)⟩

/-- Six variadic integers behind one fixed parameter fit the guest registers; the
sixth is passed by the handler and not by the compiled call. -/
theorem ellipsis_fetches_differ :
    ∃ (fast slow : NativeCall) (wf ws : World Dyncall.ofList.Vm),
      emitA64CallSupervisor .ofList (fun _ w => .ok (⟨0, 0⟩, w))
        ⟨⟨fun _ _ => 9, fun _ => 9⟩, 8⟩ 0x10 (.fresh [printfTrampoline] 0) = .ok wf ∧
      slowSupervisorCall .ofList (fun _ w => .ok (⟨0, 0⟩, w)) .cleared 0x10
        (.fresh [printfTrampoline] 0) = .ok ws ∧
      wf.calls = [fast] ∧ ws.calls = [slow] ∧
      fast.entry.fetch (fun _ => 0) printfTrampoline.types.kinds (List.replicate 6 .integer) =
        [1, 2, 3, 4, 5, 9] ∧
      slow.entry.fetch (fun _ => 0) printfTrampoline.types.kinds (List.replicate 6 .integer) =
        [1, 2, 3, 4, 5, 6] := by
  exact ⟨_, _, _, _, rfl, rfl, rfl, rfl, by decide, by decide⟩

end Sober
