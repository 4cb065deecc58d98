import Sober.SupervisorCall.Handler

/-! # The slow path passes arguments by AAPCS64

The loop variables of the handler follow the placement of the parameters seen
so far, so each turn reads the next parameter where the guest put it. Register
counters stop at eight; the stack cursor counts the spilled parameters of both
kinds.
-/
namespace Sober
open Machine Abi

structure Placed {Vm : Type} (j : JitState) (ks : List Kind) (c : Cursor Vm) : Prop where
  xReg : c.xReg = min 8 (ks.count .integer)
  vReg : c.vReg = min 8 (ks.count .floating)
  stackCursor : c.stackCursor = j.sp + BitVec.ofNat 64 (8 * aapcs64.spilled ks)

namespace Placed
variable {Vm : Type} {j : JitState} {ks : List Kind} {c : Cursor Vm}

theorem initial (j : JitState) (vm : Vm) (frame : HandlerFrame) :
    Placed j [] ⟨vm, 0, 0, j.sp, frame⟩ where
  xReg := rfl
  vReg := rfl
  stackCursor := by simp [Convention.spilled]

theorem with_vm (h : Placed j ks c) (vm : Vm) : Placed j ks { c with vm := vm } :=
  ⟨h.xReg, h.vReg, h.stackCursor⟩

theorem with_frame (h : Placed j ks c) (frame : HandlerFrame) :
    Placed j ks { c with frame := frame } :=
  ⟨h.xReg, h.vReg, h.stackCursor⟩

/-- A parameter that finds its registers used up is the slot under the cursor. -/
theorem popStack (h : Placed j ks c) (m : Memory) (k : Kind) (hk : ¬ ks.count k < 8) :
    (c.popStack m).1 = (j.argState m).at (aapcs64.next ks k) ∧
      Placed j (ks ++ [k]) (c.popStack m).2 := by
  have hlimit : ¬ ks.count k < aapcs64.limit k := by
    cases k <;> exact hk
  constructor
  · rw [Convention.next_of_not_lt hlimit, Cursor.popStack, h.stackCursor]
    rfl
  · constructor
    · rw [Cursor.popStack, h.xReg]
      cases k with
      | integer => simp [List.count_append]; omega
      | floating => simp [List.count_append]
    · rw [Cursor.popStack, h.vReg]
      cases k with
      | integer => simp [List.count_append]
      | floating => simp [List.count_append]; omega
    · rw [Cursor.popStack, h.stackCursor, Convention.spilled_concat_of_not_lt hlimit,
        Nat.mul_add, ← add_ofNat_add]
      rfl

theorem takeInteger (h : Placed j ks c) (m : Memory) :
    (c.takeInteger j m).1 = (j.argState m).at (aapcs64.next ks .integer) ∧
      Placed j (ks ++ [.integer]) (c.takeInteger j m).2 := by
  have hx := h.xReg
  by_cases hk : ks.count .integer < 8
  · have hlimit : ks.count .integer < aapcs64.limit .integer := hk
    rw [Cursor.takeInteger, if_neg (by omega), Convention.next_of_lt hlimit]
    constructor
    · have hreg : c.xReg = ks.count .integer := by omega
      rw [hreg]
      rfl
    · constructor
      · simp only [List.count_append, List.count_singleton_self]
        omega
      · simpa [List.count_append] using h.vReg
      · rw [Convention.spilled_concat_of_lt hlimit, h.stackCursor]
  · rw [Cursor.takeInteger, if_pos (by omega)]
    exact h.popStack m .integer hk

theorem takeFloating (h : Placed j ks c) (m : Memory) :
    (c.takeFloating j m).1 = (j.argState m).at (aapcs64.next ks .floating) ∧
      Placed j (ks ++ [.floating]) (c.takeFloating j m).2 := by
  have hv := h.vReg
  by_cases hk : ks.count .floating < 8
  · have hlimit : ks.count .floating < aapcs64.limit .floating := hk
    rw [Cursor.takeFloating, if_neg (by omega), Convention.next_of_lt hlimit]
    constructor
    · have hreg : c.vReg = ks.count .floating := by omega
      rw [hreg]
      rfl
    · constructor
      · simpa [List.count_append] using h.xReg
      · simp only [List.count_append, List.count_singleton_self]
        omega
      · rw [Convention.spilled_concat_of_lt hlimit, h.stackCursor]
  · rw [Cursor.takeFloating, if_pos (by omega)]
    exact h.popStack m .floating hk

end Placed

namespace Cursor
variable {Vm : Type} (j : JitState) (m : Memory) (c : Cursor Vm)

@[simp] theorem takeInteger_vm : (c.takeInteger j m).2.vm = c.vm := by
  simp only [takeInteger, popStack]
  split_ifs <;> rfl

@[simp] theorem takeInteger_frame : (c.takeInteger j m).2.frame = c.frame := by
  simp only [takeInteger, popStack]
  split_ifs <;> rfl

@[simp] theorem takeFloating_vm : (c.takeFloating j m).2.vm = c.vm := by
  simp only [takeFloating, popStack]
  split_ifs <;> rfl

@[simp] theorem takeFloating_frame : (c.takeFloating j m).2.frame = c.frame := by
  simp only [takeFloating, popStack]
  split_ifs <;> rfl

end Cursor

section Marshal
variable {dc : Dyncall} {j : JitState} {m : Memory}

/-- The arguments pushed for parameters of the kinds `ks` placed by AAPCS64. -/
def Passes (dc : Dyncall) (j : JitState) (m : Memory) (ks : List Kind) (vm : dc.Vm) : Prop :=
  dc.args vm = ks.zip (aapcs64.read ks (j.argState m))

/-- One turn for a parameter passed by value. -/
theorem pushArgument_of_kind {t : FunctionArgumentType} {k : Kind} (ht : t.kind? = some k)
    {ks : List Kind} {c : Cursor dc.Vm} (hc : Placed j ks c) :
    ∃ c', pushArgument dc j m t c = .ok c' ∧ Placed j (ks ++ [k]) c' ∧ c'.frame = c.frame ∧
      dc.args c'.vm = dc.args c.vm ++ [(k, (j.argState m).at (aapcs64.next ks k))] := by
  cases k with
  | integer =>
    have hpush : pushArgument dc j m t c = .ok { (c.takeInteger j m).2 with
        vm := dc.argLongLong (c.takeInteger j m).2.vm (c.takeInteger j m).1 } := by
      cases t <;> cases ht <;> rfl
    rcases hc.takeInteger m with ⟨hvalue, hplaced⟩
    exact ⟨_, hpush, hplaced.with_vm _, by simp, by simp [dc.args_argLongLong, hvalue]⟩
  | floating =>
    have hpush : pushArgument dc j m t c = .ok { (c.takeFloating j m).2 with
        vm := dc.argDouble (c.takeFloating j m).2.vm (c.takeFloating j m).1 } := by
      cases t <;> cases ht <;> rfl
    rcases hc.takeFloating m with ⟨hvalue, hplaced⟩
    exact ⟨_, hpush, hplaced.with_vm _, by simp, by simp [dc.args_argDouble, hvalue]⟩

/-- One turn for a `va_list` that can be translated. -/
theorem pushArgument_variadicList {ks : List Kind} {c : Cursor dc.Vm} (hc : Placed j ks c)
    {f : HandlerFrame} (hf : translateVaList m
      (readVaArgsData m ((j.argState m).at (aapcs64.next ks .integer))) c.frame = some f) :
    ∃ c', pushArgument dc j m .variadicList c = .ok c' ∧ Placed j (ks ++ [.integer]) c' ∧
      c'.frame = f ∧ dc.args c'.vm = dc.args c.vm ++ [(.integer, f.vaArgsAddress)] := by
  rcases hc.takeInteger m with ⟨hvalue, hplaced⟩
  rw [← hvalue, ← c.takeInteger_frame j m] at hf
  refine ⟨{ (c.takeInteger j m).2 with
      frame := f
      vm := dc.argPointer (c.takeInteger j m).2.vm f.vaArgsAddress },
    by simp only [pushArgument, hf], (hplaced.with_frame f).with_vm _, rfl, ?_⟩
  rw [dc.args_argPointer, Cursor.takeInteger_vm]

/-- The whole loop over parameters that are all passed by value. -/
theorem marshal_of_kinds (ts : List FunctionArgumentType) (hts : ∀ t ∈ ts, t.kind?.isSome)
    {ks : List Kind} {c : Cursor dc.Vm} (hc : Placed j ks c) :
    ∃ c', marshal dc j m ts c = .ok c' ∧
      Placed j (ks ++ ts.filterMap FunctionArgumentType.kind?) c' ∧ c'.frame = c.frame ∧
      dc.args c'.vm = dc.args c.vm ++ (ts.filterMap FunctionArgumentType.kind?).zip
        (aapcs64.readAfter (j.argState m) ks (ts.filterMap FunctionArgumentType.kind?)) := by
  induction ts generalizing ks c with
  | nil => exact ⟨c, rfl, by simpa using hc, rfl, by simp⟩
  | cons t ts ih =>
    rcases Option.isSome_iff_exists.mp (hts t (by simp)) with ⟨k, hk⟩
    rcases pushArgument_of_kind (m := m) hk hc with ⟨c₁, hpush, hc₁, hframe₁, hargs₁⟩
    rcases ih (fun t ht => hts t (by simp [ht])) hc₁ with ⟨c', hrun, hc', hframe, hargs⟩
    refine ⟨c', by rw [marshal, hpush]; exact hrun, ?_, hframe.trans hframe₁, ?_⟩
    · rw [List.filterMap_cons_some hk, List.append_cons]
      exact hc'
    · rw [hargs, hargs₁, List.filterMap_cons_some hk, List.append_assoc]
      rfl

/-- The loop of one activation, from the reset machine on. -/
theorem marshal_passes (j : JitState) (m : Memory) (ts : List FunctionArgumentType)
    (hts : ∀ t ∈ ts, t.kind?.isSome) (vm : dc.Vm) (frame : HandlerFrame) :
    ∃ c, marshal dc j m ts ⟨dc.reset vm, 0, 0, j.sp, frame⟩ = .ok c ∧
      Placed j (ts.filterMap FunctionArgumentType.kind?) c ∧ c.frame = frame ∧
      Passes dc j m (ts.filterMap FunctionArgumentType.kind?) c.vm := by
  obtain ⟨c, hrun, hc, hframe, hargs⟩ :=
    marshal_of_kinds (m := m) ts hts (Placed.initial j (dc.reset vm) frame)
  refine ⟨c, hrun, hc, hframe, ?_⟩
  rw [Passes, hargs, dc.args_reset, ← List.nil_append (ts.filterMap _), Convention.read_append]
  rfl

/-- A parameter that cannot be passed stops the loop. -/
theorem marshal_of_unsupported (ts : List FunctionArgumentType)
    (hts : ¬ ∀ t ∈ ts, t.kind?.isSome) (hva : .variadicList ∉ ts)
    {ks : List Kind} {c : Cursor dc.Vm} (hc : Placed j ks c) :
    ∃ vm, marshal dc j m ts c = .error (.unsupportedArgument, vm) := by
  induction ts generalizing ks c with
  | nil => simp at hts
  | cons t ts ih =>
    cases ht : t.kind? with
    | none =>
      have hpush : pushArgument dc j m t c = .error .unsupportedArgument := by
        cases t <;> first | rfl | exact (hva List.mem_cons_self).elim | cases ht
      exact ⟨c.vm, by rw [marshal, hpush]⟩
    | some k =>
      rcases pushArgument_of_kind (m := m) ht hc with ⟨c₁, hpush, hc₁, -, -⟩
      have hts' : ¬ ∀ t ∈ ts, t.kind?.isSome := by simpa [ht] using hts
      rcases ih hts' (by simp_all) hc₁ with ⟨vm, hrun⟩
      exact ⟨vm, by rw [marshal, hpush]; exact hrun⟩

theorem args_pushEllipsis (dc : Dyncall) (j : JitState) (c : Cursor dc.Vm) :
    dc.args (pushEllipsis dc j c).vm = dc.args c.vm ++
      (List.range' c.xReg (8 - c.xReg)).map (fun i => (.integer, j.getRegister i)) ++
      (List.range' c.vReg (8 - c.vReg)).map (fun i => (.floating, (j.getVector i).lo)) := by
  simp only [pushEllipsis]
  rw [dc.args_foldl_argDouble, dc.args_foldl_argLongLong]

end Marshal

/-- The register file `j` is `after` with the result delivered: to `x0`, to the
low half of `v0`, or nowhere. The upper half of `v0` is the one of `before`. -/
structure ResultDelivered (r : ReturnType) (ret : HostReturn) (before after j : JitState) :
    Prop where
  x0 : j.getRegister 0 = if r = .integer then ret.rax else after.getRegister 0
  v0 : j.getVector 0 = if r = .float then ⟨ret.xmm0, (before.getVector 0).hi⟩
    else after.getVector 0
  reg : ∀ i, i ≠ 0 → j.reg i = after.reg i
  vec : ∀ i, i ≠ 0 → j.vec i = after.vec i
  sp : j.sp = after.sp
  pc : j.pc = after.pc
  cpsrNzcv : j.cpsrNzcv = after.cpsrNzcv
  fpcr : j.fpcr = after.fpcr
  fpsr : j.fpsr = after.fpsr

theorem writeBack_delivered (r : ReturnType) (ret : HostReturn) (before after : JitState) :
    ResultDelivered r ret before after (writeBack r before ret after) := by
  cases r with
  | void => constructor <;> intros <;> rfl
  | integer =>
    constructor
    case reg => intro i hi; exact Function.update_of_ne hi _ _
    all_goals intros; rfl
  | float =>
    constructor
    case vec => intro i hi; exact Function.update_of_ne hi _ _
    all_goals intros; rfl

section Call
variable (dc : Dyncall)
  (invoke : NativeCall → World dc.Vm → Except Fault (HostReturn × World dc.Vm))

/-- For a supported signature of fixed arity the handler comes down to one call
whose pushed arguments are the ones AAPCS64 assigns, whatever the function does. -/
theorem handleCallSvc_of_supported (frame : HandlerFrame) {swi : BitVec 32} {w : World dc.Vm}
    {t : Trampoline} (ht : trampolineGetById w.trampolines swi = some t)
    (hfixed : t.isEllipsisFunction = false) (hs : t.types.Supported) :
    ∃ r c, t.types.ret.returnType? = some r ∧ Passes dc w.jit w.mem t.types.kinds c.vm ∧
      ∀ invoke, handleCallSvc dc invoke frame swi w = callNative dc invoke t.nativeFunc r c w := by
  rcases Option.isSome_iff_exists.mp hs.2 with ⟨r, hr⟩
  rcases marshal_passes w.jit w.mem t.types.params hs.1 w.dyncallVm frame with ⟨c, hrun, -, -, hp⟩
  refine ⟨r, c, hr, hp, fun invoke => ?_⟩
  simp [handleCallSvc, ht, hrun, hfixed, hr]

theorem Passes.read_enter {dc : Dyncall} {j : JitState} {m : Memory} {ks : List Kind} {vm : dc.Vm}
    (h : Passes dc j m ks vm) :
    systemV.read ks (dc.enter vm).args = aapcs64.read ks (j.argState m) := by
  have hlen : ks.length = (aapcs64.read ks (j.argState m)).length := by
    simp [Convention.read, Convention.locations]
  have henter := dc.read_enter vm
  rw [h, List.map_fst_zip hlen.le, List.map_snd_zip hlen.ge] at henter
  exact henter

/-- A signature that is not supported is reported, with no call and no effect on
the guest. -/
theorem handleCallSvc_of_unsupported (frame : HandlerFrame) {swi : BitVec 32} {w : World dc.Vm}
    {t : Trampoline} (ht : trampolineGetById w.trampolines swi = some t)
    (hva : .variadicList ∉ t.types.params) (hs : ¬ t.types.Supported) :
    ∃ vm message, handleCallSvc dc invoke frame swi w =
      .ok { w with dyncallVm := vm, cerr := w.cerr ++ [message] } := by
  by_cases hparams : ∀ type ∈ t.types.params, type.kind?.isSome
  · have hret : t.types.ret.returnType? = none := by
      rw [← Option.not_isSome_iff_eq_none]
      exact fun h => hs ⟨hparams, h⟩
    obtain ⟨c, hrun, -, -, -⟩ :=
      marshal_passes w.jit w.mem t.types.params hparams w.dyncallVm frame
    exact ⟨_, _, by simp only [handleCallSvc, ht, hrun, hret]; rfl⟩
  · obtain ⟨vm, hrun⟩ := marshal_of_unsupported (m := w.mem) t.types.params hparams hva
      (Placed.initial w.jit (dc.reset w.dyncallVm) frame)
    exact ⟨_, _, by simp only [handleCallSvc, ht, hrun]; rfl⟩

/-- The handler makes one native call in which every parameter has the value
AAPCS64 assigns to it, and delivers the result; nothing else of the register
file that the native function left changes. A signature it cannot pass is
reported without a call and without touching a guest register. -/
theorem handleCallSvc_marshals (frame : HandlerFrame) (swi : BitVec 32) (w : World dc.Vm)
    (t : Trampoline) (ht : trampolineGetById w.trampolines swi = some t)
    (hfixed : t.isEllipsisFunction = false) (hva : .variadicList ∉ t.types.params) :
    (t.types.Supported → ∃ r call vm, t.types.ret.returnType? = some r ∧
      call.func = t.nativeFunc ∧
      systemV.read t.types.kinds call.entry.args =
        aapcs64.read t.types.kinds (w.jit.argState w.mem) ∧
      match invoke call { w with dyncallVm := vm, calls := w.calls ++ [call] } with
      | .error e => handleCallSvc dc invoke frame swi w = .error e
      | .ok (ret, w') => ∃ j, ResultDelivered r ret w.jit w'.jit j ∧
          handleCallSvc dc invoke frame swi w = .ok { w' with jit := j }) ∧
    (¬ t.types.Supported → ∃ w', handleCallSvc dc invoke frame swi w = .ok w' ∧
      w'.jit = w.jit ∧ w'.mem = w.mem ∧ w'.calls = w.calls) := by
  constructor
  · intro hs
    rcases handleCallSvc_of_supported dc frame ht hfixed hs with ⟨r, c, hr, hp, hcall⟩
    refine ⟨r, ⟨t.nativeFunc, dc.enter c.vm, some c.frame⟩, c.vm, hr, rfl, hp.read_enter, ?_⟩
    rw [hcall, callNative]
    cases invoke ⟨t.nativeFunc, dc.enter c.vm, some c.frame⟩ _ with
    | error e => rfl
    | ok result => exact ⟨_, writeBack_delivered r result.1 w.jit result.2.jit, rfl⟩
  · intro hs
    rcases handleCallSvc_of_unsupported dc invoke frame ht hva hs with ⟨vm, message, hrun⟩
    exact ⟨_, hrun, rfl, rfl, rfl⟩

end Call

/-- Nine integers and a double: the ninth integer comes from the stack. -/
def spillingTrampoline : Trampoline where
  name := "spilling"
  id := 0
  nativeFunc := 0x5000
  types := .of .signedWord (.doublePrecisionFp :: List.replicate 9 .unsignedDoubleword)
  isEllipsisFunction := false
  hasExecutionSideEffects := false
  guestTrampoline := 0x2000

theorem handleCallSvc_marshals_spilling :
    ∃ (call : NativeCall) (w' : World _), call.func = 0x5000 ∧
      systemV.read spillingTrampoline.types.kinds call.entry.args =
        [100, 0, 1, 2, 3, 4, 5, 6, 7, 0x0706050403020100] ∧
      handleCallSvc .ofList (fun _ w => .ok (⟨42, 0⟩, w)) .cleared 0x10
        (.fresh [spillingTrampoline] 0) = .ok w' ∧ w'.jit.getRegister 0 = 42 := by
  obtain ⟨r, call, vm, hr, hfunc, hread, j, hj, hrun⟩ :=
    (handleCallSvc_marshals .ofList (fun _ w => .ok (⟨42, 0⟩, w)) .cleared 0x10
      (.fresh [spillingTrampoline] 0) spillingTrampoline rfl rfl (by decide)).1 (by decide)
  cases hr
  exact ⟨call, _, hfunc, hread.trans (by decide), hrun, hj.x0⟩

end Sober
