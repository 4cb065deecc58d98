import Sober.SupervisorCall.FastCall
import Sober.SupervisorCall.SlowPath

/-! # Dispatch of an arbitrary supervisor call

A guest may execute a supervisor call with any immediate. The lookup made when
the call is compiled checks its range; the lookup of the handler does not, and
neither does the handler look at the function pointer before it calls.
-/
namespace Sober
open Machine Abi

section Passable
variable (s : ArgState) (m : Memory)

def FunctionArgumentType.placedKind (t : FunctionArgumentType) : Kind := t.kind?.getD .integer

/-- The handler can push a parameter of this type behind parameters placed as
`ks`: it is passed by value, or it is a list whose unread registers fit the buffer. -/
def CanPass (ks : List Kind) : FunctionArgumentType → Prop
  | .variadicList =>
    -128 ≤ (readVaArgsData m (s.at (aapcs64.next ks .integer))).grOffs.toInt
  | t => t.kind?.isSome

def Passable : List Kind → List FunctionArgumentType → Prop
  | _, [] => True
  | ks, t :: ts => CanPass s m ks t ∧ Passable (ks ++ [t.placedKind]) ts

/-- The handler comes to a list with more unread registers than its buffer holds. -/
def Overruns : List Kind → List FunctionArgumentType → Prop
  | _, [] => False
  | ks, t :: ts => t = .variadicList ∧ ¬ CanPass s m ks t ∨
      CanPass s m ks t ∧ Overruns (ks ++ [t.placedKind]) ts

end Passable

theorem Overruns.not_passable {s : ArgState} {m : Memory} {ks : List Kind}
    {ts : List FunctionArgumentType} (h : Overruns s m ks ts) : ¬ Passable s m ks ts := by
  induction ts generalizing ks with
  | nil => exact h.elim
  | cons t ts ih =>
    rintro ⟨ht, hts⟩
    rcases h with ⟨-, hnot⟩ | ⟨-, hrest⟩
    · exact hnot ht
    · exact ih hrest hts

theorem translateVaList_eq_none_iff (m : Memory) (guest : Aarch64VaArgsData)
    (frame : HandlerFrame) :
    translateVaList m guest frame = none ↔ ¬ -128 ≤ guest.grOffs.toInt := by
  have hlo : -2 ^ 31 ≤ guest.grOffs.toInt := BitVec.le_toInt guest.grOffs
  simp only [translateVaList]
  by_cases h : guest.grOffs.toInt ≥ 0
  · rw [if_pos h]
    simp only [reduceCtorEq, false_iff]
    omega
  · have hx := BitVec.toInt_eq_toNat_cond guest.grOffs
    rw [if_neg h, BitVec.toNat_neg]
    split_ifs at hx ⊢ with h1 h2
    all_goals simp only [false_iff, true_iff]
    all_goals omega

section Marshal
variable {dc : Dyncall} {j : JitState} {m : Memory} {ks : List Kind} {c : Cursor dc.Vm}

theorem pushArgument_of_canPass (hc : Placed j ks c) {t : FunctionArgumentType}
    (h : CanPass (j.argState m) m ks t) :
    ∃ c', pushArgument dc j m t c = .ok c' ∧ Placed j (ks ++ [t.placedKind]) c' := by
  cases hk : t.kind? with
  | some k =>
    rcases pushArgument_of_kind (m := m) hk hc with ⟨c', hpush, hc', -⟩
    rw [FunctionArgumentType.placedKind, hk]
    exact ⟨c', hpush, hc'⟩
  | none =>
    have ht : t = .variadicList := by
      cases t <;> simp_all [CanPass, FunctionArgumentType.kind?]
    subst ht
    cases hf : translateVaList m (readVaArgsData m
        ((j.argState m).at (aapcs64.next ks .integer))) c.frame with
    | none => exact absurd h ((translateVaList_eq_none_iff m _ _).mp hf)
    | some f =>
      rcases pushArgument_variadicList hc hf with ⟨c', hpush, hc', -⟩
      exact ⟨c', hpush, hc'⟩

theorem pushArgument_overrun (hc : Placed j ks c)
    (h : ¬ CanPass (j.argState m) m ks .variadicList) :
    pushArgument dc j m .variadicList c = .error .bufferOverrun := by
  rcases hc.takeInteger m with ⟨hvalue, -⟩
  have hf : translateVaList m (readVaArgsData m (c.takeInteger j m).1)
      (c.takeInteger j m).2.frame = none := by
    rw [translateVaList_eq_none_iff, hvalue]
    exact h
  simp only [pushArgument, hf]

theorem pushArgument_unsupported {t : FunctionArgumentType} (ht : t ≠ .variadicList)
    (h : ¬ CanPass (j.argState m) m ks t) :
    pushArgument dc j m t c = .error .unsupportedArgument := by
  cases t with
  | variadicList => exact absurd rfl ht
  | none => rfl
  | unsupported => rfl
  | _ => exact absurd rfl h

theorem marshal_of_passable (hc : Placed j ks c) {ts : List FunctionArgumentType}
    (h : Passable (j.argState m) m ks ts) : ∃ c', marshal dc j m ts c = .ok c' := by
  induction ts generalizing ks c with
  | nil => exact ⟨c, rfl⟩
  | cons t ts ih =>
    rcases pushArgument_of_canPass hc h.1 with ⟨c₁, hpush, hc₁⟩
    rcases ih hc₁ h.2 with ⟨c', hrun⟩
    exact ⟨c', by rw [marshal, hpush]; exact hrun⟩

theorem marshal_of_overruns (hc : Placed j ks c) {ts : List FunctionArgumentType}
    (h : Overruns (j.argState m) m ks ts) :
    ∃ vm, marshal dc j m ts c = .error (.bufferOverrun, vm) := by
  induction ts generalizing ks c with
  | nil => exact h.elim
  | cons t ts ih =>
    rcases h with ⟨rfl, ht⟩ | ⟨ht, hts⟩
    · exact ⟨_, by rw [marshal, pushArgument_overrun hc ht]⟩
    · rcases pushArgument_of_canPass hc ht with ⟨c₁, hpush, hc₁⟩
      rcases ih hc₁ hts with ⟨vm, hrun⟩
      exact ⟨vm, by rw [marshal, hpush]; exact hrun⟩

theorem marshal_of_not_passable (hc : Placed j ks c) {ts : List FunctionArgumentType}
    (h : ¬ Passable (j.argState m) m ks ts) (hbuffer : ¬ Overruns (j.argState m) m ks ts) :
    ∃ vm, marshal dc j m ts c = .error (.unsupportedArgument, vm) := by
  induction ts generalizing ks c with
  | nil => exact absurd trivial h
  | cons t ts ih =>
    by_cases ht : CanPass (j.argState m) m ks t
    · rcases pushArgument_of_canPass hc ht with ⟨c₁, hpush, hc₁⟩
      rcases ih hc₁ (fun hts => h ⟨ht, hts⟩) (fun hts => hbuffer (.inr ⟨ht, hts⟩)) with ⟨vm, hrun⟩
      exact ⟨vm, by rw [marshal, hpush]; exact hrun⟩
    · have hlist : t ≠ .variadicList := fun hlist => hbuffer (.inl ⟨hlist, ht⟩)
      exact ⟨_, by rw [marshal, pushArgument_unsupported hlist ht]⟩

end Marshal

/-- Parameters passed by value can be pushed behind any others. -/
theorem passable_of_supported (s : ArgState) (m : Memory) (ks : List Kind)
    {ts : List FunctionArgumentType} (hts : ∀ t ∈ ts, t.kind?.isSome) : Passable s m ks ts := by
  induction ts generalizing ks with
  | nil => exact trivial
  | cons t ts ih =>
    have ht := hts t (by simp)
    constructor
    · cases t <;> first | exact ht | cases ht
    · exact ih _ (fun t ht => hts t (by simp [ht]))

def Callable (j : JitState) (m : Memory) (types : FunctionTypes) : Prop :=
  Passable (j.argState m) m [] types.params ∧ types.ret.returnType?.isSome

/-- Both lookups of a number find the same entry. -/
theorem fastEligible_of_get {trampolines : List Trampoline} {swi : BitVec 32} {t : Trampoline}
    {fc : SupervisorFastCall} (ht : trampolineGetById trampolines swi = some t)
    (h : getSupervisorFastCall trampolines swi = .ok fc) : FastEligible t fc := by
  rcases getSupervisorFastCall_ok h with ⟨t', ht', he⟩
  rw [trampolineGetById_of_maybe ht'] at ht
  cases ht
  exact he

section Dispatch
variable (dc : Dyncall)

section Invoke
variable (invoke : NativeCall → World dc.Vm → Except Fault (HostReturn × World dc.Vm))

theorem handleCallSvc_of_callable (frame : HandlerFrame) {swi : BitVec 32} {w : World dc.Vm}
    {t : Trampoline} (ht : trampolineGetById w.trampolines swi = some t)
    (h : Callable w.jit w.mem t.types) :
    ∃ r c, handleCallSvc dc invoke frame swi w = callNative dc invoke t.nativeFunc r c w := by
  rcases marshal_of_passable (Placed.initial w.jit (dc.reset w.dyncallVm) frame) h.1 with ⟨c, hrun⟩
  rcases Option.isSome_iff_exists.mp h.2 with ⟨r, hr⟩
  exact ⟨r, _, by simp only [handleCallSvc, ht, hrun, hr]; rfl⟩

theorem handleCallSvc_of_overruns (frame : HandlerFrame) {swi : BitVec 32} {w : World dc.Vm}
    {t : Trampoline} (ht : trampolineGetById w.trampolines swi = some t)
    (h : Overruns (w.jit.argState w.mem) w.mem [] t.types.params) :
    handleCallSvc dc invoke frame swi w = .error .bufferOverrun := by
  have hstart := Placed.initial w.jit (dc.reset w.dyncallVm) frame
  rcases marshal_of_overruns hstart h with ⟨vm, hrun⟩
  simp only [handleCallSvc, ht, hrun]

theorem handleCallSvc_of_not_callable (frame : HandlerFrame) {swi : BitVec 32} {w : World dc.Vm}
    {t : Trampoline} (ht : trampolineGetById w.trampolines swi = some t)
    (hbuffer : ¬ Overruns (w.jit.argState w.mem) w.mem [] t.types.params)
    (h : ¬ Callable w.jit w.mem t.types) :
    ∃ w', handleCallSvc dc invoke frame swi w = .ok w' ∧ w'.calls = w.calls := by
  have hstart := Placed.initial w.jit (dc.reset w.dyncallVm) frame
  by_cases hp : Passable (w.jit.argState w.mem) w.mem [] t.types.params
  · rcases marshal_of_passable hstart hp with ⟨c, hrun⟩
    have hret : t.types.ret.returnType? = none := by
      rw [← Option.not_isSome_iff_eq_none]
      exact fun hr => h ⟨hp, hr⟩
    simp [handleCallSvc, ht, hrun, hret]
  · rcases marshal_of_not_passable hstart hp hbuffer with ⟨vm, hrun⟩
    simp [handleCallSvc, ht, hrun]

def dispatchSupervisorCall (host : HostEntry) (frame : HandlerFrame) (swi : BitVec 32)
    (w : World dc.Vm) : Except Fault (World dc.Vm) :=
  match getSupervisorFastCall w.trampolines swi with
  | .ok fc => emittedFastCall dc invoke host fc w
  | .error _ => slowSupervisorCall dc invoke frame swi w

/-- The handler calls the function that the registry holds. -/
theorem slowSupervisorCall_of_callable (frame : HandlerFrame) {swi : BitVec 32} {w : World dc.Vm}
    {t : Trampoline} (ht : trampolineGetById w.trampolines swi = some t)
    (h : Callable w.jit w.mem t.types) :
    ∃ call : NativeCall, call.func = t.nativeFunc ∧
      MakesOneCall dc invoke call w (slowSupervisorCall dc invoke frame swi w) := by
  let halted : World dc.Vm :=
    { emittedCallSVC dc swi w with haltReason := 0, isExecuting := false }
  have hget : trampolineGetById halted.trampolines swi = some t := ht
  have hcallable : Callable halted.jit halted.mem t.types := h
  rcases handleCallSvc_of_callable dc invoke frame hget hcallable with ⟨r, c, hcall⟩
  refine ⟨⟨t.nativeFunc, dc.enter c.vm, some c.frame⟩, rfl, ?_⟩
  have hslow : slowSupervisorCall dc invoke frame swi w =
      callNative dc invoke t.nativeFunc r c halted := hcall
  rw [hslow]
  exact callNative_makesOneCall dc invoke t.nativeFunc r c halted

/-- An entry that can be called is called once, on whichever path. -/
theorem dispatch_of_callable (host : HostEntry) (frame : HandlerFrame) {swi : BitVec 32}
    {w : World dc.Vm} {t : Trampoline} (ht : trampolineGetById w.trampolines swi = some t)
    (h : Callable w.jit w.mem t.types) :
    ∃ call : NativeCall, call.func = t.nativeFunc ∧
      MakesOneCall dc invoke call w (dispatchSupervisorCall dc invoke host frame swi w) := by
  unfold dispatchSupervisorCall
  cases hfast : getSupervisorFastCall w.trampolines swi with
  | ok fc =>
    exact ⟨_, (fastEligible_of_get ht hfast).function,
      emittedFastCall_makesOneCall dc invoke host fc w⟩
  | error message => exact slowSupervisorCall_of_callable dc invoke frame ht h

/-- An entry with a fast call can always be called. -/
theorem FastEligible.callable {t : Trampoline} {fc : SupervisorFastCall} (h : FastEligible t fc)
    (j : JitState) (m : Memory) : Callable j m t.types := by
  exact ⟨passable_of_supported _ _ _ h.supported.1, h.supported.2⟩

/-- What cannot be called has no fast call, so it comes to the handler. -/
theorem dispatch_eq_slow (host : HostEntry) (frame : HandlerFrame) {swi : BitVec 32}
    {w : World dc.Vm} {t : Trampoline} (ht : trampolineGetById w.trampolines swi = some t)
    (h : ¬ Callable w.jit w.mem t.types) :
    dispatchSupervisorCall dc invoke host frame swi w =
      slowSupervisorCall dc invoke frame swi w := by
  unfold dispatchSupervisorCall
  cases hfast : getSupervisorFastCall w.trampolines swi with
  | ok fc => exact absurd ((fastEligible_of_get ht hfast).callable w.jit w.mem) h
  | error message => rfl

theorem dispatch_of_not_callable (host : HostEntry) (frame : HandlerFrame) {swi : BitVec 32}
    {w : World dc.Vm} {t : Trampoline} (ht : trampolineGetById w.trampolines swi = some t)
    (hbuffer : ¬ Overruns (w.jit.argState w.mem) w.mem [] t.types.params)
    (h : ¬ Callable w.jit w.mem t.types) :
    ∃ w', dispatchSupervisorCall dc invoke host frame swi w = .ok w' ∧ w'.calls = w.calls := by
  let halted : World dc.Vm :=
    { emittedCallSVC dc swi w with haltReason := 0, isExecuting := false }
  have hget : trampolineGetById halted.trampolines swi = some t := ht
  have hrange : ¬ Overruns (halted.jit.argState halted.mem) halted.mem [] t.types.params := hbuffer
  have hcallable : ¬ Callable halted.jit halted.mem t.types := h
  rw [dispatch_eq_slow dc invoke host frame ht h]
  exact handleCallSvc_of_not_callable dc invoke frame hget hrange hcallable

theorem dispatch_of_overruns (host : HostEntry) (frame : HandlerFrame) {swi : BitVec 32}
    {w : World dc.Vm} {t : Trampoline} (ht : trampolineGetById w.trampolines swi = some t)
    (h : Overruns (w.jit.argState w.mem) w.mem [] t.types.params) :
    dispatchSupervisorCall dc invoke host frame swi w = .error .bufferOverrun := by
  let halted : World dc.Vm :=
    { emittedCallSVC dc swi w with haltReason := 0, isExecuting := false }
  have hget : trampolineGetById halted.trampolines swi = some t := ht
  have hover : Overruns (halted.jit.argState halted.mem) halted.mem [] t.types.params := h
  rw [dispatch_eq_slow dc invoke host frame ht (fun hc => h.not_passable hc.1)]
  exact handleCallSvc_of_overruns dc invoke frame hget hover

theorem dispatch_outOfRange (host : HostEntry) (frame : HandlerFrame) {swi : BitVec 32}
    {w : World dc.Vm} (ht : trampolineGetById w.trampolines swi = none) :
    dispatchSupervisorCall dc invoke host frame swi w = .error .outOfRange := by
  unfold dispatchSupervisorCall
  cases hfast : getSupervisorFastCall w.trampolines swi with
  | ok fc =>
    rcases getSupervisorFastCall_ok hfast with ⟨t, ht', -⟩
    rw [trampolineGetById_of_maybe ht'] at ht
    cases ht
  | error message =>
    have hget : trampolineGetById (emittedCallSVC dc swi w).trampolines
        (emittedCallSVC dc swi w).svcNumber = none := ht
    simp only [slowSupervisorCall, handleCallSvc, hget]

end Invoke

/-- Whatever the native functions do, a valid number calls a function that is
not null, and otherwise the call is reported or ignored. A fault of the handler
itself, in the registry or in its buffer, is neither. -/
def DispatchSafe (host : HostEntry) (frame : HandlerFrame) (swi : BitVec 32)
    (w : World dc.Vm) : Prop :=
  ∀ invoke : NativeCall → World dc.Vm → Except Fault (HostReturn × World dc.Vm),
    (trampolineIdOffset ≤ swi ∧ ∃ call : NativeCall, call.func ≠ 0 ∧
      MakesOneCall dc invoke call w (dispatchSupervisorCall dc invoke host frame swi w)) ∨
    (∃ w', dispatchSupervisorCall dc invoke host frame swi w = .ok w' ∧ w'.calls = w.calls)

/-- A native call that returns at once, unless the function is null. -/
def crashOnNull (call : NativeCall) (w : World dc.Vm) : Except Fault (HostReturn × World dc.Vm) :=
  if call.func = 0 then .error .assertion else .ok (⟨0, 0⟩, w)

theorem MakesOneCall.of_nonnull {dc : Dyncall} {call : NativeCall} {w : World dc.Vm}
    {run : Except Fault (World dc.Vm)} (h : MakesOneCall dc (crashOnNull dc) call w run)
    (hfunc : call.func ≠ 0) : ∃ w', run = .ok w' ∧ w'.calls = w.calls ++ [call] := by
  rcases h with ⟨w₁, finish, hcalls, -, hfinish, hrun⟩
  rw [crashOnNull, if_neg hfunc] at hrun
  exact ⟨_, hrun, (hfinish _).trans hcalls⟩

theorem MakesOneCall.of_null {dc : Dyncall} {call : NativeCall} {w : World dc.Vm}
    {run : Except Fault (World dc.Vm)} (h : MakesOneCall dc (crashOnNull dc) call w run)
    (hfunc : call.func = 0) : run = .error .assertion := by
  rcases h with ⟨w₁, finish, -, -, -, hrun⟩
  rw [crashOnNull, if_pos hfunc] at hrun
  exact hrun

theorem not_dispatchSafe_of_error {host : HostEntry} {frame : HandlerFrame} {swi : BitVec 32}
    {w : World dc.Vm} {e : Fault}
    (h : dispatchSupervisorCall dc (crashOnNull dc) host frame swi w = .error e) :
    ¬ DispatchSafe dc host frame swi w := by
  intro hsafe
  have hcase := hsafe (crashOnNull dc)
  rw [h] at hcase
  rcases hcase with ⟨-, call, hfunc, hone⟩ | ⟨w', hrun, -⟩
  · rcases hone.of_nonnull hfunc with ⟨w', hrun, -⟩
    cases hrun
  · cases hrun

theorem not_dispatchSafe_of_outOfRange (host : HostEntry) (frame : HandlerFrame)
    {swi : BitVec 32} {w : World dc.Vm} (ht : trampolineGetById w.trampolines swi = none) :
    ¬ DispatchSafe dc host frame swi w :=
  not_dispatchSafe_of_error dc (dispatch_outOfRange dc (crashOnNull dc) host frame ht)

/-- An entry that can be called is safe to call only under a valid number and with
a function that is not null. -/
theorem valid_of_dispatchSafe {host : HostEntry} {frame : HandlerFrame} {swi : BitVec 32}
    {w : World dc.Vm} {t : Trampoline} (hsafe : DispatchSafe dc host frame swi w)
    (ht : trampolineGetById w.trampolines swi = some t) (h : Callable w.jit w.mem t.types) :
    trampolineIdOffset ≤ swi ∧ t.nativeFunc ≠ 0 := by
  obtain ⟨call, hfunc, hone⟩ := dispatch_of_callable dc (crashOnNull dc) host frame ht h
  have hnull : t.nativeFunc ≠ 0 := fun hnull =>
    not_dispatchSafe_of_error dc (hone.of_null (hfunc.trans hnull)) hsafe
  refine ⟨?_, hnull⟩
  rcases hone.of_nonnull (hfunc ▸ hnull) with ⟨w', hrun, hcalls⟩
  rcases hsafe (crashOnNull dc) with ⟨hvalid, -⟩ | ⟨w'', hw, hsame⟩
  · exact hvalid
  · rw [hrun] at hw
    cases hw
    simp [hcalls] at hsame

/-- The number is dispatched safely if and only if the unchecked index hits an
entry, no list overruns the handler's buffer, and either the number is valid and
the function is not null, or the handler does not support the signature and so
makes no call. -/
theorem dispatch_safe_iff (host : HostEntry) (frame : HandlerFrame) (v : BitVec 16)
    (w : World dc.Vm) :
    DispatchSafe dc host frame (v.setWidth 32) w ↔
      ∃ t, trampolineGetById w.trampolines (v.setWidth 32) = some t ∧
        ¬ Overruns (w.jit.argState w.mem) w.mem [] t.types.params ∧
        (trampolineIdOffset ≤ v.setWidth 32 ∧ t.nativeFunc ≠ 0 ∨
          ¬ Callable w.jit w.mem t.types) := by
  constructor
  · intro hsafe
    cases ht : trampolineGetById w.trampolines (v.setWidth 32) with
    | none => exact absurd hsafe (not_dispatchSafe_of_outOfRange dc host frame ht)
    | some t =>
      refine ⟨t, rfl, ?_, ?_⟩
      · intro hover
        exact not_dispatchSafe_of_error dc
          (dispatch_of_overruns dc (crashOnNull dc) host frame ht hover) hsafe
      · by_cases hcallable : Callable w.jit w.mem t.types
        · exact .inl (valid_of_dispatchSafe dc hsafe ht hcallable)
        · exact .inr hcallable
  · rintro ⟨t, ht, hbuffer, hcase⟩ invoke
    by_cases hcallable : Callable w.jit w.mem t.types
    · left
      have hvalid := hcase.resolve_right (not_not_intro hcallable)
      rcases dispatch_of_callable dc invoke host frame ht hcallable with ⟨call, hfunc, hone⟩
      exact ⟨hvalid.1, call, hfunc ▸ hvalid.2, hone⟩
    · right
      exact dispatch_of_not_callable dc invoke host frame ht hbuffer hcallable

end Dispatch

/-- The guest executes `svc #0`, as any program for the same kernel may. -/
theorem dispatch_not_always_safe :
    ¬ DispatchSafe .ofList ⟨⟨fun _ _ => 0, fun _ => 0⟩, 0⟩ .cleared ((0 : BitVec 16).setWidth 32)
      (.fresh [spillingTrampoline] 0) := by
  exact not_dispatchSafe_of_outOfRange .ofList _ _ rfl

end Sober
