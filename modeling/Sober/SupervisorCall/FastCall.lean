import Sober.SupervisorCall.Handler

/-! # Supervisor calls compiled into direct calls

When the JIT translates a supervisor call it asks the environment whether the
entry can be called directly. If so the emitted code loads the first argument
registers of each class and calls the function; otherwise it leaves the guest
so that the handler makes the call.
-/
namespace Sober
open Machine Abi

structure SupervisorFastCall where
  function : Word
  integerParams : ℕ
  floatParams : ℕ
  returnType : ReturnType
  deriving DecidableEq

def variadicTrampolineFastPath : Bool := true

/-- The loop over the parameter types; the counters stay far from their width. -/
def countParams : List FunctionArgumentType → ℕ → ℕ → Except (Option String) (ℕ × ℕ)
  | [], intArgs, floatArgs => .ok (intArgs, floatArgs)
  | t :: ts, intArgs, floatArgs =>
    match t with
    | .variadicList => .error none
    | t =>
      match t.kind? with
      | some .integer => countParams ts (intArgs + 1) floatArgs
      | some .floating => countParams ts intArgs (floatArgs + 1)
      | none => .error (some "GetSupervisorFastCall: Unsupported function argument type")

/-- An error stands for `nullopt`, with the message that goes to `cerr` if there is one. -/
def getSupervisorFastCall (trampolines : List Trampoline) (swi : BitVec 32) :
    Except (Option String) SupervisorFastCall :=
  match trampolineMaybeGetById trampolines swi with
  | none => .error none
  | some trampoline =>
    if trampoline.nativeFunc = 0 then .error none
    else if trampoline.hasExecutionSideEffects then .error none
    else if !variadicTrampolineFastPath && trampoline.isEllipsisFunction then .error none
    else
      match countParams trampoline.types.params 0 0 with
      | .error message => .error message
      | .ok (intArgs, floatArgs) =>
        if intArgs > 6 ∨ floatArgs > 8 then .error none
        else
          let allRegisters := variadicTrampolineFastPath && trampoline.isEllipsisFunction
          match trampoline.types.ret.returnType? with
          | none => .error (some "GetSupervisorFastCall: Unsupported function return type")
          | some returnType => .ok {
              function := trampoline.nativeFunc
              integerParams := if allRegisters then 6 else intArgs
              floatParams := if allRegisters then 8 else floatArgs
              returnType := returnType }

/-- Host registers at the emitted call: the loaded ones, and for the others, for
the stack and for `al` whatever `host` had. -/
def SupervisorFastCall.entry (fc : SupervisorFastCall) (j : JitState) (host : HostEntry) :
    HostEntry where
  args := {
    reg
      | .integer, i => if i < fc.integerParams then j.getRegister i else host.args.reg .integer i
      | .floating, i =>
        if i < fc.floatParams then (j.getVector i).lo else host.args.reg .floating i
    stack := host.args.stack }
  al := host.al

def storeResult (r : ReturnType) (ret : HostReturn) (j : JitState) : JitState :=
  match r with
  | .integer => j.setRegister 0 ret.rax
  | .float => j.setVectorFirst 0 ret.xmm0
  | .void => j

def haltSupervisorCall : BitVec 32 := 0x02000000
def haltSuccessfulExit : BitVec 32 := 0x01000000

/-- The callback of a call that is not compiled: note the number and leave the guest. -/
def callSVC {Vm : Type} (swi : BitVec 32) (w : World Vm) : World Vm :=
  { w with svcNumber := swi, haltReason := w.haltReason ||| haltSupervisorCall }

section Emitted
variable (dc : Dyncall)
  (invoke : NativeCall → World dc.Vm → Except Fault (HostReturn × World dc.Vm))

def emittedFastCall (host : HostEntry) (fc : SupervisorFastCall) (w : World dc.Vm) :
    Except Fault (World dc.Vm) :=
  let call : NativeCall := ⟨fc.function, fc.entry w.jit host, none⟩
  match invoke call { w with calls := w.calls ++ [call] } with
  | .error e => .error e
  | .ok (ret, w') =>
    .ok { w' with jit := (storeResult fc.returnType ret w'.jit).clearExclusiveState }

def emittedCallSVC (swi : BitVec 32) (w : World dc.Vm) : World dc.Vm :=
  let w := callSVC swi w
  { w with jit := w.jit.clearExclusiveState }

def emitA64CallSupervisor (host : HostEntry) (swi : BitVec 32) (w : World dc.Vm) :
    Except Fault (World dc.Vm) :=
  match getSupervisorFastCall w.trampolines swi with
  | .ok fc => emittedFastCall dc invoke host fc w
  | .error _ => .ok (emittedCallSVC dc swi w)

/-- The same call through the handler: the JIT halts, consumes the halt reason,
and the loop handles the noted number. -/
def slowSupervisorCall (frame : HandlerFrame) (swi : BitVec 32) (w : World dc.Vm) :
    Except Fault (World dc.Vm) :=
  let w := emittedCallSVC dc swi w
  handleCallSvc dc invoke frame w.svcNumber { w with haltReason := 0, isExecuting := false }

theorem emittedFastCall_makesOneCall (host : HostEntry) (fc : SupervisorFastCall)
    (w : World dc.Vm) :
    MakesOneCall dc invoke ⟨fc.function, fc.entry w.jit host, none⟩ w
      (emittedFastCall dc invoke host fc w) := by
  refine ⟨{ w with calls := w.calls ++ [⟨fc.function, fc.entry w.jit host, none⟩] },
    fun p => { p.2 with
      jit := (storeResult fc.returnType p.1 p.2.jit).clearExclusiveState }, rfl, rfl,
    fun _ => rfl, ?_⟩
  rw [emittedFastCall]
  cases invoke ⟨fc.function, fc.entry w.jit host, none⟩ _ with
  | error e => rfl
  | ok result => rfl

theorem emittedFastCall_ok
    {invoke : NativeCall → World dc.Vm → Except Fault (HostReturn × World dc.Vm)}
    {host : HostEntry} {fc : SupervisorFastCall} {w w' : World dc.Vm}
    (h : emittedFastCall dc invoke host fc w = .ok w') :
    ∃ call ret w₁, call = ⟨fc.function, fc.entry w.jit host, none⟩ ∧
      invoke call { w with calls := w.calls ++ [call] } = .ok (ret, w₁) ∧
      w' = { w₁ with jit := (storeResult fc.returnType ret w₁.jit).clearExclusiveState } := by
  rw [emittedFastCall] at h
  cases hi : invoke ⟨fc.function, fc.entry w.jit host, none⟩ { w with
      calls := w.calls ++ [⟨fc.function, fc.entry w.jit host, none⟩] } with
  | error e =>
    rw [hi] at h
    cases h
  | ok result =>
    rw [hi] at h
    cases h
    exact ⟨_, result.1, result.2, rfl, hi, rfl⟩

theorem emittedFastCall_error
    {invoke : NativeCall → World dc.Vm → Except Fault (HostReturn × World dc.Vm)}
    {host : HostEntry} {fc : SupervisorFastCall} {w : World dc.Vm} {e : Fault}
    (h : emittedFastCall dc invoke host fc w = .error e) :
    ∃ call, call = ⟨fc.function, fc.entry w.jit host, none⟩ ∧
      invoke call { w with calls := w.calls ++ [call] } = .error e := by
  rw [emittedFastCall] at h
  cases hi : invoke ⟨fc.function, fc.entry w.jit host, none⟩ { w with
      calls := w.calls ++ [⟨fc.function, fc.entry w.jit host, none⟩] } with
  | error e' =>
    rw [hi] at h
    cases h
    exact ⟨_, rfl, hi⟩
  | ok result =>
    rw [hi] at h
    cases h

end Emitted

theorem count_cons_kind (a k : Kind) (ks : List Kind) :
    List.count a (k :: ks) = List.count a [k] + List.count a ks := by
  rw [← List.count_append, List.singleton_append]

theorem countParams_cons {t : FunctionArgumentType} {k : Kind} (hk : t.kind? = some k)
    (ts : List FunctionArgumentType) (i f : ℕ) :
    countParams (t :: ts) i f =
      countParams ts (i + List.count .integer [k]) (f + List.count .floating [k]) := by
  cases t <;> cases hk <;> rfl

theorem countParams_of_supported (ts : List FunctionArgumentType)
    (hts : ∀ t ∈ ts, t.kind?.isSome) (i f : ℕ) :
    countParams ts i f = .ok (i + (ts.filterMap FunctionArgumentType.kind?).count .integer,
      f + (ts.filterMap FunctionArgumentType.kind?).count .floating) := by
  induction ts generalizing i f with
  | nil => rfl
  | cons t ts ih =>
    rcases Option.isSome_iff_exists.mp (hts t (by simp)) with ⟨k, hk⟩
    have hrest : ∀ t ∈ ts, t.kind?.isSome := fun t ht => hts t (by simp [ht])
    rw [countParams_cons hk, List.filterMap_cons_some hk, ih hrest,
      count_cons_kind .integer k (ts.filterMap _), count_cons_kind .floating k (ts.filterMap _),
      Nat.add_assoc, Nat.add_assoc]

/-- What the environment checks before it hands out a fast call. -/
theorem countParams_ok {ts : List FunctionArgumentType} {i f : ℕ} {n : ℕ × ℕ}
    (h : countParams ts i f = .ok n) :
    (∀ t ∈ ts, t.kind?.isSome) ∧
      n.1 = i + (ts.filterMap FunctionArgumentType.kind?).count .integer ∧
      n.2 = f + (ts.filterMap FunctionArgumentType.kind?).count .floating := by
  induction ts generalizing i f with
  | nil =>
    cases h
    simp
  | cons t ts ih =>
    cases hk : t.kind? with
    | none => cases t <;> simp_all [countParams, FunctionArgumentType.kind?]
    | some k =>
      rw [countParams_cons hk] at h
      rcases ih h with ⟨hall, hi, hf⟩
      rw [List.filterMap_cons_some hk, count_cons_kind .integer, count_cons_kind .floating,
        ← Nat.add_assoc, ← Nat.add_assoc]
      exact ⟨by simpa [hk] using hall, hi, hf⟩

/-- Everything that is known of an entry with a fast call. -/
structure FastEligible (t : Trampoline) (fc : SupervisorFastCall) : Prop where
  function : fc.function = t.nativeFunc
  nonnull : t.nativeFunc ≠ 0
  pure : t.hasExecutionSideEffects = false
  supported : t.types.Supported
  integers : t.types.kinds.count .integer ≤ 6
  floats : t.types.kinds.count .floating ≤ 8
  integerParams : fc.integerParams =
    if t.isEllipsisFunction then 6 else t.types.kinds.count .integer
  floatParams : fc.floatParams =
    if t.isEllipsisFunction then 8 else t.types.kinds.count .floating
  returnType : t.types.ret.returnType? = some fc.returnType

theorem getSupervisorFastCall_ok {trampolines : List Trampoline} {swi : BitVec 32}
    {fc : SupervisorFastCall} (h : getSupervisorFastCall trampolines swi = .ok fc) :
    ∃ t, trampolineMaybeGetById trampolines swi = some t ∧ FastEligible t fc := by
  cases ht : trampolineMaybeGetById trampolines swi with
  | none => simp [getSupervisorFastCall, ht] at h
  | some t =>
    have h0 : t.nativeFunc ≠ 0 := by
      intro h0
      simp [getSupervisorFastCall, ht, h0] at h
    have hp : t.hasExecutionSideEffects = false := by
      cases hp : t.hasExecutionSideEffects with
      | false => rfl
      | true => simp [getSupervisorFastCall, ht, hp] at h
    simp only [getSupervisorFastCall, ht, if_neg h0, hp, variadicTrampolineFastPath,
      Bool.not_true, Bool.false_and, Bool.true_and, Bool.false_eq_true, if_false] at h
    cases hn : countParams t.types.params 0 0 with
    | error message => simp [hn] at h
    | ok n =>
      rcases countParams_ok hn with ⟨hall, hi, hf⟩
      rw [zero_add] at hi hf
      rw [hn] at h
      change (if n.1 > 6 ∨ n.2 > 8 then _ else _) = _ at h
      have hl : ¬ (n.1 > 6 ∨ n.2 > 8) := by
        intro hl
        rw [if_pos hl] at h
        cases h
      rw [if_neg hl] at h
      rw [hi, hf] at hl
      cases hr : t.types.ret.returnType? with
      | none => simp [hr] at h
      | some r =>
        simp only [hr, Except.ok.injEq] at h
        subst h
        exact ⟨t, rfl, rfl, h0, hp, ⟨hall, by simp [hr]⟩,
          not_lt.mp (fun h => hl (.inl h)), not_lt.mp (fun h => hl (.inr h)), by rw [hi]; rfl,
          by rw [hf]; rfl, hr⟩

/-- These checks are all: an entry that passes them has a fast call. -/
theorem getSupervisorFastCall_of_supported {trampolines : List Trampoline} {swi : BitVec 32}
    {t : Trampoline} (ht : trampolineMaybeGetById trampolines swi = some t)
    (h0 : t.nativeFunc ≠ 0) (hp : t.hasExecutionSideEffects = false) (hs : t.types.Supported)
    (hi : t.types.kinds.count .integer ≤ 6) (hf : t.types.kinds.count .floating ≤ 8) :
    ∃ fc, getSupervisorFastCall trampolines swi = .ok fc := by
  rcases Option.isSome_iff_exists.mp hs.2 with ⟨r, hr⟩
  have hl : ¬ (t.types.kinds.count .integer > 6 ∨ t.types.kinds.count .floating > 8) := by
    omega
  simp only [FunctionTypes.kinds] at hl
  simp only [getSupervisorFastCall, ht, if_neg h0, hp, variadicTrampolineFastPath,
    countParams_of_supported _ hs.1, zero_add, if_neg hl, hr, Bool.not_true, Bool.false_and,
    Bool.false_eq_true, if_false]
  exact ⟨_, rfl⟩

end Sober
