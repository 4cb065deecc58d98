import Sober.Fiber.Reentry
import Sober.SupervisorCall.SlowPath

/-! # A fiber as a sequence of steps

Between the start of a fiber and its exit the loop alternates between guest
instructions and handled supervisor calls. Each is one step here; the fibers
that a native function runs are part of its step. The states of a loop that
returns are such a sequence, so what every step keeps holds at each point of a
fiber, also of one that never returns.
-/
namespace Sober
open Machine Abi

/-- `Jit::Run` has returned and the halt reason was consumed. -/
def World.halted {Vm : Type} (w : World Vm) : World Vm :=
  { w with haltReason := 0, isExecuting := false }

/-- The next turn of the loop has entered `Jit::Run`. -/
def World.resumed {Vm : Type} (w : World Vm) : World Vm :=
  { w with jit := w.jit.clearExclusiveState, isExecuting := true }

inductive FiberStep {dc : Dyncall} (env : Env dc.Vm) : World dc.Vm → World dc.Vm → Prop
  | guest {n : ℕ} {w w' : World dc.Vm} (hhalt : w.haltReason = 0)
      (h : guestStep env (executionLoop env n) w = .ok w') : FiberStep env w w'
  | handler {n : ℕ} {w w' : World dc.Vm} (hhalt : w.haltReason = haltSupervisorCall)
      (h : handleCallSvc dc (env.invoke (executionLoop env n)) (env.frame w.halted) w.svcNumber
        w.halted = .ok w') : FiberStep env w w'.resumed

section Steps
variable {dc : Dyncall} {env : Env dc.Vm}

abbrev FiberSteps (env : Env dc.Vm) : World dc.Vm → World dc.Vm → Prop :=
  Relation.ReflTransGen (FiberStep env)

/-- A run of the JIT is a sequence of guest instructions up to a halt. -/
theorem fiberSteps_of_runCode {n fuel : ℕ} {w w' : World dc.Vm} {reason : BitVec 32}
    (h : runCode env (executionLoop env n) fuel w = .ok (reason, w')) :
    ∃ w₁, FiberSteps env w w₁ ∧ w₁.haltReason = reason ∧ w' = w₁.halted := by
  induction fuel generalizing w with
  | zero => cases h
  | succ fuel ih =>
    rcases runCode_succ h with ⟨-, rfl, rfl⟩ | ⟨hhalt, w₂, hstep, hrest⟩
    · exact ⟨w, .refl, rfl, rfl⟩
    · obtain ⟨w₁, hsteps, hreason, rfl⟩ := ih hrest
      exact ⟨w₁, hsteps.head (.guest hhalt hstep), hreason, rfl⟩

/-- A loop that returns is a sequence of steps to a state in which the exit is
requested. -/
theorem fiberSteps_of_executionLoop (n : ℕ) {w w' : World dc.Vm}
    (h : executionLoop env n w = .ok w') :
    ∃ w₁, FiberSteps env w.resumed w₁ ∧ w₁.haltReason = haltSuccessfulExit ∧ w' = w₁.halted := by
  induction n generalizing w with
  | zero => cases h
  | succ n ih =>
    obtain ⟨reason, w₁, hjit, hrest⟩ := executionLoop_succ h
    obtain ⟨w₂, hsteps, hreason, rfl⟩ := fiberSteps_of_runCode (jitRun_ok hjit).2
    rcases hrest with ⟨rfl, w₃, hhandled, hloop⟩ | ⟨rfl, rfl⟩
    · obtain ⟨w₄, hmore, hexit, rfl⟩ := ih hloop
      exact ⟨w₄, (hsteps.tail (.handler hreason hhandled)).trans hmore, hexit, rfl⟩
    · exact ⟨w₂, hsteps, hreason, rfl⟩

/-- The JIT executes at every point of a fiber, and the registry stays. -/
theorem FiberStep.control {w w' : World dc.Vm} (h : FiberStep env w w')
    (hexec : w.isExecuting = true) :
    w'.isExecuting = true ∧ w'.trampolines = w.trampolines := by
  cases h with
  | guest hhalt hstep =>
    obtain ⟨htrampolines, -, hexec', -⟩ :=
      guestStep_control (executionLoop_calm _) hexec hhalt hstep
    exact ⟨hexec', htrampolines⟩
  | handler hhalt hhandled =>
    exact ⟨rfl, (handleCallSvc_calm (executionLoop_calm _) hhandled).trampolines⟩

theorem FiberSteps.control {w w' : World dc.Vm} (h : FiberSteps env w w')
    (hexec : w.isExecuting = true) :
    w'.isExecuting = true ∧ w'.trampolines = w.trampolines := by
  induction h with
  | refl => exact ⟨hexec, rfl⟩
  | tail _ hstep ih =>
    obtain ⟨hexec', htrampolines⟩ := hstep.control ih.1
    exact ⟨hexec', htrampolines.trans ih.2⟩

end Steps

/-- An argument of a host function that is passed in an integer register. -/
def NativeCall.integer (call : NativeCall) (i : ℕ) : Word := call.entry.args.reg .integer i

section Call
variable {dc : Dyncall}

/-- The guest is about to execute the supervisor call of an entry. -/
structure AtSupervisorCall {Vm : Type} (w : World Vm) (id : BitVec 32) : Prop where
  executing : w.isExecuting = true
  running : w.haltReason = 0
  svc : (decodeSvc (read32 w.mem w.jit.pc)).map (BitVec.setWidth 32) = some id

/-- The registry has an entry of fixed arity for a function that does `body` and
is registered as having side effects on the execution context. -/
def HasEntry (env : Env dc.Vm) (trampolines : List Trampoline) (id : BitVec 32)
    (types : FunctionTypes) (body : NativeCall → NativeBody) : Prop :=
  ∃ t, trampolineMaybeGetById trampolines id = some t ∧ t.types = types ∧
    t.isEllipsisFunction = false ∧ t.hasExecutionSideEffects = true ∧
    ∀ call, call.func = t.nativeFunc → env.native call = body call

/-- The guest executes a supervisor call and the loop handles it. -/
def SupervisorCalled (env : Env dc.Vm) (w w' : World dc.Vm) : Prop :=
  ∃ w₁, FiberStep env w w₁ ∧ FiberStep env w₁ w'

theorem getSupervisorFastCall_of_sideEffects {trampolines : List Trampoline} {id : BitVec 32}
    {t : Trampoline} (ht : trampolineMaybeGetById trampolines id = some t)
    (heffects : t.hasExecutionSideEffects = true) (fc : SupervisorFastCall) :
    getSupervisorFastCall trampolines id ≠ .ok fc := by
  intro hfast
  obtain ⟨t', ht', heligible⟩ := getSupervisorFastCall_ok hfast
  rw [ht, Option.some.injEq] at ht'
  subst ht'
  rw [heligible.pure] at heffects
  cases heffects

theorem guestStep_of_entry {env : Env dc.Vm} {w : World dc.Vm} {id : BitVec 32} {t : Trampoline}
    (ht : trampolineMaybeGetById w.trampolines id = some t)
    (heffects : t.hasExecutionSideEffects = true) (hat : AtSupervisorCall w id) (n : ℕ) :
    guestStep env (executionLoop env n) w = .ok (emittedCallSVC dc id w.issue) := by
  obtain ⟨imm, himm, rfl⟩ := Option.map_eq_some_iff.mp hat.svc
  simp only [guestStep, hintException_of_svc himm, himm, emitA64CallSupervisor]
  cases hfast : getSupervisorFastCall w.trampolines (imm.setWidth 32) with
  | ok fc => exact absurd hfast (getSupervisorFastCall_of_sideEffects ht heffects fc)
  | error message => rfl

/-- Such a call halts the JIT, and the handler runs the body on the arguments that
the guest passed, over the registers behind the call. -/
theorem supervisorCalled_iff {env : Env dc.Vm} {w : World dc.Vm} {id : BitVec 32}
    {types : FunctionTypes} {body : NativeCall → NativeBody} {r : ReturnType}
    (hentry : HasEntry env w.trampolines id types body) (hat : AtSupervisorCall w id)
    (hs : types.Supported) (hr : types.ret.returnType? = some r) :
    ∃ call w₁, systemV.read types.kinds call.entry.args =
        aapcs64.read types.kinds (w.jit.argState w.mem) ∧
      w₁.jit = { w.jit with pc := w.jit.pc + 4 }.clearExclusiveState ∧ w₁.mem = w.mem ∧
      ∀ w', SupervisorCalled env w w' ↔ ∃ n value w₂,
        (body call).exec (fiberRun (executionLoop env n) call.func) w₁ = .ok (value, w₂) ∧
        w' = { w₂ with jit := writeBack r w₁.jit value w₂.jit }.resumed := by
  obtain ⟨t, ht, rfl, hfixed, heffects, hbody⟩ := hentry
  set w₀ := emittedCallSVC dc id w.issue
  have hhalt : w₀.haltReason = haltSupervisorCall := by
    change w.haltReason ||| haltSupervisorCall = haltSupervisorCall
    rw [hat.running]
    rfl
  have hne : w₀.haltReason ≠ 0 := by
    rw [hhalt]
    decide
  obtain ⟨r', c, hr', hpasses, hcall⟩ := handleCallSvc_of_supported dc (env.frame w₀.halted)
    (w := w₀.halted) (trampolineGetById_of_maybe ht) hfixed hs
  obtain rfl : r = r' := Option.some.inj (hr.symm.trans hr')
  refine ⟨⟨t.nativeFunc, dc.enter c.vm, some c.frame⟩, { w₀.halted with
      dyncallVm := c.vm
      calls := w₀.halted.calls ++ [⟨t.nativeFunc, dc.enter c.vm, some c.frame⟩] },
    hpasses.read_enter, rfl, rfl, ?_⟩
  intro w'
  rw [← hbody _ rfl]
  constructor
  · rintro ⟨w₁, hstep₁, hstep₂⟩
    cases hstep₁ with
    | handler hsvc _ =>
      rw [hat.running] at hsvc
      cases hsvc
    | guest _ hguest =>
      rw [guestStep_of_entry ht heffects hat, Except.ok.injEq] at hguest
      subst hguest
      cases hstep₂ with
      | guest hrunning _ => exact absurd hrunning hne
      | @handler n _ w₂ _ hhandled =>
        obtain ⟨call, ret, w₃, rfl, hinvoke, rfl⟩ :=
          callNative_ok dc ((hcall (env.invoke (executionLoop env n))).symm.trans hhandled)
        exact ⟨n, ret, w₃, hinvoke, rfl⟩
  · rintro ⟨n, value, w₂, hexec, rfl⟩
    refine ⟨w₀, .guest hat.running (guestStep_of_entry ht heffects hat n),
      .handler (n := n) hhalt ?_⟩
    refine (hcall (env.invoke (executionLoop env n))).trans ?_
    rw [callNative]
    simp only [Env.invoke, hexec]

end Call
end Sober
