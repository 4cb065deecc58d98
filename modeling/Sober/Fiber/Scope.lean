import Sober.SupervisorCall.Handler

/-! # Fiber scopes of native functions

A native function computes on memory and opens fiber scopes. A scope saves the
callee-saved guest registers when it is entered and restores them when it is
left; inside it the function may set registers and run guest routines. How a
routine runs is a parameter here.
-/
namespace Sober
open Machine Abi

/-- `r19` to `r30`, the stack pointer, the program counter, and `d8` to `d15`. -/
@[ext] structure SavedRegisters where
  r : Fin 12 → Word
  sp : Word
  pc : Word
  d : Fin 8 → Word

def getSavedRegisters (j : JitState) : SavedRegisters where
  r i := j.getRegister (19 + i)
  sp := j.sp
  pc := j.pc
  d i := (j.getVector (8 + i)).lo

def restoreSavedRegisters (regs : SavedRegisters) (j : JitState) : JitState :=
  let j := (List.finRange 12).foldl (fun j i => j.setRegister (19 + i.val) (regs.r i)) j
  let j := { j with sp := regs.sp, pc := regs.pc }
  (List.finRange 8).foldl (fun j i => j.setVectorFirst (8 + i.val) (regs.d i)) j

/-- Restoring makes exactly the saved registers current again. -/
theorem getSavedRegisters_restore (regs : SavedRegisters) (j : JitState) :
    getSavedRegisters (restoreSavedRegisters regs j) = regs := by
  apply SavedRegisters.ext
  · funext i
    fin_cases i <;> rfl
  · rfl
  · rfl
  · funext i
    fin_cases i <;> rfl

inductive FiberBody where
  | done (value : HostReturn)
  | memory (f : Memory → Memory) (next : Memory → FiberBody)
  | setRegister (index : ℕ) (value : Word) (next : FiberBody)
  | setVectorFirst (index : ℕ) (value : Word) (next : FiberBody)
  | getRegister (index : ℕ) (next : Word → FiberBody)
  | getSaved (next : SavedRegisters → FiberBody)
  | setSaved (regs : SavedRegisters) (next : FiberBody)
  | run (address : Word) (next : FiberBody)
  | callee (inner : FiberBody) (next : HostReturn → FiberBody)

/-- What a native function does: it may give up instead of returning. -/
inductive NativeBody where
  | ret (value : HostReturn)
  | abort
  | memory (f : Memory → Memory) (next : Memory → NativeBody)
  | callee (inner : FiberBody) (next : HostReturn → NativeBody)

section Exec
variable {Vm : Type} (run : Word → World Vm → Except Fault (World Vm))

def FiberBody.exec : FiberBody → SavedRegisters → World Vm →
    Except Fault (HostReturn × SavedRegisters × World Vm)
  | .done value, saved, w => .ok (value, saved, w)
  | .memory f next, saved, w => (next w.mem).exec saved { w with mem := f w.mem }
  | .setRegister index value next, saved, w =>
    next.exec saved { w with jit := w.jit.setRegister index value }
  | .setVectorFirst index value next, saved, w =>
    next.exec saved { w with jit := w.jit.setVectorFirst index value }
  | .getRegister index next, saved, w => (next (w.jit.getRegister index)).exec saved w
  | .getSaved next, saved, w => (next saved).exec saved w
  | .setSaved regs next, _, w => next.exec regs w
  | .run address next, saved, w =>
    match run address w with
    | .error e => .error e
    | .ok w' => next.exec saved w'
  | .callee inner next, saved, w =>
    match inner.exec (getSavedRegisters w.jit) w with
    | .error e => .error e
    | .ok (value, regs, w') =>
      (next value).exec saved { w' with jit := restoreSavedRegisters regs w'.jit }

def NativeBody.exec : NativeBody → World Vm → Except Fault (HostReturn × World Vm)
  | .ret value, w => .ok (value, w)
  | .abort, _ => .error .terminate
  | .memory f next, w => (next w.mem).exec { w with mem := f w.mem }
  | .callee inner next, w =>
    match inner.exec run (getSavedRegisters w.jit) w with
    | .error e => .error e
    | .ok (value, regs, w') =>
      (next value).exec { w' with jit := restoreSavedRegisters regs w'.jit }

end Exec

section Inversion
variable {Vm : Type} {run : Word → World Vm → Except Fault (World Vm)}

theorem FiberBody.exec_run_ok {address : Word} {next : FiberBody} {saved : SavedRegisters}
    {w : World Vm} {result : HostReturn × SavedRegisters × World Vm}
    (h : (FiberBody.run address next).exec run saved w = .ok result) :
    ∃ w₁, run address w = .ok w₁ ∧ next.exec run saved w₁ = .ok result := by
  rw [FiberBody.exec] at h
  cases hr : run address w with
  | error e =>
    rw [hr] at h
    cases h
  | ok w₁ =>
    rw [hr] at h
    exact ⟨w₁, rfl, h⟩

/-- An inner scope comes back, and its registers are restored. -/
theorem FiberBody.exec_callee_ok {inner : FiberBody} {next : HostReturn → FiberBody}
    {saved : SavedRegisters} {w : World Vm} {result : HostReturn × SavedRegisters × World Vm}
    (h : (FiberBody.callee inner next).exec run saved w = .ok result) :
    ∃ value regs w₁, inner.exec run (getSavedRegisters w.jit) w = .ok (value, regs, w₁) ∧
      (next value).exec run saved { w₁ with jit := restoreSavedRegisters regs w₁.jit } =
        .ok result := by
  rw [FiberBody.exec] at h
  cases hi : inner.exec run (getSavedRegisters w.jit) w with
  | error e =>
    rw [hi] at h
    cases h
  | ok inside =>
    rw [hi] at h
    exact ⟨_, _, _, rfl, h⟩

theorem NativeBody.exec_callee_ok {inner : FiberBody} {next : HostReturn → NativeBody}
    {w : World Vm} {result : HostReturn × World Vm}
    (h : (NativeBody.callee inner next).exec run w = .ok result) :
    ∃ value regs w₁, inner.exec run (getSavedRegisters w.jit) w = .ok (value, regs, w₁) ∧
      (next value).exec run { w₁ with jit := restoreSavedRegisters regs w₁.jit } =
        .ok result := by
  rw [NativeBody.exec] at h
  cases hi : inner.exec run (getSavedRegisters w.jit) w with
  | error e =>
    rw [hi] at h
    cases h
  | ok inside =>
    rw [hi] at h
    exact ⟨_, _, _, rfl, h⟩

end Inversion

/-- The body never replaces the registers that its own scope will restore. -/
def FiberBody.KeepsSaved : FiberBody → Prop
  | .done _ => True
  | .memory _ next => ∀ m, (next m).KeepsSaved
  | .setRegister _ _ next => next.KeepsSaved
  | .setVectorFirst _ _ next => next.KeepsSaved
  | .getRegister _ next => ∀ v, (next v).KeepsSaved
  | .getSaved next => ∀ regs, (next regs).KeepsSaved
  | .setSaved _ _ => False
  | .run _ next => next.KeepsSaved
  | .callee _ next => ∀ v, (next v).KeepsSaved

def NativeBody.KeepsSaved : NativeBody → Prop
  | .ret _ => True
  | .abort => True
  | .memory _ next => ∀ m, (next m).KeepsSaved
  | .callee inner next => inner.KeepsSaved ∧ ∀ v, (next v).KeepsSaved

/-- Everything that the body computes on memory has the property. -/
def FiberBody.Stores (P : (Memory → Memory) → Prop) : FiberBody → Prop
  | .done _ => True
  | .memory f next => P f ∧ ∀ m, (next m).Stores P
  | .setRegister _ _ next => next.Stores P
  | .setVectorFirst _ _ next => next.Stores P
  | .getRegister _ next => ∀ v, (next v).Stores P
  | .getSaved next => ∀ regs, (next regs).Stores P
  | .setSaved _ next => next.Stores P
  | .run _ next => next.Stores P
  | .callee inner next => inner.Stores P ∧ ∀ v, (next v).Stores P

def NativeBody.Stores (P : (Memory → Memory) → Prop) : NativeBody → Prop
  | .ret _ => True
  | .abort => True
  | .memory f next => P f ∧ ∀ m, (next m).Stores P
  | .callee inner next => inner.Stores P ∧ ∀ v, (next v).Stores P

/-- A relation between the states before and after that composes and does not
look at the registers. -/
structure Effect {Vm : Type} (R : World Vm → World Vm → Prop) : Prop where
  refl : ∀ w, R w w
  trans : ∀ {w w₁ w₂}, R w w₁ → R w₁ w₂ → R w w₂
  jit : ∀ w j, R w { w with jit := j }

section Effect
variable {Vm : Type} {run : Word → World Vm → Except Fault (World Vm)}
  {R : World Vm → World Vm → Prop} {P : (Memory → Memory) → Prop}

/-- What the routines and the stores of a scope keep, the scope keeps. -/
theorem FiberBody.exec_keeps (hR : Effect R)
    (hstore : ∀ f, P f → ∀ w : World Vm, R w { w with mem := f w.mem })
    (hrun : ∀ address w w', run address w = .ok w' → R w w') {body : FiberBody}
    (hbody : body.Stores P) {saved regs : SavedRegisters} {w w' : World Vm} {value : HostReturn}
    (h : body.exec run saved w = .ok (value, regs, w')) : R w w' := by
  induction body generalizing saved w value regs w' with
  | done v =>
    cases h
    exact hR.refl w
  | memory f next ih => exact hR.trans (hstore f hbody.1 w) (ih _ (hbody.2 _) h)
  | setRegister index v next ih => exact hR.trans (hR.jit w _) (ih hbody h)
  | setVectorFirst index v next ih => exact hR.trans (hR.jit w _) (ih hbody h)
  | getRegister index next ih => exact ih _ (hbody _) h
  | getSaved next ih => exact ih _ (hbody _) h
  | setSaved regs next ih => exact ih hbody h
  | run address next ih =>
    obtain ⟨w₁, hr, hnext⟩ := FiberBody.exec_run_ok h
    exact hR.trans (hrun _ _ _ hr) (ih hbody hnext)
  | callee inner next ihi ih =>
    obtain ⟨v, restored, w₁, hi, hnext⟩ := FiberBody.exec_callee_ok h
    exact hR.trans (hR.trans (ihi hbody.1 hi) (hR.jit _ _)) (ih _ (hbody.2 _) hnext)

theorem NativeBody.exec_keeps (hR : Effect R)
    (hstore : ∀ f, P f → ∀ w : World Vm, R w { w with mem := f w.mem })
    (hrun : ∀ address w w', run address w = .ok w' → R w w') {body : NativeBody}
    (hbody : body.Stores P) {w w' : World Vm} {value : HostReturn}
    (h : body.exec run w = .ok (value, w')) : R w w' := by
  induction body generalizing w with
  | ret v =>
    cases h
    exact hR.refl _
  | abort => cases h
  | memory f next ih => exact hR.trans (hstore f hbody.1 w) (ih _ (hbody.2 _) h)
  | callee inner next ih =>
    obtain ⟨v, restored, w₁, hi, hnext⟩ := NativeBody.exec_callee_ok h
    have hinner := FiberBody.exec_keeps hR hstore hrun hbody.1 hi
    exact hR.trans (hR.trans hinner (hR.jit _ _)) (ih _ (hbody.2 _) hnext)

end Effect

theorem FiberBody.stores_true (body : FiberBody) : body.Stores fun _ => True := by
  induction body with
  | done v => trivial
  | memory f next ih => exact ⟨trivial, ih⟩
  | callee inner next ihi ih => exact ⟨ihi, ih⟩
  | _ => assumption

theorem NativeBody.stores_true (body : NativeBody) : body.Stores fun _ => True := by
  induction body with
  | ret v => trivial
  | abort => trivial
  | memory f next ih => exact ⟨trivial, ih⟩
  | callee inner next ih => exact ⟨inner.stores_true, ih⟩

end Sober
