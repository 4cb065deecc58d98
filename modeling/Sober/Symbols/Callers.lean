import Sober.Fiber.Reentry

/-! # Native functions that call guest routines

The linker calls the constructors and destructors of guest libraries, and the
host's exit handlers call guest handlers, all through fibers. Which libraries
and handlers a call concerns is the host's state and a parameter here.
-/
namespace Sober
open Machine

inductive RoutineArg where
  | integer (value : Word)
  | float (bits : BitVec 32)

/-- `ScopedExecutionFiber::run` with arguments: integers and floats are counted
separately. -/
def FiberBody.runWith (routine : Word) (next : FiberBody) :
    List RoutineArg → ℕ → ℕ → FiberBody
  | [], _, _ => .run routine next
  | .integer value :: args, registerIndex, vectorIndex =>
    .setRegister registerIndex value (runWith routine next args (registerIndex + 1) vectorIndex)
  | .float bits :: args, registerIndex, vectorIndex =>
    .setVectorFirst vectorIndex (bits.setWidth 64)
      (runWith routine next args registerIndex (vectorIndex + 1))

theorem FiberBody.runWith_mustRun (routine : Word) (next : FiberBody) (args : List RoutineArg)
    (registerIndex vectorIndex : ℕ) :
    (FiberBody.runWith routine next args registerIndex vectorIndex).MustRun := by
  induction args generalizing registerIndex vectorIndex with
  | nil => exact trivial
  | cons arg args ih =>
    cases arg with
    | integer value => exact ih _ _
    | float bits => exact ih _ _

structure ProgramArguments where
  globalArgc : BitVec 32
  globalArgv : Word
  environ : Word

structure GuestRoutineWrapper where
  guestRoutine : Word
  value : Word

def linkerFuncCaller (g : ProgramArguments) (addr : Word) (isCtor : Bool) : FiberBody :=
  if isCtor then
    .runWith addr (.done ⟨0, 0⟩)
      [.integer (g.globalArgc.signExtend 64), .integer g.globalArgv, .integer g.environ] 0 0
  else .run addr (.done ⟨0, 0⟩)

def atexitRoutine (wrapper : GuestRoutineWrapper) : FiberBody :=
  .runWith wrapper.guestRoutine (.done ⟨0, 0⟩) [.integer wrapper.value] 0 0

/-- The initialisation and termination routines of a loaded library. -/
structure Soinfo where
  constructorsCalled : Bool
  initFunc : Word
  initArray : List Word
  finiArray : List Word
  finiFunc : Word

section Linker
variable (g : ProgramArguments)

/-- Null and all ones mark a routine that is not there. -/
def callFunction (isCtor : Bool) (function : Word) (next : NativeBody) : NativeBody :=
  if function = 0 ∨ function = -1 then next
  else .callee (linkerFuncCaller g function isCtor) (fun _ => next)

def callArray (isCtor : Bool) (functions : List Word) (reverse : Bool) (next : NativeBody) :
    NativeBody :=
  (if reverse then functions.reverse else functions).foldr (callFunction g isCtor) next

def callConstructors (si : Soinfo) (next : NativeBody) : NativeBody :=
  if si.constructorsCalled then next
  else callFunction g true si.initFunc (callArray g true si.initArray false next)

def callDestructors (si : Soinfo) (next : NativeBody) : NativeBody :=
  if si.constructorsCalled then
    callArray g false si.finiArray true (callFunction g false si.finiFunc next)
  else next

/-- `found` is the handle and, in the order of the walk over its dependencies,
the library and what it needs; `none` if it was not found. -/
def doDlopen (found : Option (Word × List Soinfo)) : NativeBody :=
  match found with
  | none => .ret ⟨0, 0⟩
  | some (handle, libraries) => libraries.foldr (callConstructors g) (.ret ⟨handle, 0⟩)

/-- `unloaded` are the libraries that lose their last reference, in order;
`none` if the handle is invalid. -/
def doDlclose (unloaded : Option (List Soinfo)) : NativeBody :=
  match unloaded with
  | none => .ret ⟨0xFFFFFFFF, 0⟩
  | some libraries => libraries.foldr (callDestructors g) (.ret ⟨0, 0⟩)

end Linker

/-- The exit handlers registered for the object, the latest first. -/
def cxaFinalize (handlers : List GuestRoutineWrapper) : NativeBody :=
  handlers.foldr (fun wrapper next => .callee (atexitRoutine wrapper) (fun _ => next))
    (.ret ⟨0, 0⟩)

section MustRun
variable {g : ProgramArguments}

theorem linkerFuncCaller_mustRun (addr : Word) (isCtor : Bool) :
    (linkerFuncCaller g addr isCtor).MustRun := by
  cases isCtor with
  | false => exact trivial
  | true => exact FiberBody.runWith_mustRun _ _ _ _ _

/-- A fold of calls must run guest code iff one of them must. -/
theorem foldr_mustRun {α : Type} {call : α → NativeBody → NativeBody} {runs : α → Prop}
    (hcall : ∀ a next, (call a next).MustRun ↔ runs a ∨ next.MustRun) (l : List α)
    (next : NativeBody) :
    (l.foldr call next).MustRun ↔ (∃ a ∈ l, runs a) ∨ next.MustRun := by
  induction l with
  | nil => simp
  | cons a l ih => simp [hcall, ih, or_assoc]

def IsRoutine (function : Word) : Prop := function ≠ 0 ∧ function ≠ -1

theorem callFunction_mustRun (isCtor : Bool) (function : Word) (next : NativeBody) :
    (callFunction g isCtor function next).MustRun ↔
      IsRoutine function ∨ next.MustRun := by
  by_cases h : function = 0 ∨ function = -1
  · have hn : ¬ IsRoutine function := fun hr => h.elim hr.1 hr.2
    rw [callFunction, if_pos h]
    simp [hn]
  · rw [callFunction, if_neg h]
    constructor
    · intro _
      exact .inl (not_or.mp h)
    · intro _
      exact .inl (linkerFuncCaller_mustRun function isCtor)

theorem callArray_mustRun (isCtor : Bool) (functions : List Word) (reverse : Bool)
    (next : NativeBody) :
    (callArray g isCtor functions reverse next).MustRun ↔
      (∃ function ∈ functions, IsRoutine function) ∨ next.MustRun := by
  rw [callArray, foldr_mustRun (callFunction_mustRun isCtor)]
  cases reverse <;> simp

theorem callConstructors_mustRun (si : Soinfo) (next : NativeBody) :
    (callConstructors g si next).MustRun ↔
      (si.constructorsCalled = false ∧ ∃ function ∈ si.initFunc :: si.initArray,
        IsRoutine function) ∨ next.MustRun := by
  cases h : si.constructorsCalled <;>
    simp [callConstructors, h, callFunction_mustRun, callArray_mustRun, or_assoc]

theorem callDestructors_mustRun (si : Soinfo) (next : NativeBody) :
    (callDestructors g si next).MustRun ↔
      (si.constructorsCalled = true ∧ ∃ function ∈ si.finiFunc :: si.finiArray,
        IsRoutine function) ∨ next.MustRun := by
  cases h : si.constructorsCalled <;>
    simp [callDestructors, h, callFunction_mustRun, callArray_mustRun, or_left_comm, or_assoc]

/-- Opening a library runs guest code iff a constructor is still to be called. -/
theorem doDlopen_mustRun_iff (found : Option (Word × List Soinfo)) :
    (doDlopen g found).MustRun ↔ ∃ handle libraries, found = some (handle, libraries) ∧
      ∃ si ∈ libraries, si.constructorsCalled = false ∧
        ∃ function ∈ si.initFunc :: si.initArray, IsRoutine function := by
  cases found with
  | none => simp [doDlopen, NativeBody.MustRun]
  | some found =>
    rcases found with ⟨handle, libraries⟩
    rw [doDlopen, foldr_mustRun callConstructors_mustRun]
    simp [NativeBody.MustRun]

/-- Closing one runs guest code iff an unloaded library has a destructor. -/
theorem doDlclose_mustRun_iff (unloaded : Option (List Soinfo)) :
    (doDlclose g unloaded).MustRun ↔ ∃ libraries, unloaded = some libraries ∧
      ∃ si ∈ libraries, si.constructorsCalled = true ∧
        ∃ function ∈ si.finiFunc :: si.finiArray, IsRoutine function := by
  cases unloaded with
  | none => simp [doDlclose, NativeBody.MustRun]
  | some libraries =>
    rw [doDlclose, foldr_mustRun callDestructors_mustRun]
    simp [NativeBody.MustRun]

/-- Finalising an object runs guest code iff it has a handler. -/
theorem cxaFinalize_mustRun_iff (handlers : List GuestRoutineWrapper) :
    (cxaFinalize handlers).MustRun ↔ handlers ≠ [] := by
  cases handlers with
  | nil => simp [cxaFinalize, NativeBody.MustRun]
  | cons wrapper handlers =>
    simp only [ne_eq, reduceCtorEq, not_false_eq_true, iff_true]
    exact .inl (FiberBody.runWith_mustRun _ _ _ _ _)

end MustRun
end Sober
