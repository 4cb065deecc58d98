import Sober.Symbols.Callers
import Sober.Symbols.Tables
import Sober.Trampoline.Lookup

/-! # Fast calls and guest code

The tag on a table row is set by hand. For every row but five it keeps functions
that can run guest code away from fast calls, or their types do. So a run on
symbols from the tables fails the assertion of a fiber only inside one of the
five functions.
-/
namespace Sober
open Machine Abi

structure Linkage where
  address : NativeFunction → Word
  nonnull : ∀ f, address f ≠ 0

namespace FunctionSymbol

def createArgs (link : Linkage) (s : FunctionSymbol) : CreateArgs where
  name := s.name
  nativeFunc := link.address s.value
  types := s.argTypes
  isEllipsisFunction := s.isEllipsisFunction
  hasExecutionSideEffects := s.hasExecutionSideEffects

def FastCallable (s : FunctionSymbol) : Prop :=
  s.hasExecutionSideEffects = false ∧ s.argTypes.Supported ∧
    s.argTypes.kinds.count .integer ≤ 6 ∧ s.argTypes.kinds.count .floating ≤ 8

instance (s : FunctionSymbol) : Decidable s.FastCallable := inferInstanceAs (Decidable (_ ∧ _))

end FunctionSymbol

/-- Untagged functions that can run guest code. -/
def untagged : List NativeFunction :=
  [.linkerDlclose, .loaderDlclose, .androidDlopenExt, .loaderAndroidDlopenExt, .cxaFinalize]

/-- Of the listed rows these are exactly the ones where the tag is missing. -/
theorem listed_fastCallable_iff : ∀ s ∈ listedSymbols,
    s.FastCallable ∧ s.value.CanRunGuest ↔ s.value ∈ untagged := by
  decide +kernel

theorem fastCallable_iff {symbols : List FunctionSymbol} (hsym : FromTables symbols)
    {s : FunctionSymbol} (hs : s ∈ symbols) :
    s.FastCallable ∧ s.value.CanRunGuest ↔ s.value ∈ untagged := by
  rcases hsym s hs with hlisted | ⟨name, hother⟩
  · exact listed_fastCallable_iff s hlisted
  · have hn : ¬ s.value.CanRunGuest := by
      rw [hother]
      exact NativeFunction.not_canRunGuest_other name
    rw [hother] at hn ⊢
    simp [hn, untagged]

/-- What the linker and the exit handlers find when the guest calls them. -/
structure HostState where
  args : ProgramArguments
  found : Option (Word × List Soinfo)
  unloaded : Option (List Soinfo)
  handlers : List GuestRoutineWrapper

namespace HostState

/-- The functions of the linker and of the exit handlers in a state of the host. -/
def body (st : HostState) : NativeFunction → Option NativeBody
  | .linkerDlopen | .loaderDlopen | .androidDlopenExt | .loaderAndroidDlopenExt =>
    some (doDlopen st.args st.found)
  | .linkerDlclose | .loaderDlclose => some (doDlclose st.args st.unloaded)
  | .cxaFinalize => some (cxaFinalize st.handlers)
  | _ => none

/-- A guest routine is due: a constructor, a destructor or an exit handler. -/
def Pending (st : HostState) : NativeFunction → Prop
  | .linkerDlopen | .loaderDlopen | .androidDlopenExt | .loaderAndroidDlopenExt =>
    ∃ handle libraries, st.found = some (handle, libraries) ∧
      ∃ si ∈ libraries, si.constructorsCalled = false ∧
        ∃ function ∈ si.initFunc :: si.initArray, IsRoutine function
  | .linkerDlclose | .loaderDlclose =>
    ∃ libraries, st.unloaded = some libraries ∧
      ∃ si ∈ libraries, si.constructorsCalled = true ∧
        ∃ function ∈ si.finiFunc :: si.finiArray, IsRoutine function
  | .cxaFinalize => st.handlers ≠ []
  | _ => False

theorem body_mustRun_iff {st : HostState} {f : NativeFunction} {b : NativeBody}
    (h : st.body f = some b) : b.MustRun ↔ st.Pending f := by
  cases f <;> cases h
  case linkerDlopen => exact doDlopen_mustRun_iff st.found
  case loaderDlopen => exact doDlopen_mustRun_iff st.found
  case androidDlopenExt => exact doDlopen_mustRun_iff st.found
  case loaderAndroidDlopenExt => exact doDlopen_mustRun_iff st.found
  case linkerDlclose => exact doDlclose_mustRun_iff st.unloaded
  case loaderDlclose => exact doDlclose_mustRun_iff st.unloaded
  case cxaFinalize => exact cxaFinalize_mustRun_iff st.handlers

end HostState

/-- A native function runs guest code only along the calls that lead there. -/
def FollowsCalls {Vm : Type} (env : Env Vm) (link : Linkage) : Prop :=
  ∀ f call, call.func = link.address f → (env.native call).RunsGuest → f.CanRunGuest

section Registered
variable {link : Linkage} {m : Mapping} {symbols : List FunctionSymbol} {s : TrampolineState}

theorem maybeGetById_row (hlayout : Layout m (symbols.map (·.createArgs link)) s)
    (hcount : symbols.length ≤ 8191) {i : ℕ} {sym : FunctionSymbol}
    (hi : symbols[i]? = some sym) :
    trampolineMaybeGetById s.trampolines (BitVec.ofNat 32 (i + 16)) =
      some ((sym.createArgs link).entry m.base i) := by
  rcases List.getElem?_eq_some_iff.mp hi with ⟨hlt, rfl⟩
  rw [hlayout.maybeGetById (by simpa using hcount) (by simpa using hlt), List.getElem_map]

/-- A fast call to the entry of a row calls the row's function. -/
theorem fastCall_of_row (hlayout : Layout m (symbols.map (·.createArgs link)) s)
    (hcount : symbols.length ≤ 8191) {i : ℕ} {sym : FunctionSymbol}
    (hi : symbols[i]? = some sym) {fc : SupervisorFastCall}
    (h : getSupervisorFastCall s.trampolines (BitVec.ofNat 32 (i + 16)) = .ok fc) :
    fc.function = link.address sym.value ∧ sym.FastCallable := by
  rcases getSupervisorFastCall_ok h with ⟨t, ht, he⟩
  rw [maybeGetById_row hlayout hcount hi] at ht
  cases ht
  exact ⟨he.function, he.pure, he.supported, he.integers, he.floats⟩

/-- The entry of a row has a fast call iff the row passes the checks. -/
theorem exists_fastCall_iff (hlayout : Layout m (symbols.map (·.createArgs link)) s)
    (hcount : symbols.length ≤ 8191) {i : ℕ} {sym : FunctionSymbol}
    (hi : symbols[i]? = some sym) :
    (∃ fc, getSupervisorFastCall s.trampolines (BitVec.ofNat 32 (i + 16)) = .ok fc) ↔
      sym.FastCallable := by
  constructor
  · rintro ⟨fc, hfc⟩
    exact (fastCall_of_row hlayout hcount hi hfc).2
  · rintro ⟨hpure, hsupported, hints, hfloats⟩
    exact getSupervisorFastCall_of_supported (maybeGetById_row hlayout hcount hi)
      (link.nonnull _) hpure hsupported hints hfloats

/-- Every entry that has a fast call comes from a row. -/
theorem exists_row_of_fastCall (hlayout : Layout m (symbols.map (·.createArgs link)) s)
    (hcount : symbols.length ≤ 8191) {swi : BitVec 32} {fc : SupervisorFastCall}
    (h : getSupervisorFastCall s.trampolines swi = .ok fc) :
    ∃ sym ∈ symbols, fc.function = link.address sym.value ∧ sym.FastCallable := by
  rcases getSupervisorFastCall_ok h with ⟨t, ht, -⟩
  rw [trampolineMaybeGetById_eq] at ht
  split_ifs at ht with hlow
  have hlt := (List.getElem?_eq_some_iff.mp ht).1
  rw [hlayout.length, List.length_map] at hlt
  have hswi : swi = BitVec.ofNat 32 (swi.toNat - 16 + 16) := by
    bv_omega
  rw [hswi] at h
  exact ⟨_, List.getElem_mem hlt, fastCall_of_row hlayout hcount (List.getElem?_eq_getElem hlt) h⟩

/-- A row whose function can run guest code has no fast call, unless the function
is one of the untagged; and a fiber's assertion fails only inside one of these. -/
theorem reentry_only_in_untagged {dc : Dyncall} (env : Env dc.Vm) (hsym : FromTables symbols)
    (hcount : symbols.length ≤ 8191)
    (hs : startUp (some m) (symbols.map (·.createArgs link)) = some s)
    (henv : FollowsCalls env link) :
    (∀ i sym, symbols[i]? = some sym →
      ((sym.value.CanRunGuest → ∀ fc,
          getSupervisorFastCall s.trampolines (BitVec.ofNat 32 (i + 16)) ≠ .ok fc) ↔
        sym.value ∉ untagged)) ∧
    ∀ n caller address func (w : World dc.Vm), Idle w → w.trampolines = s.trampolines →
      fiberRun (executionLoop env n) caller address w = .error (.reentry func) →
      ∃ sym ∈ symbols, sym.value ∈ untagged ∧ func = link.address sym.value ∧
        ∃ call, call.func = func ∧ (env.native call).RunsGuest := by
  rcases startUp_layout m (symbols.map (·.createArgs link)) (by simpa using hcount) with
    ⟨s', hs', hlayout⟩
  rw [hs] at hs'
  cases hs'
  constructor
  · intro i sym hi
    have hmem : sym ∈ symbols := List.mem_of_getElem? hi
    rw [← fastCallable_iff hsym hmem, ← exists_fastCall_iff hlayout hcount hi]
    constructor
    · rintro h ⟨⟨fc, hfc⟩, hguest⟩
      exact h hguest fc hfc
    · intro h hguest fc hfc
      exact h ⟨⟨fc, hfc⟩, hguest⟩
  · intro n caller address func w hidle htramp h
    rcases fiberRun_reentry n hidle h with ⟨swi, fc, call, hfast, hfunc, hcall, hguest⟩
    rw [htramp] at hfast
    rcases exists_row_of_fastCall hlayout hcount hfast with ⟨sym, hmem, haddress, hcallable⟩
    have hfunc' : func = link.address sym.value := by rw [← hfunc, haddress]
    have hcan := henv sym.value call (hcall.trans hfunc') hguest
    exact ⟨sym, hmem, (fastCallable_iff hsym hmem).mp ⟨hcallable, hcan⟩, hfunc', call, hcall,
      hguest⟩

/-- Conversely every call of one of these from compiled code fails the assertion
when a guest routine is due. -/
theorem guestStep_of_untagged {dc : Dyncall} {env : Env dc.Vm}
    {loop : World dc.Vm → Except Fault (World dc.Vm)} (hsym : FromTables symbols)
    (hcount : symbols.length ≤ 8191) (hlayout : Layout m (symbols.map (·.createArgs link)) s)
    {i : ℕ} {sym : FunctionSymbol} (hi : symbols[i]? = some sym) (huntagged : sym.value ∈ untagged)
    {st : HostState} (hpending : st.Pending sym.value)
    (hhost : ∀ call, call.func = link.address sym.value →
      st.body sym.value = some (env.native call))
    {w : World dc.Vm} (htramp : w.trampolines = s.trampolines) (hexec : w.isExecuting = true)
    {imm : BitVec 16} (hsvc : decodeSvc (read32 w.mem w.jit.pc) = some imm)
    (himm : imm.toNat = i + 16) :
    guestStep env loop w = .error (.reentry (link.address sym.value)) := by
  have hcallable := ((fastCallable_iff hsym (List.mem_of_getElem? hi)).mpr huntagged).1
  rcases (exists_fastCall_iff hlayout hcount hi).mpr hcallable with ⟨fc, hfast⟩
  have hid : imm.setWidth 32 = BitVec.ofNat 32 (i + 16) := by
    rw [← himm]
    bv_omega
  have hfunction := (fastCall_of_row hlayout hcount hi hfast).1
  rw [← hfunction]
  rw [← htramp, ← hid] at hfast
  apply guestStep_of_mustRun hexec hsvc hfast
  intro call hcall
  rw [HostState.body_mustRun_iff (hhost call (hcall.trans hfunction))]
  exact hpending

end Registered

/-- Two rows of the tables: one without the tag and one with it. -/
def dlcloseSymbol : FunctionSymbol :=
  .plain "dlclose" .linkerDlclose .signedWord [.pointer]

def qsortSymbol : FunctionSymbol :=
  .tagged "qsort" .qsortImpl .none
    [.pointer, .unsignedDoubleword, .unsignedDoubleword, .pointer]

def lowLinkage : Linkage where
  address f := if f = .linkerDlclose then 0x1000 else 0x2000
  nonnull f := by split_ifs <;> decide

def loadedLibrary : Soinfo := ⟨true, 0, [], [0x5000], 0⟩

/-- Closing any handle unloads the library; no other function is called. -/
def unloadingEnv : Env Dyncall.ofList.Vm where
  cpu _ j m := some ({ j with pc := j.getRegister 30 }, m)
  native call := if call.func = 0x1000 then doDlclose ⟨0, 0, 0⟩ (some [loadedLibrary]) else .abort
  host _ := ⟨⟨fun _ _ => 0, fun _ => 0⟩, 0⟩
  frame _ := .cleared

theorem unloadingEnv_followsCalls : FollowsCalls unloadingEnv lowLinkage := by
  intro f call hfunc hguest
  by_cases hf : f = .linkerDlclose
  · subst hf
    decide
  · have hne : ¬ call.func = 0x1000 := by
      rw [hfunc]
      simp [lowLinkage, hf]
    rw [unloadingEnv] at hguest
    simp only [if_neg hne] at hguest
    cases hguest

def trampolineMemory : Memory := fun a =>
  if a = 0x10004 then 0x01 else if a = 0x10005 then 0x02 else if a = 0x10007 then 0xD4 else 0

theorem reentry_only_in_untagged_dlclose :
    ∃ s, startUp (some lowMapping)
        ([dlcloseSymbol, qsortSymbol].map (·.createArgs lowLinkage)) = some s ∧
      FollowsCalls unloadingEnv lowLinkage ∧
      (qsortSymbol.value.CanRunGuest →
        ∀ fc, getSupervisorFastCall s.trampolines 0x11 ≠ .ok fc) ∧
      fiberRun (executionLoop unloadingEnv 3) 0 0x10004
        { World.fresh s.trampolines 0 with mem := trampolineMemory } = .error (.reentry 0x1000) ∧
      ∃ sym ∈ [dlcloseSymbol, qsortSymbol], sym.value ∈ untagged ∧
        0x1000 = lowLinkage.address sym.value ∧
        ∃ call, call.func = 0x1000 ∧ (unloadingEnv.native call).RunsGuest := by
  have hsym : FromTables [dlcloseSymbol, qsortSymbol] := by
    simp [FromTables, listedSymbols, libdlSymbols, libcSymbols, dlcloseSymbol, qsortSymbol]
  rcases startUp_layout lowMapping ([dlcloseSymbol, qsortSymbol].map (·.createArgs lowLinkage))
    (by decide) with ⟨s, hs, hlayout⟩
  have hrun : fiberRun (executionLoop unloadingEnv 3) 0 0x10004
      { World.fresh s.trampolines 0 with mem := trampolineMemory } = .error (.reentry 0x1000) := by
    rw [hlayout.trampolines]
    rfl
  rcases reentry_only_in_untagged unloadingEnv hsym (by decide) hs unloadingEnv_followsCalls with
    ⟨hfast, hreentry⟩
  exact ⟨s, hs, unloadingEnv_followsCalls, (hfast 1 qsortSymbol rfl).mpr (by decide), hrun,
    hreentry 3 0 0x10004 0x1000 _ ⟨rfl, rfl⟩ rfl hrun⟩

/-- The guest calls `dlclose`, which has a fast call; a destructor of the library
it unloads is run on a fiber, and the fiber's assertion fails. -/
theorem dlclose_reenters :
    dlcloseSymbol ∈ libdlSymbols ∧ dlcloseSymbol.value.CanRunGuest ∧
      ∃ s, startUp (some lowMapping) [dlcloseSymbol.createArgs lowLinkage] = some s ∧
        (∃ fc, getSupervisorFastCall s.trampolines 0x10 = .ok fc) ∧
        fiberRun (executionLoop unloadingEnv 3) 0 0x10004
          { World.fresh s.trampolines 0 with mem := trampolineMemory } =
            .error (.reentry 0x1000) := by
  rcases startUp_layout lowMapping [dlcloseSymbol.createArgs lowLinkage] (by decide) with
    ⟨s, hs, hlayout⟩
  refine ⟨by simp [libdlSymbols, dlcloseSymbol], by decide, s, hs, ?_⟩
  rw [hlayout.trampolines]
  exact ⟨⟨_, rfl⟩, rfl⟩

end Sober
