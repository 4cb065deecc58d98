import Sober.Symbols.Library

/-! # Graphics functions looked up by name

The GL and Vulkan entries of the registry have no function until the guest asks
for one by name. Each lookup stores a function in the entry it returns: one of
the program's own wrappers for a few names, the driver's answer for the others.
-/
namespace Sober
open Machine

inductive Intercepted where
  | createInstance
  | destroyInstance
  | getDeviceProcAddr
  | createAndroidSurface
  | getPhysicalDeviceSurfaceCapabilities
  | acquireNextImage
  deriving DecidableEq, Repr

def Intercepted.name : Intercepted → String
  | .createInstance => "vkCreateInstance"
  | .destroyInstance => "vkDestroyInstance"
  | .getDeviceProcAddr => "vkGetDeviceProcAddr"
  | .createAndroidSurface => "vkCreateAndroidSurfaceKHR"
  | .getPhysicalDeviceSurfaceCapabilities => "vkGetPhysicalDeviceSurfaceCapabilitiesKHR"
  | .acquireNextImage => "vkAcquireNextImageKHR"

def instanceIntercepts (name : String) : Option Intercepted :=
  if name = "vkCreateInstance" then some .createInstance
  else if name = "vkDestroyInstance" then some .destroyInstance
  else if name = "vkGetDeviceProcAddr" then some .getDeviceProcAddr
  else if name = "vkCreateAndroidSurfaceKHR" then some .createAndroidSurface
  else if name = "vkGetPhysicalDeviceSurfaceCapabilitiesKHR" then
    some .getPhysicalDeviceSurfaceCapabilities
  else none

def deviceIntercepts (name : String) : Option Intercepted :=
  if name = "vkAcquireNextImageKHR" then some .acquireNextImage else none

structure Wrappers where
  address : Intercepted → Word
  nonnull : ∀ x, address x ≠ 0

structure GraphicsState where
  trampolines : List Trampoline
  procToTrampoline : Finmap (fun _ : String => BitVec 32)
  procAddr : Word
  deviceProcAddr : Word
  globalInstance : Word
  symbolsWithTrampolineIds : List (DeferredSymbol × BitVec 32)
  glInitialized : Bool
  procToGuestRoutine : Finmap (fun _ : String => Word)

def GraphicsState.ofSyms (g : SymsState) : GraphicsState where
  trampolines := g.trampoline.trampolines
  procToTrampoline := g.procToTrampoline
  procAddr := 0
  deviceProcAddr := 0
  globalInstance := 0
  symbolsWithTrampolineIds := g.symbolsWithTrampolineIds
  glInitialized := false
  procToGuestRoutine := ∅

inductive LookupFault where
  | assertion
  | outOfRange
  | nullCall
  deriving DecidableEq, Repr

/-- `trampoline_get_by_id(id).native_func = func` -/
def storeNativeFunc (trampolines : List Trampoline) (id : BitVec 32) (func : Word) :
    List Trampoline :=
  trampolines.modify (id - trampolineIdOffset).toNat (fun t => { t with nativeFunc := func })

/-- The part the two Vulkan lookups share: `driver` is the function that answers
for names that are not intercepted, and `answer` what it says. -/
def lookupProc (wrappers : Wrappers) (intercepts : String → Option Intercepted) (driver : Word)
    (answer : Word) (name : String) (g : GraphicsState) :
    Except LookupFault (Word × GraphicsState) :=
  match g.procToTrampoline.lookup name with
  | none => .error .assertion
  | some id =>
    match trampolineGetById g.trampolines id with
    | none => .error .outOfRange
    | some trampoline =>
      match intercepts name with
      | some x => .ok (trampoline.guestTrampoline,
          { g with trampolines := storeNativeFunc g.trampolines id (wrappers.address x) })
      | none =>
        if driver = 0 then .error .nullCall
        else .ok (if answer = 0 then 0 else trampoline.guestTrampoline,
          { g with trampolines := storeNativeFunc g.trampolines id answer })

/-- `sdl` is the loader's function that the first lookup fetches. -/
def vkGetInstanceProcAddr (wrappers : Wrappers) (sdl answer : Word) (name : String)
    (g : GraphicsState) : Except LookupFault (Word × GraphicsState) :=
  let g := if g.procAddr = 0 then { g with procAddr := sdl } else g
  lookupProc wrappers instanceIntercepts g.procAddr answer name g

def vkGetDeviceProcAddr (wrappers : Wrappers) (answer : Word) (name : String)
    (g : GraphicsState) : Except LookupFault (Word × GraphicsState) :=
  lookupProc wrappers deviceIntercepts g.deviceProcAddr answer name g

/-- What the wrapper of `vkCreateInstance` leaves behind: the driver created
`inst` and named `deviceProc` as its device lookup. -/
def vkCreateInstance (inst deviceProc : Word) (g : GraphicsState) :
    Except LookupFault GraphicsState :=
  if g.globalInstance ≠ 0 then .ok g
  else if g.procAddr = 0 then .error .nullCall
  else .ok { g with deviceProcAddr := deviceProc, globalInstance := inst }

/-- The loop of `eglGetProcAddress`; `glValue` reads the function pointers that
the GL loader has filled in. -/
def assignGlSymbols (glValue : Word → Word) : List (DeferredSymbol × BitVec 32) → GraphicsState →
    Except LookupFault GraphicsState
  | [], g => .ok g
  | (symbol, trampolineId) :: rest, g =>
    match trampolineGetById g.trampolines (trampolineId + trampolineIdOffset) with
    | none => .error .outOfRange
    | some trampoline => assignGlSymbols glValue rest { g with
        trampolines := storeNativeFunc g.trampolines (trampolineId + trampolineIdOffset)
          (glValue symbol.value)
        procToGuestRoutine :=
          emplace symbol.name trampoline.guestTrampoline g.procToGuestRoutine }

/-- Nothing ever sets `gl_initialized`. -/
def eglGetProcAddress (glValue : Word → Word) (name : String) (g : GraphicsState) :
    Except LookupFault (Word × GraphicsState) :=
  match if g.glInitialized then .ok g
      else assignGlSymbols glValue g.symbolsWithTrampolineIds g with
  | .error e => .error e
  | .ok g' =>
    match g'.procToGuestRoutine.lookup name with
    | none => .error .assertion
    | some address => .ok (address, g')

theorem sub_trampolineIdOffset_inj {id id' : BitVec 32}
    (h : (id - trampolineIdOffset).toNat = (id' - trampolineIdOffset).toNat) : id = id' := by
  have he := BitVec.eq_of_toNat_eq h
  exact (BitVec.sub_left_inj trampolineIdOffset).mp he

theorem trampolineGetById_store_self {trampolines : List Trampoline} {id : BitVec 32}
    {t : Trampoline} (h : trampolineGetById trampolines id = some t) (func : Word) :
    trampolineGetById (storeNativeFunc trampolines id func) id =
      some { t with nativeFunc := func } := by
  rw [trampolineGetById] at h ⊢
  rw [storeNativeFunc, List.getElem?_modify_eq, h]
  rfl

theorem trampolineGetById_store_of_ne (trampolines : List Trampoline) {id id' : BitVec 32}
    (h : id ≠ id') (func : Word) :
    trampolineGetById (storeNativeFunc trampolines id func) id' =
      trampolineGetById trampolines id' := by
  have hne : (id - trampolineIdOffset).toNat ≠ (id' - trampolineIdOffset).toNat :=
    fun e => h (sub_trampolineIdOffset_inj e)
  rw [trampolineGetById, storeNativeFunc, List.getElem?_modify_ne _ _ hne, trampolineGetById]

/-- The ways in which a Vulkan lookup succeeds: it stores one function, in the
entry of the name. -/
theorem lookupProc_ok {wrappers : Wrappers} {intercepts : String → Option Intercepted}
    {driver answer : Word} {name : String} {g g' : GraphicsState} {r : Word}
    (h : lookupProc wrappers intercepts driver answer name g = .ok (r, g')) :
    ∃ id t func, g.procToTrampoline.lookup name = some id ∧
      trampolineGetById g.trampolines id = some t ∧
      g' = { g with trampolines := storeNativeFunc g.trampolines id func } ∧
      func = ((intercepts name).map wrappers.address).getD answer ∧
      (r ≠ 0 → func ≠ 0) := by
  rw [lookupProc] at h
  cases hid : g.procToTrampoline.lookup name with
  | none => simp [hid] at h
  | some id =>
    cases ht : trampolineGetById g.trampolines id with
    | none => simp [hid, ht] at h
    | some t =>
      simp only [hid, ht] at h
      cases hx : intercepts name with
      | some x =>
        simp only [hx, Except.ok.injEq, Prod.mk.injEq] at h
        exact ⟨id, t, _, rfl, ht, h.2.symm, rfl, fun _ => wrappers.nonnull x⟩
      | none =>
        simp only [hx] at h
        split_ifs at h with hdriver hanswer
        · simp only [Except.ok.injEq, Prod.mk.injEq] at h
          exact ⟨id, t, _, rfl, ht, h.2.symm, rfl, fun hr => absurd h.1.symm hr⟩
        · simp only [Except.ok.injEq, Prod.mk.injEq] at h
          exact ⟨id, t, _, rfl, ht, h.2.symm, rfl, fun _ => hanswer⟩

end Sober
