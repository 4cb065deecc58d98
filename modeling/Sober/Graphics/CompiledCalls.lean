import Sober.Graphics.Interception
import Sober.SupervisorCall.Dispatch

/-! # Compiled calls and the registry

Each thread has a JIT of its own. Translating the block of an entry captures the
function that the registry holds at that moment, and the block is used until the
end; a block without a fast call asks the registry at every call. The lookups
store into the registry that all threads share.
-/
namespace Sober
open Machine Abi Transition

inductive CompiledCall where
  | fast (fc : SupervisorFastCall)
  | slow

def translateCall (trampolines : List Trampoline) (swi : BitVec 32) : CompiledCall :=
  match getSupervisorFastCall trampolines swi with
  | .ok fc => .fast fc
  | .error _ => .slow

section Run
variable (dc : Dyncall)
  (invoke : NativeCall → World dc.Vm → Except Fault (HostReturn × World dc.Vm))

def CompiledCall.run (host : HostEntry) (frame : HandlerFrame) (swi : BitVec 32) :
    CompiledCall → World dc.Vm → Except Fault (World dc.Vm)
  | .fast fc, w => emittedFastCall dc invoke host fc w
  | .slow, w => slowSupervisorCall dc invoke frame swi w

end Run

/-- The shared state of all threads, and the blocks of each thread's JIT. -/
structure JitSystem where
  graphics : GraphicsState
  compiled : ℕ → BitVec 32 → Option CompiledCall

namespace JitSystem

def initial (g : GraphicsState) : JitSystem := ⟨g, fun _ _ => none⟩

/-- The block a call of this thread goes through, translated now if need be. -/
def block (s : JitSystem) (thread : ℕ) (swi : BitVec 32) : CompiledCall :=
  (s.compiled thread swi).getD (translateCall s.graphics.trampolines swi)

def compile (s : JitSystem) (thread : ℕ) (swi : BitVec 32) : JitSystem :=
  { s with compiled := fun thread' swi' =>
      if thread' = thread ∧ swi' = swi then some (s.block thread swi)
      else s.compiled thread' swi' }

end JitSystem

inductive JitEvent where
  | translate (thread : ℕ) (swi : BitVec 32)
  | call (thread : ℕ) (swi : BitVec 32)
  | vulkan (e : VulkanEvent)
  | eglLookup (glValue : Word → Word) (name : String)

namespace JitEvent

def step (wrappers : Wrappers) (s : JitSystem) : JitEvent → Except LookupFault JitSystem
  | .translate thread swi => .ok (s.compile thread swi)
  | .call thread swi => .ok (s.compile thread swi)
  | .vulkan e => (e.step wrappers s.graphics).map (fun g => { s with graphics := g })
  | .eglLookup glValue name =>
    (eglGetProcAddress glValue name s.graphics).map (fun p => { s with graphics := p.2 })

/-- The functions that an event stores, with the identifiers of their entries. -/
def stores (wrappers : Wrappers) (g : GraphicsState) : JitEvent → List (BitVec 32 × Word)
  | .vulkan e =>
    ((e.name?.bind g.procToTrampoline.lookup).map (fun id => (id, e.stored wrappers))).toList
  | .eglLookup glValue _ =>
    g.symbolsWithTrampolineIds.map (fun p => (p.2 + trampolineIdOffset, glValue p.1.value))
  | _ => []

/-- No entry gets a function other than the one that a compiled call captured. -/
def Agrees (wrappers : Wrappers) (s : JitSystem) (e : JitEvent) : Prop :=
  ∀ thread swi fc func, s.compiled thread swi = some (.fast fc) →
    (swi, func) ∈ e.stores wrappers s.graphics → func = fc.function

end JitEvent

/-- Every entry of `after` is one of `before`, with its function or one of these. -/
def StoresInto (before : List Trampoline) (stores : List (BitVec 32 × Word))
    (after : List Trampoline) : Prop :=
  ∀ swi t', trampolineGetById after swi = some t' →
    ∃ t, trampolineGetById before swi = some t ∧
      (t' = t ∨ ∃ func, (swi, func) ∈ stores ∧ t' = { t with nativeFunc := func })

namespace StoresInto
variable {before middle after : List Trampoline} {stores more : List (BitVec 32 × Word)}

theorem refl (trampolines : List Trampoline) (stores : List (BitVec 32 × Word)) :
    StoresInto trampolines stores trampolines :=
  fun _ t' h => ⟨t', h, .inl rfl⟩

theorem store {id : BitVec 32} {t : Trampoline} (h : trampolineGetById before id = some t)
    (func : Word) : StoresInto before [(id, func)] (storeNativeFunc before id func) := by
  intro swi t' ht'
  by_cases hswi : id = swi
  · subst hswi
    rw [trampolineGetById_store_self h, Option.some.injEq] at ht'
    exact ⟨t, h, .inr ⟨func, by simp, ht'.symm⟩⟩
  · rw [trampolineGetById_store_of_ne before hswi] at ht'
    exact ⟨t', ht', .inl rfl⟩

theorem trans (h₁ : StoresInto before stores middle) (h₂ : StoresInto middle more after) :
    StoresInto before (stores ++ more) after := by
  intro swi t'' ht''
  obtain ⟨t', ht', hcase₂⟩ := h₂ swi t'' ht''
  obtain ⟨t, ht, hcase₁⟩ := h₁ swi t' ht'
  refine ⟨t, ht, ?_⟩
  rcases hcase₂ with rfl | ⟨func, hmem, rfl⟩
  · rcases hcase₁ with rfl | ⟨func, hmem, rfl⟩
    · exact .inl rfl
    · exact .inr ⟨func, List.mem_append_left _ hmem, rfl⟩
  · refine .inr ⟨func, List.mem_append_right _ hmem, ?_⟩
    rcases hcase₁ with rfl | ⟨func', -, rfl⟩ <;> rfl

end StoresInto

theorem assignGlSymbols_stores (glValue : Word → Word)
    (symbols : List (DeferredSymbol × BitVec 32)) {g g' : GraphicsState}
    (h : assignGlSymbols glValue symbols g = .ok g') :
    StoresInto g.trampolines
      (symbols.map fun p => (p.2 + trampolineIdOffset, glValue p.1.value)) g'.trampolines := by
  induction symbols generalizing g with
  | nil =>
    cases h
    exact .refl _ _
  | cons p rest ih =>
    rw [assignGlSymbols] at h
    cases ht : trampolineGetById g.trampolines (p.2 + trampolineIdOffset) with
    | none => simp [ht] at h
    | some t =>
      simp only [ht] at h
      exact (StoresInto.store ht (glValue p.1.value)).trans (ih h)

theorem eglGetProcAddress_stores {glValue : Word → Word} {name : String} {g : GraphicsState}
    {result : Word × GraphicsState} (h : eglGetProcAddress glValue name g = .ok result) :
    StoresInto g.trampolines
      (g.symbolsWithTrampolineIds.map fun p => (p.2 + trampolineIdOffset, glValue p.1.value))
      result.2.trampolines := by
  obtain ⟨g', hassign, hresult⟩ : ∃ g', (if g.glInitialized then .ok g
      else assignGlSymbols glValue g.symbolsWithTrampolineIds g) = .ok g' ∧ result.2 = g' := by
    rw [eglGetProcAddress] at h
    cases hassign : (if g.glInitialized then .ok g
      else assignGlSymbols glValue g.symbolsWithTrampolineIds g) with
    | error e => simp [hassign] at h
    | ok g' =>
      simp only [hassign] at h
      cases hfind : g'.procToGuestRoutine.lookup name with
      | none => simp [hfind] at h
      | some address =>
        simp only [hfind] at h
        cases h
        exact ⟨g', rfl, rfl⟩
  rw [hresult]
  split_ifs at hassign
  · cases hassign
    exact .refl _ _
  · exact assignGlSymbols_stores glValue _ hassign

theorem lookupProc_stores {wrappers : Wrappers} {intercepts : String → Option Intercepted}
    {driver answer : Word} {name : String} {g g' : GraphicsState} {r : Word}
    (h : lookupProc wrappers intercepts driver answer name g = .ok (r, g')) :
    StoresInto g.trampolines ((g.procToTrampoline.lookup name).map fun id =>
      (id, ((intercepts name).map wrappers.address).getD answer)).toList g'.trampolines := by
  obtain ⟨id, t, func, hid, ht, rfl, rfl, -⟩ := lookupProc_ok h
  rw [hid]
  exact .store ht _

theorem VulkanEvent.exec_stores {wrappers : Wrappers} {g g' : GraphicsState} {e : VulkanEvent}
    {r : Word} (h : e.exec wrappers g = .ok (r, g')) :
    StoresInto g.trampolines (JitEvent.stores wrappers g (.vulkan e)) g'.trampolines := by
  cases e with
  | instanceLookup sdl answer name =>
    have hstores := lookupProc_stores h
    split_ifs at hstores <;> exact hstores
  | deviceLookup answer name => exact lookupProc_stores h
  | createInstance inst deviceProc =>
    simp only [exec, vkCreateInstance] at h
    split_ifs at h <;> cases h <;> exact .refl _ _

/-- The effect of an event: lookups store, the others compile. -/
theorem JitEvent.step_cases {wrappers : Wrappers} {s s' : JitSystem} {e : JitEvent}
    (h : e.step wrappers s = .ok s') :
    (∃ thread swi, s' = s.compile thread swi) ∨
      s'.compiled = s.compiled ∧ StoresInto s.graphics.trampolines (e.stores wrappers s.graphics)
        s'.graphics.trampolines := by
  cases e with
  | translate thread swi =>
    cases h
    exact .inl ⟨thread, swi, rfl⟩
  | call thread swi =>
    cases h
    exact .inl ⟨thread, swi, rfl⟩
  | vulkan e =>
    right
    obtain ⟨g', hstep, rfl⟩ := Transition.ok_of_map h
    obtain ⟨r, hexec⟩ := VulkanEvent.exec_of_step hstep
    exact ⟨rfl, e.exec_stores hexec⟩
  | eglLookup glValue name =>
    right
    obtain ⟨result, hlookup, rfl⟩ := Transition.ok_of_map h
    exact ⟨rfl, eglGetProcAddress_stores hlookup⟩

/-- Every compiled call captured the function that the registry holds. -/
def JitSystem.UpToDate (s : JitSystem) : Prop :=
  ∀ thread swi fc t, s.compiled thread swi = some (.fast fc) →
    trampolineGetById s.graphics.trampolines swi = some t → fc.function = t.nativeFunc

theorem function_of_translateCall {trampolines : List Trampoline} {swi : BitVec 32}
    {fc : SupervisorFastCall} {t : Trampoline} (h : translateCall trampolines swi = .fast fc)
    (ht : trampolineGetById trampolines swi = some t) : fc.function = t.nativeFunc := by
  rw [translateCall] at h
  cases hfast : getSupervisorFastCall trampolines swi with
  | ok fc' =>
    simp only [hfast, CompiledCall.fast.injEq] at h
    subst h
    exact (fastEligible_of_get ht hfast).function
  | error message => simp [hfast] at h

namespace JitSystem.UpToDate
variable {s : JitSystem}

theorem initial (g : GraphicsState) : (JitSystem.initial g).UpToDate := nofun

theorem block_function (h : s.UpToDate) {thread : ℕ} {swi : BitVec 32} {fc : SupervisorFastCall}
    {t : Trampoline} (hblock : s.block thread swi = .fast fc)
    (ht : trampolineGetById s.graphics.trampolines swi = some t) :
    fc.function = t.nativeFunc := by
  rw [JitSystem.block] at hblock
  cases hcompiled : s.compiled thread swi with
  | none =>
    rw [hcompiled] at hblock
    exact function_of_translateCall hblock ht
  | some c =>
    rw [hcompiled] at hblock
    exact h thread swi fc t (hcompiled.trans (congrArg some hblock)) ht

theorem compile (h : s.UpToDate) (thread : ℕ) (swi : BitVec 32) :
    (s.compile thread swi).UpToDate := by
  intro thread' swi' fc t hcompiled ht
  simp only [JitSystem.compile] at hcompiled
  split_ifs at hcompiled with hsame
  · rw [hsame.2] at ht
    exact h.block_function (Option.some.inj hcompiled) ht
  · exact h thread' swi' fc t hcompiled ht

/-- One event whose stores agree with the compiled calls. -/
theorem step {wrappers : Wrappers} {s' : JitSystem} {e : JitEvent} (h : s.UpToDate)
    (hagrees : e.Agrees wrappers s) (hstep : e.step wrappers s = .ok s') : s'.UpToDate := by
  rcases JitEvent.step_cases hstep with ⟨thread, swi, rfl⟩ | ⟨hsame, hstores⟩
  · exact h.compile thread swi
  · intro thread swi fc t' hcompiled ht'
    rw [hsame] at hcompiled
    obtain ⟨t, ht, hcase⟩ := hstores swi t' ht'
    rcases hcase with rfl | ⟨func, hmem, rfl⟩
    · exact h thread swi fc t' hcompiled ht
    · exact (hagrees thread swi fc func hcompiled hmem).symm

/-- A call goes to the function in the registry. -/
theorem calls (h : s.UpToDate) (dc : Dyncall)
    (invoke : NativeCall → World dc.Vm → Except Fault (HostReturn × World dc.Vm))
    (host : HostEntry) (frame : HandlerFrame) (thread : ℕ) {swi : BitVec 32} {t : Trampoline}
    {w : World dc.Vm} (hw : w.trampolines = s.graphics.trampolines)
    (ht : trampolineGetById s.graphics.trampolines swi = some t)
    (hcallable : Callable w.jit w.mem t.types) :
    ∃ call : NativeCall, call.func = t.nativeFunc ∧ MakesOneCall dc invoke call w
      ((s.block thread swi).run dc invoke host frame swi w) := by
  cases hblock : s.block thread swi with
  | fast fc =>
    exact ⟨_, h.block_function hblock ht, emittedFastCall_makesOneCall dc invoke host fc w⟩
  | slow => exact slowSupervisorCall_of_callable dc invoke frame (hw ▸ ht) hcallable

end JitSystem.UpToDate

/-- In every run whose lookups store, into entries with a compiled call, only the
function that the call captured: a guest call of any thread, through its own
block or through the handler, calls the function that the registry holds. -/
theorem calls_follow_registry (wrappers : Wrappers) (g : GraphicsState) (events : List JitEvent)
    (s : JitSystem) (hrun : Run (JitEvent.step wrappers) (fun s e => e.Agrees wrappers s)
      (.initial g) events s) (dc : Dyncall)
    (invoke : NativeCall → World dc.Vm → Except Fault (HostReturn × World dc.Vm))
    (host : HostEntry) (frame : HandlerFrame) (thread : ℕ) (swi : BitVec 32) (t : Trampoline)
    (ht : trampolineGetById s.graphics.trampolines swi = some t) (w : World dc.Vm)
    (hw : w.trampolines = s.graphics.trampolines) (hcallable : Callable w.jit w.mem t.types) :
    (∃ call : NativeCall, call.func = t.nativeFunc ∧ MakesOneCall dc invoke call w
      ((s.block thread swi).run dc invoke host frame swi w)) ∧
    ∃ call : NativeCall, call.func = t.nativeFunc ∧ MakesOneCall dc invoke call w
      (slowSupervisorCall dc invoke frame swi w) := by
  have hcurrent : s.UpToDate := hrun.invariant
    (fun _ _ _ h hagrees hstep => h.step hagrees hstep) (.initial g)
  exact ⟨hcurrent.calls dc invoke host frame thread hw ht hcallable,
    slowSupervisorCall_of_callable dc invoke frame (hw ▸ ht) hcallable⟩

/-- The device lookup and a function of the driver are looked up, and thread 0
calls the function. -/
def acquireEvents : List JitEvent :=
  [.vulkan (.instanceLookup 0x5000 0 "vkGetDeviceProcAddr"),
    .vulkan (.instanceLookup 0x5000 0x9000 "vkAcquireNextImageKHR"), .call 0 0x10]

theorem calls_follow_registry_acquire : ∃ (s : JitSystem) (call : NativeCall),
    Run (JitEvent.step lowWrappers) (fun s e => e.Agrees lowWrappers s) (.initial vulkanState)
      acquireEvents s ∧ call.func = 0x9000 ∧
    MakesOneCall .ofList (fun _ w => .ok (⟨0, 0⟩, w)) call
      (.fresh s.graphics.trampolines 0)
      ((s.block 0 0x10).run .ofList (fun _ w => .ok (⟨0, 0⟩, w)) ⟨⟨fun _ _ => 0, fun _ => 0⟩, 0⟩
        .cleared 0x10 (.fresh s.graphics.trampolines 0)) := by
  have hrun : ∃ s, Run (JitEvent.step lowWrappers) (fun s e => e.Agrees lowWrappers s)
      (.initial vulkanState) acquireEvents s ∧
      ∃ t, trampolineGetById s.graphics.trampolines 0x10 = some t ∧ t.nativeFunc = 0x9000 ∧
        t.types.Supported := by
    refine ⟨_, .cons nofun rfl (.cons nofun rfl (.cons ?_ rfl (.nil _))), _, rfl, rfl, by decide⟩
    intro _ _ _ _ _ hmem
    cases hmem
  obtain ⟨s, hrun, t, ht, hfunc, hsupported⟩ := hrun
  obtain ⟨⟨call, hcall, hone⟩, -⟩ := calls_follow_registry lowWrappers vulkanState _ s hrun .ofList
    (fun _ w => .ok (⟨0, 0⟩, w)) ⟨⟨fun _ _ => 0, fun _ => 0⟩, 0⟩ .cleared 0 0x10 t ht
    (.fresh s.graphics.trampolines 0) rfl
    ⟨passable_of_supported _ _ _ hsupported.1, hsupported.2⟩
  exact ⟨s, call, hrun, hcall.trans hfunc, hone⟩

/-- Thread 0 compiled the driver's function; the device lookup then stores the
wrapper. Thread 0 goes on calling the driver while thread 1 calls the wrapper. -/
theorem compiled_call_is_stale : ∃ (s : JitSystem) (t : Trampoline) (fc fc' : SupervisorFastCall),
    Run (JitEvent.step lowWrappers) (fun _ _ => True) (.initial vulkanState)
      (acquireEvents ++ [.vulkan (.deviceLookup 0 "vkAcquireNextImageKHR")]) s ∧
    trampolineGetById s.graphics.trampolines 0x10 = some t ∧ t.nativeFunc = 0x7050 ∧
    s.block 0 0x10 = .fast fc ∧ fc.function = 0x9000 ∧
    s.block 1 0x10 = .fast fc' ∧ fc'.function = 0x7050 := by
  exact ⟨_, _, _, _, .cons trivial rfl (.cons trivial rfl (.cons trivial rfl (.cons trivial rfl
    (.nil _)))), rfl, rfl, rfl, rfl, rfl, rfl⟩

end Sober
