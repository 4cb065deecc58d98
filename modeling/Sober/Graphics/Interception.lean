import Sober.Graphics.Lookup
import Sober.Symbols.Resolution
import Sober.Transition.Run

/-! # What later Vulkan lookups do to earlier ones

Two lookups write the function of an entry, and each wraps names that the other
passes to the driver. A function that was handed out stays in place as long as
no lookup of the other kind meets it.
-/
namespace Sober
open Machine Transition

/-- Names that were entered when the registry had fewer than `n` entries, each
with an entry of its own. -/
structure ProcsBelow (n : ℕ) (procs : Finmap (fun _ : String => BitVec 32)) : Prop where
  lt : ∀ {name id}, procs.lookup name = some id → id.toNat < n + 16
  inj : ∀ {name name' id}, procs.lookup name = some id → procs.lookup name' = some id →
    name = name'

namespace ProcsBelow
variable {n : ℕ} {procs : Finmap (fun _ : String => BitVec 32)}

theorem empty : ProcsBelow 0 ∅ where
  lt h := by simp at h
  inj h := by simp at h

theorem mono (h : ProcsBelow n procs) {n' : ℕ} (hle : n ≤ n') : ProcsBelow n' procs where
  lt hid := (h.lt hid).trans_le (by omega)
  inj := h.inj

theorem emplace (h : ProcsBelow n procs) (hn : n < 8191) (name : String) :
    ProcsBelow (n + 1) (Sober.emplace name (BitVec.ofNat 32 (n + 16)) procs) := by
  have hnew : (BitVec.ofNat 32 (n + 16)).toNat = n + 16 := by
    rw [BitVec.toNat_ofNat, Nat.mod_eq_of_lt (by omega)]
  constructor
  · intro x id hx
    rcases lookup_emplace hx with ⟨-, rfl⟩ | hold
    · omega
    · have := h.lt hold
      omega
  · intro x x' id hx hx'
    rcases lookup_emplace hx with ⟨rfl, rfl⟩ | hold
    · rcases lookup_emplace hx' with ⟨rfl, -⟩ | hold'
      · rfl
      · have := h.lt hold'
        omega
    · rcases lookup_emplace hx' with ⟨rfl, rfl⟩ | hold'
      · have := h.lt hold
        omega
      · exact h.inj hold hold'

theorem enterProcs (h : ProcsBelow n procs) (symbols : List DynamicSymbol)
    (hn : n + symbols.length ≤ 8191) :
    ProcsBelow (n + symbols.length) (Sober.enterProcs n symbols procs) := by
  induction symbols generalizing n procs with
  | nil => exact h
  | cons sym rest ih =>
    rw [List.length_cons] at hn ⊢
    have hrest := ih (h.emplace (by omega) sym.name) (by omega)
    rwa [Nat.add_assoc, Nat.add_comm 1] at hrest

theorem enteredProcs (h : ProcsBelow n procs) (ops : List SymsOp)
    (haccepted : ∀ op ∈ ops, op.Accepted)
    (hn : n + (ops.flatMap SymsOp.creations).length ≤ 8191) :
    ProcsBelow (n + (ops.flatMap SymsOp.creations).length) (Sober.enteredProcs n ops procs) := by
  induction ops generalizing n procs with
  | nil => exact h
  | cons op ops ih =>
    rw [List.flatMap_cons, List.length_append] at hn ⊢
    rw [← Nat.add_assoc]
    apply ih _ (fun o ho => haccepted o (by simp [ho])) (by omega)
    have haccept := haccepted op (by simp)
    cases op with
    | addLibrary name symbols => exact h.mono (by omega)
    | createExtraGlTrampolines symbols => exact h.mono (by omega)
    | createVulkanTrampolines symbols =>
      have hlength : (SymsOp.createVulkanTrampolines symbols).creations.length =
          symbols.length := by
        apply List.filterMap_length_eq_length.mpr
        intro sym hsym
        rw [DynamicSymbol.createArgs?_of_ne (haccept sym hsym)]
        rfl
      rw [hlength] at hn ⊢
      exact h.enterProcs symbols (by omega)

end ProcsBelow

/-- After start-up every known name has an entry of its own. -/
theorem procsBelow_of_start {m : Mapping} {s₀ : TrampolineState}
    (hinit : trampolineInit (some m) .initial = some (0, s₀)) {ops : List SymsOp}
    (hcount : (ops.flatMap SymsOp.creations).length ≤ 8191) {g₀ : SymsState}
    (hstart : symsRun ops (.initial s₀) = .ok g₀) :
    ProcsBelow (0 + (ops.flatMap SymsOp.creations).length) g₀.procToTrampoline := by
  have hle : 0 + (ops.flatMap SymsOp.creations).length ≤ 8191 := by rwa [Nat.zero_add]
  obtain ⟨-, -, hentered⟩ := layout_of_symsRun hstart (layout_of_init hinit) hle
  rw [hentered]
  exact ProcsBelow.empty.enteredProcs ops (accepted_of_symsRun hstart) hle

def GraphicsState.slot (g : GraphicsState) (name : String) : Option Word :=
  (g.procToTrampoline.lookup name).bind fun id =>
    (trampolineGetById g.trampolines id).map Trampoline.nativeFunc

/-- A lookup stores its function for its own name and for no other. -/
theorem lookupProc_slot {wrappers : Wrappers} {intercepts : String → Option Intercepted}
    {driver answer : Word} {name : String} {g g' : GraphicsState} {r : Word} {n : ℕ}
    (hprocs : ProcsBelow n g.procToTrampoline)
    (h : lookupProc wrappers intercepts driver answer name g = .ok (r, g')) :
    g'.procToTrampoline = g.procToTrampoline ∧
      g'.slot name = some (((intercepts name).map wrappers.address).getD answer) ∧
      (r ≠ 0 → ((intercepts name).map wrappers.address).getD answer ≠ 0) ∧
      ∀ other, other ≠ name → g'.slot other = g.slot other := by
  obtain ⟨id, t, func, hid, ht, rfl, rfl, hr⟩ := lookupProc_ok h
  refine ⟨rfl, ?_, hr, ?_⟩
  · simp [GraphicsState.slot, hid, trampolineGetById_store_self ht]
  · intro other hother
    cases hid' : g.procToTrampoline.lookup other with
    | none => simp [GraphicsState.slot, hid']
    | some id' =>
      have hne : id ≠ id' := by
        intro e
        subst e
        exact hother (hprocs.inj hid' hid)
      simp [GraphicsState.slot, hid', trampolineGetById_store_of_ne g.trampolines hne]

/-- A guest call of one of the lookups or of the wrapped instance creation. -/
inductive VulkanEvent where
  | instanceLookup (sdl answer : Word) (name : String)
  | deviceLookup (answer : Word) (name : String)
  | createInstance (inst deviceProc : Word)

namespace VulkanEvent

def exec (wrappers : Wrappers) : VulkanEvent → GraphicsState →
    Except LookupFault (Word × GraphicsState)
  | .instanceLookup sdl answer name, g => vkGetInstanceProcAddr wrappers sdl answer name g
  | .deviceLookup answer name, g => vkGetDeviceProcAddr wrappers answer name g
  | .createInstance inst deviceProc, g =>
    (vkCreateInstance inst deviceProc g).map (fun g' => (0, g'))

def step (wrappers : Wrappers) (g : GraphicsState) (e : VulkanEvent) :
    Except LookupFault GraphicsState :=
  (e.exec wrappers g).map Prod.snd

def name? : VulkanEvent → Option String
  | .instanceLookup _ _ name => some name
  | .deviceLookup _ name => some name
  | .createInstance _ _ => none

def answer : VulkanEvent → Word
  | .instanceLookup _ answer _ => answer
  | .deviceLookup answer _ => answer
  | .createInstance _ _ => 0

def installs : VulkanEvent → Option Intercepted
  | .instanceLookup _ _ name => instanceIntercepts name
  | .deviceLookup _ name => deviceIntercepts name
  | .createInstance _ _ => none

def stored (wrappers : Wrappers) (e : VulkanEvent) : Word :=
  (e.installs.map wrappers.address).getD e.answer

/-- The effect of one event on the stored functions. -/
theorem exec_slot {wrappers : Wrappers} {g g' : GraphicsState} {e : VulkanEvent} {r : Word}
    {n : ℕ} (hprocs : ProcsBelow n g.procToTrampoline) (h : e.exec wrappers g = .ok (r, g')) :
    g'.procToTrampoline = g.procToTrampoline ∧
      (∀ name, e.name? = some name → g'.slot name = some (e.stored wrappers) ∧
        (r ≠ 0 → e.stored wrappers ≠ 0)) ∧
      ∀ other, e.name? ≠ some other → g'.slot other = g.slot other := by
  cases e with
  | instanceLookup sdl answer name =>
    have hsame : ∀ g₁, g₁ = (if g.procAddr = 0 then { g with procAddr := sdl } else g) →
        g₁.procToTrampoline = g.procToTrampoline ∧ ∀ x, g₁.slot x = g.slot x := by
      rintro g₁ rfl
      split_ifs <;> exact ⟨rfl, fun _ => rfl⟩
    obtain ⟨hsame₁, hsame₂⟩ := hsame _ rfl
    obtain ⟨hp, hname, hr, hother⟩ := lookupProc_slot (hsame₁ ▸ hprocs) h
    refine ⟨hp.trans hsame₁, ?_, ?_⟩
    · rintro _ ⟨⟩
      exact ⟨hname, hr⟩
    · intro other hne
      rw [hother other (fun e => hne (e ▸ rfl)), hsame₂]
  | deviceLookup answer name =>
    obtain ⟨hp, hname, hr, hother⟩ := lookupProc_slot hprocs h
    refine ⟨hp, ?_, fun other hne => hother other (fun e => hne (e ▸ rfl))⟩
    rintro _ ⟨⟩
    exact ⟨hname, hr⟩
  | createInstance inst deviceProc =>
    simp only [exec, vkCreateInstance] at h
    split_ifs at h
    · cases h
      exact ⟨rfl, nofun, fun _ _ => rfl⟩
    · cases h
    · cases h
      exact ⟨rfl, nofun, fun _ _ => rfl⟩

theorem exec_of_step {wrappers : Wrappers} {g g' : GraphicsState} {e : VulkanEvent}
    (h : step wrappers g e = .ok g') : ∃ r, e.exec wrappers g = .ok (r, g') := by
  obtain ⟨result, hexec, rfl⟩ := Transition.ok_of_map h
  exact ⟨result.1, hexec⟩

theorem name_of_installs {e : VulkanEvent} {name : String} (hname : e.name? = some name)
    {x : Intercepted} (h : e.installs = some x) : x.name = name := by
  cases e with
  | instanceLookup sdl answer name' =>
    cases hname
    simp only [installs, instanceIntercepts] at h
    split_ifs at h with h₁ h₂ h₃ h₄ h₅ <;> cases h <;> simp_all [Intercepted.name]
  | deviceLookup answer name' =>
    cases hname
    simp only [installs, deviceIntercepts] at h
    split_ifs at h with h₁
    cases h
    exact h₁.symm
  | createInstance inst deviceProc => cases hname

/-- The lookup does not meet what another lookup left: a name that it passes to
the driver has no wrapper, and the driver knows it if it has a function. -/
def Leaves (wrappers : Wrappers) (g : GraphicsState) (e : VulkanEvent) : Prop :=
  ∀ name, e.name? = some name → e.installs = none →
    (∀ x : Intercepted, x.name = name → g.slot name ≠ some (wrappers.address x)) ∧
      (g.slot name = some 0 ∨ e.answer ≠ 0)

end VulkanEvent

theorem Intercepted.name_injective : Function.Injective Intercepted.name := by
  intro x y h
  cases x <;> cases y <;> first | rfl | exact absurd h (by decide)

/-- Between two states the wrapper of a name stays, and the name keeps a function. -/
structure Keeps (wrappers : Wrappers) (name : String) (g g' : GraphicsState) : Prop where
  wrapper : ∀ x : Intercepted, x.name = name → g.slot name = some (wrappers.address x) →
    g'.slot name = some (wrappers.address x)
  function : ∀ func, func ≠ 0 → g.slot name = some func →
    ∃ func', func' ≠ 0 ∧ g'.slot name = some func'

section Runs
variable {wrappers : Wrappers} {name : String} {g g' g'' : GraphicsState}
  {events : List VulkanEvent} {n : ℕ}

theorem Keeps.of_slot_eq (h : g'.slot name = g.slot name) : Keeps wrappers name g g' where
  wrapper _ _ hold := h.trans hold
  function func hfunc hold := ⟨func, hfunc, h.trans hold⟩

theorem Keeps.trans (h : Keeps wrappers name g g') (h' : Keeps wrappers name g' g'') :
    Keeps wrappers name g g'' where
  wrapper x hx hold := h'.wrapper x hx (h.wrapper x hx hold)
  function func hfunc hold := by
    obtain ⟨func₁, hfunc₁, hslot₁⟩ := h.function func hfunc hold
    exact h'.function func₁ hfunc₁ hslot₁

/-- What one event keeps of the function stored for a name. -/
theorem keeps_of_step {e : VulkanEvent} {r : Word} (name : String)
    (hprocs : ProcsBelow n g.procToTrampoline) (hleaves : e.Leaves wrappers g)
    (h : e.exec wrappers g = .ok (r, g')) : Keeps wrappers name g g' := by
  obtain ⟨-, hown, hother⟩ := e.exec_slot hprocs h
  by_cases hname : e.name? = some name
  · obtain ⟨hslot, -⟩ := hown name hname
    cases hx : e.installs with
    | some y =>
      have hy := e.name_of_installs hname hx
      rw [VulkanEvent.stored, hx] at hslot
      constructor
      · intro x hxname _
        rw [Intercepted.name_injective (hxname.trans hy.symm)]
        exact hslot
      · exact fun _ _ _ => ⟨_, wrappers.nonnull y, hslot⟩
    | none =>
      obtain ⟨hwrapper, hnull⟩ := hleaves name hname hx
      rw [VulkanEvent.stored, hx] at hslot
      constructor
      · exact fun x hxname hold => absurd hold (hwrapper x hxname)
      · intro func hfunc hold
        rcases hnull with hzero | hanswer
        · rw [hold, Option.some.injEq] at hzero
          exact absurd hzero hfunc
        · exact ⟨_, hanswer, hslot⟩
  · exact .of_slot_eq (hother name hname)

theorem keeps_of_run (name : String) (hprocs : ProcsBelow n g.procToTrampoline)
    (h : Run (VulkanEvent.step wrappers) (fun g e => e.Leaves wrappers g) g events g') :
    ProcsBelow n g'.procToTrampoline ∧ Keeps wrappers name g g' := by
  induction h with
  | nil => exact ⟨hprocs, .of_slot_eq rfl⟩
  | cons hleaves hstep _ ih =>
    obtain ⟨r, hexec⟩ := VulkanEvent.exec_of_step hstep
    have hsame := (VulkanEvent.exec_slot hprocs hexec).1
    obtain ⟨hprocs', hkeeps⟩ := ih (hsame ▸ hprocs)
    exact ⟨hprocs', (keeps_of_step name hprocs hleaves hexec).trans hkeeps⟩

end Runs

/-- In every run of guest calls that never passes a wrapped or known name to a
driver function that would replace it: a wrapper that a lookup stored stays the
function of its name, and a name for which a lookup returned an address always
has a function. -/
theorem vulkan_functions_kept (wrappers : Wrappers) (m : Mapping) (s₀ : TrampolineState)
    (hinit : trampolineInit (some m) .initial = some (0, s₀)) (ops : List SymsOp)
    (hcount : (ops.flatMap SymsOp.creations).length ≤ 8191) (g₀ : SymsState)
    (hstart : symsRun ops (.initial s₀) = .ok g₀) (before after : List VulkanEvent)
    (g g' g'' : GraphicsState) (e : VulkanEvent) (name : String) (r : Word)
    (hbefore : Run (VulkanEvent.step wrappers) (fun g e => e.Leaves wrappers g) (.ofSyms g₀)
      before g)
    (hname : e.name? = some name) (he : e.exec wrappers g = .ok (r, g'))
    (hafter : Run (VulkanEvent.step wrappers) (fun g e => e.Leaves wrappers g) g' after g'') :
    (∀ x, e.installs = some x → g''.slot name = some (wrappers.address x)) ∧
      (r ≠ 0 → ∃ func, func ≠ 0 ∧ g''.slot name = some func) := by
  have hprocs := (keeps_of_run name (g := .ofSyms g₀)
    (procsBelow_of_start hinit hcount hstart) hbefore).1
  obtain ⟨hsame, hown, -⟩ := e.exec_slot hprocs he
  obtain ⟨hslot, hr⟩ := hown name hname
  obtain ⟨-, hkeeps⟩ := keeps_of_run name (hsame ▸ hprocs) hafter
  constructor
  · intro x hx
    apply hkeeps.wrapper x (e.name_of_installs hname hx)
    rw [hslot, VulkanEvent.stored, hx]
    rfl
  · intro hne
    exact hkeeps.function _ (hr hne) hslot

def vulkanRows : List DynamicSymbol :=
  [⟨"vkAcquireNextImageKHR", 0, [.unsignedWord, .pointer, .pointer, .unsignedDoubleword, .pointer,
      .pointer, .pointer], false, false⟩,
    ⟨"vkCreateInstance", 0, [.unsignedWord, .pointer, .pointer, .pointer], false, false⟩,
    ⟨"vkDestroyInstance", 0, [.none, .pointer, .pointer], false, false⟩,
    ⟨"vkGetDeviceProcAddr", 0, [.pointer, .pointer, .pointer], false, false⟩]

def lowWrappers : Wrappers where
  address
    | .createInstance => 0x7000
    | .destroyInstance => 0x7010
    | .getDeviceProcAddr => 0x7020
    | .createAndroidSurface => 0x7030
    | .getPhysicalDeviceSurfaceCapabilities => 0x7040
    | .acquireNextImage => 0x7050
  nonnull x := by cases x <;> decide

def vulkanState : GraphicsState where
  trampolines := (vulkanRows.filterMap (·.createArgs? 0)).mapIdx
    (fun i c => c.entry lowMapping.base i)
  procToTrampoline := enterProcs 0 vulkanRows ∅
  procAddr := 0
  deviceProcAddr := 0
  globalInstance := 0
  symbolsWithTrampolineIds := []
  glInitialized := false
  procToGuestRoutine := ∅

theorem vulkanState_of_start : ∃ s₀ g₀, trampolineInit (some lowMapping) .initial = some (0, s₀) ∧
    symsRun [.createVulkanTrampolines vulkanRows] (.initial s₀) = .ok g₀ ∧
    GraphicsState.ofSyms g₀ = vulkanState := by
  obtain ⟨s₀, hinit, hlayout⟩ := trampolineInit_layout lowMapping
  obtain ⟨s', hcreate, hlayout'⟩ := createVulkanTrampolines_layout vulkanRows
    (g := .initial s₀) hlayout (by decide) (by decide)
  refine ⟨s₀, ⟨s', [], [], enterProcs 0 vulkanRows ∅⟩, hinit, ?_, ?_⟩
  · rw [symsRun, SymsOp.exec, hcreate]
    rfl
  · rw [GraphicsState.ofSyms, hlayout'.trampolines]
    rfl

/-- The guest looks three functions up and creates its instance. -/
def setUpEvents : List VulkanEvent :=
  [.instanceLookup 0x5000 0 "vkCreateInstance", .createInstance 0x100 0x6000,
    .instanceLookup 0x5000 0 "vkGetDeviceProcAddr", .instanceLookup 0x5000 0 "vkDestroyInstance"]

/-- The wrapper of `vkAcquireNextImageKHR` stays through another lookup. -/
theorem vulkan_functions_kept_acquire : ∃ g g' g'' : GraphicsState,
    Run (VulkanEvent.step lowWrappers) (fun g e => e.Leaves lowWrappers g) vulkanState
      setUpEvents g ∧
    VulkanEvent.exec lowWrappers (.deviceLookup 0x9000 "vkAcquireNextImageKHR") g =
      .ok (0x10004, g') ∧
    VulkanEvent.step lowWrappers g' (.instanceLookup 0x5000 0 "vkDestroyInstance") = .ok g'' ∧
    g''.slot "vkAcquireNextImageKHR" = some 0x7050 := by
  obtain ⟨s₀, g₀, hinit, hstart, hstate⟩ := vulkanState_of_start
  have hbefore : ∃ g, Run (VulkanEvent.step lowWrappers) (fun g e => e.Leaves lowWrappers g)
      vulkanState setUpEvents g ∧ ∃ g' g'',
      VulkanEvent.exec lowWrappers (.deviceLookup 0x9000 "vkAcquireNextImageKHR") g =
        .ok (0x10004, g') ∧
      VulkanEvent.step lowWrappers g' (.instanceLookup 0x5000 0 "vkDestroyInstance") = .ok g'' := by
    refine ⟨_, .cons ?_ rfl (.cons ?_ rfl (.cons ?_ rfl (.cons ?_ rfl (.nil _)))), _, _, rfl, rfl⟩
    all_goals rintro name ⟨⟩ ⟨⟩
  obtain ⟨g, hrun, g', g'', hexec, hlater⟩ := hbefore
  refine ⟨g, g', g'', hrun, hexec, hlater, ?_⟩
  have hafter : Run (VulkanEvent.step lowWrappers) (fun g e => e.Leaves lowWrappers g) g'
      [.instanceLookup 0x5000 0 "vkDestroyInstance"] g'' := by
    refine .cons ?_ hlater (.nil _)
    rintro name ⟨⟩ ⟨⟩
  rw [← hstate] at hrun
  exact (vulkan_functions_kept lowWrappers lowMapping s₀ hinit _ (by decide) g₀ hstart _ _ g g' g''
    _ _ _ hrun rfl hexec hafter).1 .acquireNextImage rfl

/-- The device lookup asks the driver for `vkDestroyInstance`, which is no
device function, and removes the wrapper that was handed out. -/
theorem device_lookup_removes_wrapper : ∃ g g' : GraphicsState,
    Run (VulkanEvent.step lowWrappers) (fun _ _ => True) vulkanState setUpEvents g ∧
    g.slot "vkDestroyInstance" = some (lowWrappers.address .destroyInstance) ∧
    VulkanEvent.step lowWrappers g (.deviceLookup 0 "vkDestroyInstance") = .ok g' ∧
    g'.slot "vkDestroyInstance" = some 0 := by
  refine ⟨_, _, .cons trivial rfl (.cons trivial rfl (.cons trivial rfl (.cons trivial rfl
    (.nil _)))), rfl, rfl, rfl⟩

end Sober
