import Sober.Graphics.Lookup
import Sober.Transition.Run

/-! # The shared Vulkan instance

The wrapper of `vkCreateInstance` creates one instance and hands it out again to
every later call. It keeps what the driver left in the output handle without
looking at the driver's result, and asks the loader for the device lookup of that
handle. A failed creation therefore goes unnoticed only if the handle is null
afterwards and the loader's answer for null is the device lookup that was there.
-/
namespace Sober
open Machine Transition

abbrev VkResult := ℤ

def vkSuccess : VkResult := 0

/-- The extensions that SDL needs, then those of the guest that are not there yet;
the one for Android surfaces is left out. -/
def mergeExtensions (extensions : List String) : List String → List String
  | [] => extensions
  | str :: enabled =>
    if str = "VK_KHR_android_surface" then mergeExtensions extensions enabled
    else if str ∈ extensions then mergeExtensions extensions enabled
    else mergeExtensions (extensions ++ [str]) enabled

/-- One call of the wrapper with what the host answers in it: the extensions of SDL,
or nothing if it fails, the function that the loader names, and the driver's result
with the handle that it stores, if it stores one. -/
structure CreateCall where
  pAllocator : Word
  enabledExtensionNames : List String
  /-- What the guest's output handle holds at the call. -/
  handle : Word
  sdlExtensions : Option (List String)
  createInstance : Word
  result : VkResult
  stored : Option Word
  /-- The loader's answer for the device lookup of the handle. -/
  deviceProc : Word

def CreateCall.output (c : CreateCall) : Word := c.stored.getD c.handle

structure NativeCreation where
  function : Word
  extensions : List String
  result : VkResult
  output : Word

structure InstanceState where
  graphics : GraphicsState
  /-- The static variable of the wrapper, once it is initialised. -/
  createInstance : Option Word
  created : List NativeCreation

def InstanceState.initial (g : GraphicsState) : InstanceState := ⟨g, none, []⟩

/-- The result, the handle that the guest finds, and the state left behind. -/
def createInstanceWrapper (c : CreateCall) (s : InstanceState) :
    Except LookupFault (VkResult × Word × InstanceState) :=
  if s.graphics.globalInstance ≠ 0 then .ok (vkSuccess, s.graphics.globalInstance, s)
  else if c.pAllocator ≠ 0 then .error .assertion
  else if s.graphics.procAddr = 0 then .error .nullCall
  else
    let createInstance := s.createInstance.getD c.createInstance
    match c.sdlExtensions with
    | none => .error .assertion
    | some extensions =>
      if createInstance = 0 then .error .nullCall
      else
        let creation : NativeCreation := {
          function := createInstance
          extensions := mergeExtensions extensions c.enabledExtensionNames
          result := c.result
          output := c.output }
        .ok (c.result, c.output, {
          graphics := { s.graphics with
            deviceProcAddr := c.deviceProc
            globalInstance := c.output }
          createInstance := some createInstance
          created := s.created ++ [creation] })

def createStep (s : InstanceState) (c : CreateCall) : Except LookupFault InstanceState :=
  (createInstanceWrapper c s).map fun r => r.2.2

section Call
variable {c : CreateCall} {s s' : InstanceState} {result : VkResult} {handle : Word}

/-- The two ways of a call that returns. -/
theorem createInstanceWrapper_ok (h : createInstanceWrapper c s = .ok (result, handle, s')) :
    (s.graphics.globalInstance ≠ 0 ∧ result = vkSuccess ∧ handle = s.graphics.globalInstance ∧
      s' = s) ∨
    (s.graphics.globalInstance = 0 ∧ result = c.result ∧ handle = c.output ∧
      s'.graphics = { s.graphics with
        deviceProcAddr := c.deviceProc
        globalInstance := c.output } ∧
      s.graphics.procAddr ≠ 0 ∧
      ∃ creation : NativeCreation, s'.created = s.created ++ [creation] ∧
        creation.result = c.result ∧ creation.output = c.output) := by
  rw [createInstanceWrapper] at h
  split_ifs at h with hglobal hallocator hproc
  · cases h
    exact .inl ⟨hglobal, rfl, rfl, rfl⟩
  · cases hsdl : c.sdlExtensions with
    | none => simp [hsdl] at h
    | some extensions =>
      simp only [hsdl] at h
      split_ifs at h
      cases h
      exact .inr ⟨not_not.mp hglobal, rfl, rfl, rfl, hproc, _, rfl, rfl, rfl⟩

/-- The wrapper leaves behind what `vkCreateInstance` of the lookups says. -/
theorem createInstanceWrapper_refines (h : createInstanceWrapper c s = .ok (result, handle, s')) :
    vkCreateInstance c.output c.deviceProc s.graphics = .ok s'.graphics := by
  rw [vkCreateInstance]
  rcases createInstanceWrapper_ok h with ⟨hglobal, -, -, rfl⟩ | ⟨hglobal, -, -, hg, hproc, -⟩
  · rw [if_pos hglobal]
  · rw [if_neg (not_not.mpr hglobal), if_neg hproc, hg]

end Call

/-- What is asked of a call: the shared instance is handed out and no other is created;
without one the driver creates one, which is shared if and only if it succeeds. -/
structure SharesInstance (c : CreateCall) (s : InstanceState) (result : VkResult) (handle : Word)
    (s' : InstanceState) : Prop where
  shared : s.graphics.globalInstance ≠ 0 →
    result = vkSuccess ∧ handle = s.graphics.globalInstance ∧ s' = s
  created : s.graphics.globalInstance = 0 → result = c.result ∧
    ∃ creation : NativeCreation, s'.created = s.created ++ [creation] ∧
      creation.result = c.result ∧ creation.output = c.output
  success : s.graphics.globalInstance = 0 → c.result = vkSuccess →
    handle = c.output ∧ s'.graphics.globalInstance = c.output ∧ s'.graphics.globalInstance ≠ 0
  failure : s.graphics.globalInstance = 0 → c.result ≠ vkSuccess →
    s'.graphics.globalInstance = 0 ∧ s'.graphics.deviceProcAddr = s.graphics.deviceProcAddr

/-- The driver stores an instance if it succeeds. If it fails it leaves null, and the
loader answers for null what it answered before. -/
def CleanCreation (s : InstanceState) (c : CreateCall) : Prop :=
  s.graphics.globalInstance = 0 →
    (c.result = vkSuccess → c.output ≠ 0) ∧
      (c.result ≠ vkSuccess → c.output = 0 ∧ c.deviceProc = s.graphics.deviceProcAddr)

theorem sharesInstance_iff {c : CreateCall} {s s' : InstanceState} {result : VkResult}
    {handle : Word} (h : createInstanceWrapper c s = .ok (result, handle, s')) :
    SharesInstance c s result handle s' ↔ CleanCreation s c := by
  rcases createInstanceWrapper_ok h with
    ⟨hglobal, rfl, rfl, rfl⟩ | ⟨hglobal, rfl, rfl, hg, -, hcreated⟩
  · constructor
    · intro _ hnull
      exact absurd hnull hglobal
    · intro _
      exact ⟨fun _ => ⟨rfl, rfl, rfl⟩, fun hnull => absurd hnull hglobal,
        fun hnull => absurd hnull hglobal, fun hnull => absurd hnull hglobal⟩
  · constructor
    · intro hshares _
      constructor
      · intro hsuccess
        obtain ⟨-, hinstance, hne⟩ := hshares.success hglobal hsuccess
        rwa [hinstance] at hne
      · intro hfailure
        have hkept := hshares.failure hglobal hfailure
        rwa [hg] at hkept
    · intro hclean
      obtain ⟨hsuccess, hfailure⟩ := hclean hglobal
      refine ⟨fun hne => absurd hglobal hne, fun _ => ⟨rfl, hcreated⟩, fun _ hresult => ?_,
        fun _ hresult => ?_⟩
      · rw [hg]
        exact ⟨rfl, rfl, hsuccess hresult⟩
      · rw [hg]
        exact hfailure hresult

/-- What holds after calls from `s₀` on: the driver has failed a number of times; there
is no instance yet, or the next creation succeeded and its handle is shared. -/
structure InstanceShared (s₀ s : InstanceState) : Prop where
  created : ∃ failed : List NativeCreation, (∀ creation ∈ failed, creation.result ≠ vkSuccess) ∧
    ((s.graphics.globalInstance = 0 ∧ s.created = s₀.created ++ failed) ∨
      ∃ last : NativeCreation, last.result = vkSuccess ∧ s.graphics.globalInstance = last.output ∧
        last.output ≠ 0 ∧ s.created = s₀.created ++ failed ++ [last])
  device : s.graphics.globalInstance = 0 →
    s.graphics.deviceProcAddr = s₀.graphics.deviceProcAddr

theorem InstanceShared.step {s₀ s s' : InstanceState} {c : CreateCall} {result : VkResult}
    {handle : Word} (hinv : InstanceShared s₀ s)
    (h : SharesInstance c s result handle s') : InstanceShared s₀ s' := by
  by_cases hglobal : s.graphics.globalInstance = 0
  · obtain ⟨failed, hfailed, ⟨-, hcreated⟩ | ⟨last, -, heq, hne, -⟩⟩ := hinv.created
    · obtain ⟨-, creation, hcreated', hresult, houtput⟩ := h.created hglobal
      rw [hcreated] at hcreated'
      by_cases hsuccess : c.result = vkSuccess
      · obtain ⟨-, hinstance, hne⟩ := h.success hglobal hsuccess
        refine ⟨⟨failed, hfailed, .inr ⟨creation, ?_, ?_, ?_, hcreated'⟩⟩, ?_⟩
        · rw [hresult, hsuccess]
        · rw [hinstance, houtput]
        · rwa [houtput, ← hinstance]
        · intro hnull
          exact absurd hnull hne
      · obtain ⟨hnull, hdevice⟩ := h.failure hglobal hsuccess
        refine ⟨⟨failed ++ [creation], ?_, .inl ⟨hnull, ?_⟩⟩, ?_⟩
        · rw [List.forall_mem_append, List.forall_mem_singleton, hresult]
          exact ⟨hfailed, hsuccess⟩
        · rw [hcreated', List.append_assoc]
        · intro _
          rw [hdevice, hinv.device hglobal]
    · rw [heq] at hglobal
      exact absurd hglobal hne
  · obtain ⟨-, -, rfl⟩ := h.shared hglobal
    exact hinv

/-- Over every run of calls in which each creation is clean, at most one instance is
created and it is the one that is shared. A further call hands it out, or tries
the driver again after failures, if and only if it is clean as well. -/
theorem vulkan_instance_shared (s₀ s : InstanceState) (hstart : s₀.graphics.globalInstance = 0)
    (calls : List CreateCall) (hrun : Run createStep CleanCreation s₀ calls s) :
    InstanceShared s₀ s ∧ ∀ c result handle s',
      createInstanceWrapper c s = .ok (result, handle, s') →
      (SharesInstance c s result handle s' ↔ CleanCreation s c) := by
  constructor
  · apply hrun.invariant (I := InstanceShared s₀)
    · intro s c s' hinv hclean hstep
      obtain ⟨⟨result, handle, s''⟩, hwrapper, rfl⟩ := ok_of_map hstep
      exact hinv.step ((sharesInstance_iff hwrapper).mpr hclean)
    · exact ⟨⟨[], by simp, .inl ⟨hstart, (List.append_nil _).symm⟩⟩, fun _ => rfl⟩
  · intro c result handle s' hwrapper
    exact sharesInstance_iff hwrapper

/-- After the first lookup has fetched the loader's function. -/
def loadedInstanceState : InstanceState :=
  .initial ⟨[], ∅, 0x5000, 0, 0, [], false, ∅⟩

def createCall (result : VkResult) (stored : Option Word) (deviceProc : Word) : CreateCall where
  pAllocator := 0
  enabledExtensionNames := ["VK_KHR_surface", "VK_KHR_android_surface"]
  handle := 0xDEAD
  sdlExtensions := some ["VK_KHR_surface", "VK_KHR_xcb_surface"]
  createInstance := 0x6000
  result := result
  stored := stored
  deviceProc := deviceProc

/-- The driver fails and stores null, then it succeeds, and a third call shares. -/
theorem vulkan_instance_shared_retry :
    ∃ s, Run createStep CleanCreation loadedInstanceState
        [createCall (-1) (some 0) 0, createCall 0 (some 0x100) 0x7000,
          createCall 0 (some 0x200) 0x7000] s ∧
      InstanceShared loadedInstanceState s ∧ s.graphics.globalInstance = 0x100 ∧
      s.created.length = 2 := by
  have hrun : Run createStep CleanCreation loadedInstanceState
      [createCall (-1) (some 0) 0, createCall 0 (some 0x100) 0x7000,
        createCall 0 (some 0x200) 0x7000] _ :=
    .cons (fun _ => ⟨by decide, fun _ => ⟨rfl, rfl⟩⟩) rfl
      (.cons (fun _ => ⟨fun _ => by decide, fun hfailure => absurd rfl hfailure⟩) rfl
        (.cons (fun _ => ⟨fun _ => by decide, fun hfailure => absurd rfl hfailure⟩) rfl (.nil _)))
  exact ⟨_, hrun, (vulkan_instance_shared loadedInstanceState _ rfl _ hrun).1, rfl, rfl⟩

/-- The driver fails and leaves the handle as it was. The content of the handle becomes
the shared instance, and the next call returns it with success. -/
theorem failed_instance_shared :
    ∃ s, createInstanceWrapper (createCall (-1) none 0) loadedInstanceState =
        .ok (-1, 0xDEAD, s) ∧
      s.graphics.globalInstance = 0xDEAD ∧
      createInstanceWrapper (createCall 0 (some 0x100) 0x7000) s = .ok (vkSuccess, 0xDEAD, s) :=
  ⟨_, rfl, rfl, rfl⟩

end Sober
