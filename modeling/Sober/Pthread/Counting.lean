import Sober.Pthread.State

/-! # The reference count of a thread

A thread's count is one for its routine, until that finishes, and one for each
wrapper it has installed. The context is initialized while the thread has started
and the count is positive, and freed once, when the count reaches zero.
-/
namespace Sober
open Machine

namespace ThreadPhase

def started : ThreadPhase → Bool
  | .absent | .created _ => false
  | _ => true

def finished : ThreadPhase → Bool
  | .exiting | .destroying _ | .gone => true
  | _ => false

def routineRef (phase : ThreadPhase) : ℕ := if phase.finished then 0 else 1

def callbackWrappers : ThreadPhase → ℕ
  | .destroying _ => 1
  | _ => 0

end ThreadPhase

namespace ThreadContext

/-- The wrappers in the thread's slots, and the one whose callback is running. -/
def installed (c : ThreadContext) : ℕ := c.slots.keys.card + c.phase.callbackWrappers

def count (c : ThreadContext) : ℕ := c.phase.routineRef + c.installed

structure Counted (c : ThreadContext) : Prop where
  refs : c.refCount.toNat = c.count
  initialized_iff : c.initialized = true ↔ c.phase.started = true ∧ c.count ≠ 0
  frees_eq : c.frees = if c.count = 0 then 1 else 0

end ThreadContext

theorem PthreadKey.card_le (keys : Finset PthreadKey) : keys.card ≤ 2 ^ 32 := by
  calc keys.card = (keys.image BitVec.toNat).card :=
        (Finset.card_image_of_injective keys BitVec.toNat_injective).symm
    _ ≤ (Finset.range (2 ^ 32)).card := by
        apply Finset.card_le_card
        intro n hn
        obtain ⟨key, -, rfl⟩ := Finset.mem_image.mp hn
        exact Finset.mem_range.mpr key.isLt
    _ = 2 ^ 32 := Finset.card_range _

section Slots
variable {key : PthreadKey} {slots : Finmap (fun _ : PthreadKey => Word)}

theorem card_keys_insert (hkey : slots.lookup key = none) (p : Word) :
    (slots.insert key p).keys.card = slots.keys.card + 1 := by
  have hkeys : (slots.insert key p).keys = insert key slots.keys := by
    ext key'
    simp only [Finmap.mem_keys, Finmap.mem_insert, Finset.mem_insert]
  rw [hkeys, Finset.card_insert_of_notMem]
  rwa [Finmap.mem_keys, ← Finmap.lookup_eq_none]

theorem card_keys_erase {p : Word} (hkey : slots.lookup key = some p) :
    (slots.erase key).keys.card + 1 = slots.keys.card := by
  rw [Finmap.keys_erase]
  apply Finset.card_erase_add_one
  rw [Finmap.mem_keys, ← Finmap.lookup_isSome, hkey]
  rfl

end Slots

namespace ThreadContext
variable {c c' : ThreadContext}

theorem count_le (c : ThreadContext) : c.count ≤ 2 ^ 32 + 2 := by
  have hcard := PthreadKey.card_le c.slots.keys
  have hcallback : c.phase.callbackWrappers ≤ 1 := by
    cases c.phase <;> simp [ThreadPhase.callbackWrappers]
  have hroutine : c.phase.routineRef ≤ 1 := by
    unfold ThreadPhase.routineRef
    split <;> omega
  unfold count installed
  omega

theorem InGuest.started (h : c.InGuest) : c.phase.started = true := by
  unfold InGuest at h
  cases hphase : c.phase <;> simp [hphase, ThreadPhase.started] at h ⊢

theorem InGuest.phase_ne_absent (h : c.InGuest) : c.phase ≠ .absent := by
  intro habsent
  have hstarted := h.started
  rw [habsent] at hstarted
  cases hstarted

/-- Inside guest code something other than the slots keeps the context. -/
theorem InGuest.card_lt_count (h : c.InGuest) : c.slots.keys.card < c.count := by
  unfold InGuest at h
  unfold count installed
  cases hphase : c.phase <;>
    simp [hphase, ThreadPhase.routineRef, ThreadPhase.finished,
      ThreadPhase.callbackWrappers] at h ⊢

namespace Counted

theorem initial : ThreadContext.initial.Counted := by
  constructor <;> decide

theorem initialized (h : c.Counted) (hstarted : c.phase.started = true) (hcount : c.count ≠ 0) :
    c.initialized = true :=
  h.initialized_iff.mpr ⟨hstarted, hcount⟩

/-- The state of the context depends on the count and on whether the thread started. -/
theorem congr (h : c.Counted) (hcount : c'.count = c.count)
    (hstarted : c'.phase.started = c.phase.started) (hrefs : c'.refCount = c.refCount)
    (hinit : c'.initialized = c.initialized) (hfrees : c'.frees = c.frees) : c'.Counted := by
  constructor
  · rw [hrefs, hcount]
    exact h.refs
  · rw [hinit, hstarted, hcount]
    exact h.initialized_iff
  · rw [hfrees, hcount]
    exact h.frees_eq

/-- A context that is alive before and after a change keeps its state. -/
theorem of_alive (h : c.Counted) (hcount : c.count ≠ 0) (hcount' : c'.count ≠ 0)
    (hstarted : c'.phase.started = c.phase.started) (hrefs : c'.refCount.toNat = c'.count)
    (hinit : c'.initialized = c.initialized) (hfrees : c'.frees = c.frees) : c'.Counted := by
  constructor
  · exact hrefs
  · rw [hinit, hstarted, h.initialized_iff]
    simp [hcount, hcount']
  · rw [hfrees, h.frees_eq, if_neg hcount, if_neg hcount']

theorem toNat_refCount_sub (h : c.Counted) (hcount : c.count ≠ 0) :
    (c.refCount - 1).toNat = c.count - 1 := by
  have hrefs := h.refs
  have hlt := c.refCount.isLt
  rw [BitVec.toNat_sub, hrefs, show BitVec.toNat (1 : Word) = 1 from rfl]
  omega

theorem toNat_refCount_add (h : c.Counted) : (c.refCount + 1).toNat = c.count + 1 := by
  have hle := c.count_le
  rw [BitVec.toNat_add, h.refs, show BitVec.toNat (1 : Word) = 1 from rfl]
  omega

/-- A wrapper is installed under a free key. -/
theorem install (h : c.Counted) (hguest : c.InGuest) {key : PthreadKey}
    (hkey : c.slots.lookup key = none) (p : Word) :
    Counted (c.addRef.setSlot key p) := by
  have hcount : count (c.addRef.setSlot key p) = c.count + 1 := by
    simp only [count, installed, addRef, setSlot, card_keys_insert hkey]
    omega
  have hpos := hguest.card_lt_count
  have hrefs : (c.addRef.setSlot key p).refCount.toNat = (c.addRef.setSlot key p).count := by
    rw [hcount]
    exact h.toNat_refCount_add
  exact h.of_alive (by omega) (by omega) rfl hrefs rfl rfl

/-- A wrapper is taken away by the guest. -/
theorem clear (h : c.Counted) (hguest : c.InGuest) {key : PthreadKey} {p : Word}
    (hkey : c.slots.lookup key = some p) :
    Counted (c.subRef.clearSlot key) := by
  have hcard := card_keys_erase hkey
  have hpos := hguest.card_lt_count
  have hcount : count (c.subRef.clearSlot key) = c.count - 1 := by
    simp only [count, installed, subRef, clearSlot] at hpos ⊢
    omega
  have hrefs : (c.subRef.clearSlot key).refCount.toNat = (c.subRef.clearSlot key).count := by
    rw [hcount]
    exact h.toNat_refCount_sub (by omega)
  exact h.of_alive (by omega) (by omega) rfl hrefs rfl rfl

/-- The end of the routine and of a callback: one reference less, and the context
is freed with the last one. -/
theorem release (h : c.Counted) (hstarted : c.phase.started = true)
    (hcount : (c.setPhase .exiting).count + 1 = c.count) :
    Counted (c.release.setPhase .exiting) := by
  have hrefs := h.toNat_refCount_sub (by omega)
  have hzero : c.subRef.refCount = 0 ↔ (c.setPhase .exiting).count = 0 := by
    rw [← BitVec.toNat_inj]
    change (c.refCount - 1).toNat = 0 ↔ _
    omega
  have hfrees := h.frees_eq
  rw [if_neg (by omega)] at hfrees
  have hinit := h.initialized hstarted (by omega)
  unfold ThreadContext.release
  by_cases hlast : c.subRef.refCount = 0
  · rw [if_pos hlast]
    have hnone := hzero.mp hlast
    constructor
    · change (c.refCount - 1).toNat = (c.setPhase .exiting).count
      omega
    · change false = true ↔ _ ∧ (c.setPhase .exiting).count ≠ 0
      simp [hnone]
    · change c.frees + 1 = if (c.setPhase .exiting).count = 0 then 1 else 0
      rw [if_pos hnone, hfrees]
  · rw [if_neg hlast]
    have hsome := mt hzero.mpr hlast
    constructor
    · change (c.refCount - 1).toNat = (c.setPhase .exiting).count
      omega
    · change c.initialized = true ↔ true = true ∧ (c.setPhase .exiting).count ≠ 0
      simp [hinit, hsome]
    · change c.frees = if (c.setPhase .exiting).count = 0 then 1 else 0
      rw [if_neg hsome, hfrees]

end Counted
end ThreadContext
end Sober
