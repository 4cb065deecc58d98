import Sober.Heap.Ownership
import Sober.Pthread.Counting

/-! # The invariant of threads and wrappers

Every wrapper is held by one place of one thread: a slot, or the host function the
thread is in. What a slot holds is recorded under its key, and every thread's
count is right. Every event keeps this, a deletion of a key when the record of the
key lists no more than the deleting thread's own wrapper.
-/
namespace Sober
open Machine Transition

/-- Where a thread keeps a wrapper: under a key, or as the argument of the
`thread_routine` or callback it is in. -/
inductive Place where
  | slot (key : PthreadKey)
  | frame
  deriving DecidableEq

def ThreadPhase.wrapper? : ThreadPhase → Option Word
  | .created wrapper | .running wrapper | .destroying wrapper => some wrapper
  | _ => none

namespace ThreadContext

def holds (c : ThreadContext) : Place → Option Word
  | .slot key => c.slots.lookup key
  | .frame => c.phase.wrapper?

variable (c : ThreadContext)

@[simp] theorem holds_setPhase (phase : ThreadPhase) :
    (c.setPhase phase).holds = Function.update c.holds .frame phase.wrapper? := by
  funext place
  cases place <;> rfl

@[simp] theorem holds_setSlot (key : PthreadKey) (p : Word) :
    (c.setSlot key p).holds = Function.update c.holds (.slot key) (some p) := by
  funext place
  cases place with
  | frame => rfl
  | slot key' =>
    by_cases hkey : key' = key
    · subst hkey
      rw [Function.update_self]
      exact Finmap.lookup_insert _
    · rw [Function.update_of_ne (by simpa using hkey)]
      exact Finmap.lookup_insert_of_ne _ hkey

@[simp] theorem holds_clearSlot (key : PthreadKey) :
    (c.clearSlot key).holds = Function.update c.holds (.slot key) none := by
  funext place
  cases place with
  | frame => rfl
  | slot key' =>
    by_cases hkey : key' = key
    · subst hkey
      rw [Function.update_self]
      exact Finmap.lookup_erase _ _
    · rw [Function.update_of_ne (by simpa using hkey)]
      exact Finmap.lookup_erase_ne hkey

theorem slot_of_clearSlot {c : ThreadContext} {key key' : PthreadKey} {p : Word}
    (h : (c.clearSlot key).holds (.slot key') = some p) : c.holds (.slot key') = some p := by
  rw [holds_clearSlot] at h
  by_cases hkey : key' = key
  · subst hkey
    rw [Function.update_self] at h
    cases h
  · rwa [Function.update_of_ne (by simpa using hkey)] at h

@[simp] theorem holds_setInitialized : c.setInitialized.holds = c.holds := by
  funext place
  cases place <;> rfl

@[simp] theorem holds_addRef : c.addRef.holds = c.holds := by
  funext place
  cases place <;> rfl

@[simp] theorem holds_subRef : c.subRef.holds = c.holds := by
  funext place
  cases place <;> rfl

@[simp] theorem holds_release : c.release.holds = c.holds := by
  funext place
  unfold release
  split <;> cases place <;> rfl

end ThreadContext

namespace PthreadState

def holds (s : PthreadState) (h : ThreadId × Place) : Option Word := (s.threads h.1).holds h.2

structure Sound (s : PthreadState) : Prop where
  counted : ∀ t, (s.threads t).Counted
  unborn : ∀ t, (s.threads t).phase = .absent → (s.threads t).slots = ∅
  owned : Heap.Owned s.holds s.heap
  recorded : ∀ t key p, s.pthreadGetspecific t key = some p →
    ∃ mapped, s.keyDestructorMap.lookup key = some mapped ∧ p ∈ mapped.wrappers
  live : ∀ t key p, s.pthreadGetspecific t key = some p → s.liveKeys key = true

section Holds
variable (s : PthreadState) (t : ThreadId)

/-- The holdings when those of one thread are replaced. -/
def holdsWith (f : Place → Option Word) (h : ThreadId × Place) : Option Word :=
  if h.1 = t then f h.2 else s.holds h

theorem holds_setThread (c : ThreadContext) : (s.setThread t c).holds = s.holdsWith t c.holds := by
  funext ⟨t', place⟩
  by_cases ht : t' = t
  · subst ht
    simp [holds, holdsWith, setThread]
  · simp [holds, holdsWith, setThread, ht]

theorem holdsWith_self : s.holdsWith t (s.threads t).holds = s.holds := by
  funext ⟨t', place⟩
  by_cases ht : t' = t
  · subst ht
    simp [holds, holdsWith]
  · simp [holdsWith, ht]

theorem holdsWith_update (f : Place → Option Word) (place : Place) (p : Option Word) :
    s.holdsWith t (Function.update f place p) =
      Function.update (s.holdsWith t f) (t, place) p := by
  funext ⟨t', place'⟩
  by_cases ht : t' = t
  · subst ht
    by_cases hplace : place' = place
    · subst hplace
      simp [holdsWith]
    · rw [Function.update_of_ne (by simpa using hplace)]
      simp [holdsWith, hplace]
  · rw [Function.update_of_ne (by simp [ht])]
    simp [holdsWith, ht]

end Holds

section Wrappers
variable {s : PthreadState} {p : Word} {h : ThreadId × Place}

theorem Sound.readWrapper (hs : s.Sound) (hp : s.holds h = some p) :
    ∃ w, s.heap p = some w ∧ s.readWrapper p = .ok w := by
  obtain ⟨w, hw⟩ := hs.owned.live h p hp
  exact ⟨w, hw, by simp [PthreadState.readWrapper, hw]⟩

theorem Sound.deleteWrapper (hs : s.Sound) (hp : s.holds h = some p) :
    s.deleteWrapper p = .ok (s.setHeap (Function.update s.heap p none)) := by
  obtain ⟨w, hw⟩ := hs.owned.live h p hp
  simp [PthreadState.deleteWrapper, hw]

end Wrappers

theorem Sound.initial : PthreadState.initial.Sound where
  counted _ := ThreadContext.Counted.initial
  unborn _ _ := rfl
  owned := by
    have hholds : PthreadState.initial.holds = fun _ => none := by
      funext ⟨t, place⟩
      cases place <;> rfl
    rw [hholds]
    exact .empty _
  recorded _ _ _ h := by cases h
  live _ _ _ h := by cases h

variable {s : PthreadState} {t : ThreadId} {c : ThreadContext}

/-- One thread changes. -/
theorem Sound.of_threads (hs : s.Sound) {s' : PthreadState}
    (hthreads : s'.threads = Function.update s.threads t c) (hc : c.Counted)
    (hborn : c.phase ≠ .absent) (howned : Heap.Owned s'.holds s'.heap)
    (hrecorded : ∀ t key p, s'.pthreadGetspecific t key = some p →
      ∃ mapped, s'.keyDestructorMap.lookup key = some mapped ∧ p ∈ mapped.wrappers)
    (hlive : ∀ t key p, s'.pthreadGetspecific t key = some p → s'.liveKeys key = true) :
    s'.Sound := by
  refine ⟨?_, ?_, howned, hrecorded, hlive⟩
  · intro t'
    rw [hthreads]
    by_cases ht : t' = t
    · subst ht
      rwa [Function.update_self]
    · rw [Function.update_of_ne ht]
      exact hs.counted t'
  · intro t'
    rw [hthreads]
    by_cases ht : t' = t
    · subst ht
      rw [Function.update_self]
      exact fun habsent => absurd habsent hborn
    · rw [Function.update_of_ne ht]
      exact hs.unborn t'

/-- One thread changes, installs nothing, and the heap follows. -/
theorem Sound.setThread (hs : s.Sound) (heap : Word → Option GuestRoutineWrapper)
    (hc : c.Counted) (hborn : c.phase ≠ .absent)
    (hslots : ∀ key p, c.holds (.slot key) = some p → s.pthreadGetspecific t key = some p)
    (howned : Heap.Owned (s.holdsWith t c.holds) heap) :
    ((s.setThread t c).setHeap heap).Sound := by
  have hget : ∀ t' key p, ((s.setThread t c).setHeap heap).pthreadGetspecific t' key = some p →
      s.pthreadGetspecific t' key = some p := by
    intro t' key p h
    by_cases ht : t' = t
    · subst ht
      apply hslots
      simpa [pthreadGetspecific, setHeap, PthreadState.setThread, ThreadContext.holds] using h
    · simpa [pthreadGetspecific, setHeap, PthreadState.setThread, ht] using h
  rw [← holds_setThread] at howned
  exact hs.of_threads rfl hc hborn howned (fun t' key p h => hs.recorded t' key p (hget t' key p h))
    (fun t' key p h => hs.live t' key p (hget t' key p h))

theorem Sound.record (hs : s.Sound) (r : TsdRecord) : (s.record r).Sound :=
  ⟨hs.counted, hs.unborn, hs.owned, hs.recorded, hs.live⟩

/-- A cell is written that is fresh or keeps its holder. -/
theorem Sound.newWrapper (hs : s.Sound) (p : Word) (w : GuestRoutineWrapper) :
    (s.newWrapper p w).Sound :=
  ⟨hs.counted, hs.unborn, hs.owned.write p w, hs.recorded, hs.live⟩

end PthreadState
end Sober
