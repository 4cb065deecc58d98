import Sober.Pthread.Steps

/-! # The store behind the wrappers

Read through the slots and the heap, the wrappers are a table from threads and
keys to a destructor and a value. Every event changes the table the way the
operation it models should, since no two slots share a wrapper and no slot holds
a freed one.
-/
namespace Sober
open Machine Transition PthreadState ThreadContext

/-- The table, the recorded destructors, and what has been asked so far. -/
structure TsdStore where
  contents : ThreadId × PthreadKey → Option GuestRoutineWrapper
  destructors : PthreadKey → Option Word
  log : List TsdRecord

namespace TsdStore

/-- A value keeps the destructor of the one it replaces. -/
def destructorFor (a : TsdStore) (x : ThreadId × PthreadKey) : Word :=
  ((a.contents x).map GuestRoutineWrapper.guestRoutine).getD ((a.destructors x.2).getD 0)

def written (a : TsdStore) (x : ThreadId × PthreadKey) (value : Word) :
    Option GuestRoutineWrapper :=
  if value = 0 then none else some ⟨a.destructorFor x, value⟩

end TsdStore

def PthreadEvent.Effect (a a' : TsdStore) : PthreadEvent → Prop
  | destroy t key => ∃ w, a.contents (t, key) = some w ∧
      a' = ⟨Function.update a.contents (t, key) none, a.destructors,
        .ran t key w.guestRoutine w.value :: a.log⟩
  | setSpecific t key value _ _ =>
    (∃ ret, ret ≠ 0 ∧ a' = ⟨a.contents, a.destructors, .set t key value ret :: a.log⟩) ∨
      (value ≠ 0 → a.destructors key ≠ none) ∧
      a' = ⟨Function.update a.contents (t, key) (a.written (t, key) value), a.destructors,
        .set t key value 0 :: a.log⟩
  | keyCreate _ key guestDestructor hostRet =>
    if hostRet = 0 then
      a' = ⟨a.contents, Function.update a.destructors key
        (some ((a.destructors key).getD guestDestructor)), .created key guestDestructor :: a.log⟩
    else a' = a
  | keyDelete _ key => a' = a ∨
      a' = ⟨fun x => if x.2 = key then none else a.contents x, a.destructors,
        .deleted key :: a.log⟩
  | _ => a' = a

namespace PthreadState

def contents (s : PthreadState) (x : ThreadId × PthreadKey) : Option GuestRoutineWrapper :=
  (s.pthreadGetspecific x.1 x.2).bind s.heap

def recordedDestructor (s : PthreadState) (key : PthreadKey) : Option Word :=
  (s.keyDestructorMap.lookup key).map MapValue.guestDestructor

def store (s : PthreadState) : TsdStore := ⟨s.contents, s.recordedDestructor, s.log⟩

end PthreadState

variable {s s' : PthreadState} {t : ThreadId} {key : PthreadKey}

theorem contents_of_get {p : Word} (hget : s.pthreadGetspecific t key = some p) :
    s.contents (t, key) = s.heap p := by
  simp [contents, hget]

theorem contents_of_none (hget : s.pthreadGetspecific t key = none) :
    s.contents (t, key) = none := by
  simp [contents, hget]

/-- A slot that is left alone, with its wrapper, keeps its contents. -/
theorem contents_congr {x : ThreadId × PthreadKey}
    (hget : s'.pthreadGetspecific x.1 x.2 = s.pthreadGetspecific x.1 x.2)
    (hheap : ∀ p, s.pthreadGetspecific x.1 x.2 = some p → s'.heap p = s.heap p) :
    s'.contents x = s.contents x := by
  unfold contents
  rw [hget]
  cases h : s.pthreadGetspecific x.1 x.2 with
  | none => rfl
  | some p => exact hheap p h

section Slots
variable {c : ThreadContext} {heap : Word → Option GuestRoutineWrapper}

theorem pthreadGetspecific_setThread_self (s : PthreadState) (t : ThreadId) (c : ThreadContext)
    (key : PthreadKey) : (s.setThread t c).pthreadGetspecific t key = c.slots.lookup key := by
  simp [pthreadGetspecific, PthreadState.setThread]

theorem pthreadGetspecific_setThread_of_ne (s : PthreadState) {t t' : ThreadId} (ht : t' ≠ t)
    (c : ThreadContext) (key : PthreadKey) :
    (s.setThread t c).pthreadGetspecific t' key = s.pthreadGetspecific t' key := by
  simp [pthreadGetspecific, PthreadState.setThread, ht]

/-- A thread changes, but not its slots, and no installed wrapper is touched. -/
theorem contents_setThread (hslots : ∀ key, c.slots.lookup key = s.pthreadGetspecific t key)
    (hheap : ∀ t' key p, s.pthreadGetspecific t' key = some p → heap p = s.heap p) :
    ((s.setThread t c).setHeap heap).contents = s.contents := by
  funext ⟨t', key⟩
  apply contents_congr
  · by_cases ht : t' = t
    · subst ht
      exact (pthreadGetspecific_setThread_self s t' c key).trans (hslots key)
    · exact pthreadGetspecific_setThread_of_ne s ht c key
  · exact hheap t' key

/-- One slot changes, and no other installed wrapper is touched. -/
theorem contents_slot {p : Option Word} (hslot : c.slots.lookup key = p)
    (hslots : ∀ key', key' ≠ key → c.slots.lookup key' = s.pthreadGetspecific t key')
    (hheap : ∀ t' key' q, (t', key') ≠ (t, key) → s.pthreadGetspecific t' key' = some q →
      heap q = s.heap q) :
    ((s.setThread t c).setHeap heap).contents =
      Function.update s.contents (t, key) (p.bind heap) := by
  funext ⟨t', key'⟩
  by_cases hx : (t', key') = (t, key)
  · rw [hx, Function.update_self, ← hslot, ← pthreadGetspecific_setThread_self s t c key]
    rfl
  · rw [Function.update_of_ne hx]
    apply contents_congr
    · by_cases ht : t' = t
      · subst ht
        have hkey : key' ≠ key := fun h => hx (by rw [h])
        exact (pthreadGetspecific_setThread_self s t' c key').trans (hslots key' hkey)
      · exact pthreadGetspecific_setThread_of_ne s ht c key'
    · exact fun q => hheap t' key' q hx

end Slots

/-- Slots never share a wrapper, and hold none that a host function was given. -/
theorem PthreadState.Sound.frame_ne (hs : s.Sound) {wrapper p : Word} {t' : ThreadId}
    (hframe : s.holds (t, .frame) = some wrapper)
    (hget : s.pthreadGetspecific t' key = some p) : p ≠ wrapper := by
  rintro rfl
  have hplace := hs.owned.unique (t', .slot key) (t, .frame) p hget hframe
  cases congrArg Prod.snd hplace

theorem PthreadState.Sound.slot_ne (hs : s.Sound) {p p' : Word} {t' : ThreadId}
    {key' : PthreadKey} (hget : s.pthreadGetspecific t key = some p)
    (hget' : s.pthreadGetspecific t' key' = some p') (hx : (t', key') ≠ (t, key)) : p' ≠ p := by
  rintro rfl
  have hplace := hs.owned.unique (t', .slot key') (t, .slot key) p' hget' hget
  simp only [Prod.mk.injEq, Place.slot.injEq] at hplace
  exact hx (Prod.ext hplace.1 hplace.2)

theorem PthreadState.Sound.fresh_ne (hs : s.Sound) {fresh p : Word} (hfresh : s.heap fresh = none)
    (hget : s.pthreadGetspecific t key = some p) : p ≠ fresh := by
  rintro rfl
  exact hs.owned.not_fresh hfresh (holds_slot s t key ▸ hget)

theorem contents_newWrapper (hs : s.Sound) {fresh : Word} (hfresh : s.heap fresh = none)
    (w : GuestRoutineWrapper) : (s.newWrapper fresh w).contents = s.contents := by
  funext ⟨t, key⟩
  apply contents_congr
  · rfl
  · exact fun p hget => Function.update_of_ne (hs.fresh_ne hfresh hget) _ _

theorem contents_create (hs : s.Sound) (hphase : (s.threads t).phase = .absent) {fresh : Word}
    (hfresh : s.heap fresh = none) (w : GuestRoutineWrapper) :
    ((s.newWrapper fresh w).setThread t
      (ThreadContext.initial.setPhase (.created fresh))).contents = s.contents := by
  change ((s.setThread t _).setHeap (Function.update s.heap fresh (some w))).contents = _
  apply contents_setThread
  · intro key
    simp [pthreadGetspecific, hs.unborn t hphase, setPhase, ThreadContext.initial]
  · intro t' key p hget
    exact Function.update_of_ne (hs.fresh_ne hfresh hget) _ _

theorem contents_setThread_of_slots {c : ThreadContext} (hslots : c.slots = (s.threads t).slots) :
    (s.setThread t c).contents = s.contents := by
  change ((s.setThread t c).setHeap s.heap).contents = _
  apply contents_setThread
  · exact fun key => congrArg (Finmap.lookup key) hslots
  · exact fun _ _ _ _ => rfl

theorem slots_release (c : ThreadContext) : c.release.slots = c.slots := by
  unfold ThreadContext.release
  split <;> rfl

theorem contents_leaveFrame (hs : s.Sound) {wrapper : Word}
    (hframe : s.holds (t, .frame) = some wrapper) :
    (leaveFrame t wrapper s).contents = s.contents := by
  apply contents_setThread
  · intro key
    exact congrArg (Finmap.lookup key) (slots_release _)
  · intro t' key p hget
    exact Function.update_of_ne (hs.frame_ne hframe hget) _ _

theorem contents_destroy (s : PthreadState) (t : ThreadId) (key : PthreadKey) (p : Word) :
    (s.setThread t (((s.threads t).clearSlot key).setPhase (.destroying p))).contents =
      Function.update s.contents (t, key) none := by
  change ((s.setThread t _).setHeap s.heap).contents = _
  apply contents_slot (p := none)
  · exact Finmap.lookup_erase _ _
  · exact fun key' hkey => Finmap.lookup_erase_ne hkey
  · exact fun _ _ _ _ _ => rfl

/-- Freeing the wrapper of the slot that is emptied. -/
theorem contents_clearSlot (hs : s.Sound) {p : Word} (hget : s.pthreadGetspecific t key = some p) :
    ((s.setThread t ((s.threads t).subRef.clearSlot key)).setHeap
      (Function.update s.heap p none)).contents = Function.update s.contents (t, key) none := by
  apply contents_slot (p := none)
  · exact Finmap.lookup_erase _ _
  · exact fun key' hkey => Finmap.lookup_erase_ne hkey
  · exact fun t' key' q hx hq => Function.update_of_ne (hs.slot_ne hget hq hx) _ _

theorem contents_install (hs : s.Sound) {fresh : Word} (hfresh : s.heap fresh = none)
    (w : GuestRoutineWrapper) :
    ((s.setThread t ((s.threads t).addRef.setSlot key fresh)).setHeap
      (Function.update s.heap fresh (some w))).contents =
        Function.update s.contents (t, key) (some w) := by
  rw [contents_slot (Finmap.lookup_insert _)
    (fun key' hkey => Finmap.lookup_insert_of_ne _ hkey)
    (fun t' key' q _ hq => Function.update_of_ne (hs.fresh_ne hfresh hq) _ _)]
  simp

theorem contents_replace (hs : s.Sound) {p : Word} (hget : s.pthreadGetspecific t key = some p)
    (w : GuestRoutineWrapper) :
    (s.newWrapper p w).contents = Function.update s.contents (t, key) (some w) := by
  have hthread : s.newWrapper p w =
      (s.setThread t (s.threads t)).setHeap (Function.update s.heap p (some w)) := by
    simp [newWrapper, setHeap, PthreadState.setThread]
  rw [hthread, contents_slot hget (fun key' _ => rfl)
    (fun t' key' q hx hq => Function.update_of_ne (hs.slot_ne hget hq hx) _ _)]
  simp

theorem recordedDestructor_setMapped {mapped : MapValue}
    (hmapped : s.keyDestructorMap.lookup key = some mapped) (wrappers : List Word) :
    (s.setMapped key { mapped with wrappers }).recordedDestructor = s.recordedDestructor := by
  funext key'
  unfold recordedDestructor setMapped
  by_cases hkey : key' = key
  · rw [hkey, Finmap.lookup_insert, hmapped]
    rfl
  · rw [Finmap.lookup_insert_of_ne _ hkey]

/-- The table after a key is deleted cleanly. -/
theorem ListsOwn.contents_releaseOwn (hown : ListsOwn s t key) (hs : s.Sound) :
    (releaseOwn t key s).contents = fun x => if x.2 = key then none else s.contents x := by
  have hunused := hown.releaseOwn_unused hs
  funext ⟨t', key'⟩
  by_cases hkey : key' = key
  · rw [if_pos hkey, hkey]
    exact contents_of_none (hunused t')
  · rw [if_neg hkey]
    unfold releaseOwn
    cases hget : s.pthreadGetspecific t key with
    | none => rfl
    | some p =>
      change PthreadState.contents ((s.setThread t _).setHeap _) _ = _
      rw [contents_clearSlot hs hget, Function.update_of_ne (by simp [hkey])]

end Sober
