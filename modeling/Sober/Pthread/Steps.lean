import Sober.Pthread.Invariant

/-! # What each event does

From a sound state every event that the host can deliver succeeds. Each lemma
gives the state it leads to, and that this state is sound again.
-/
namespace Sober
open Machine Transition PthreadState ThreadContext

variable {s : PthreadState} {t : ThreadId} {key : PthreadKey} {wrapper : Word}

section Lifecycle

theorem holds_slot (s : PthreadState) (t : ThreadId) (key : PthreadKey) :
    s.holds (t, .slot key) = s.pthreadGetspecific t key := rfl

theorem pthreadCreateImpl_ok (hphase : (s.threads t).phase = .absent)
    (guestRoutine arg fresh : Word) (hostRet : BitVec 32) :
    pthreadCreateImpl t guestRoutine arg fresh hostRet s = .ok (if hostRet = 0 then
      (0, (s.newWrapper fresh ⟨guestRoutine, arg⟩).setThread t
        (ThreadContext.initial.setPhase (.created fresh)))
      else (hostRet, s.newWrapper fresh ⟨guestRoutine, arg⟩)) := by
  simp only [pthreadCreateImpl, hphase]
  split_ifs <;> rfl

theorem initial_holds (hs : s.Sound) (hphase : (s.threads t).phase = .absent) :
    ThreadContext.initial.holds = (s.threads t).holds := by
  funext place
  cases place with
  | slot key => simp [ThreadContext.holds, hs.unborn t hphase, ThreadContext.initial]
  | frame => simp [ThreadContext.holds, hphase, ThreadContext.initial]

theorem sound_create (hs : s.Sound) (hphase : (s.threads t).phase = .absent) {fresh : Word}
    (hfresh : s.heap fresh = none) (w : GuestRoutineWrapper) :
    ((s.newWrapper fresh w).setThread t
      (ThreadContext.initial.setPhase (.created fresh))).Sound := by
  have hcounted : (ThreadContext.initial.setPhase (.created fresh)).Counted :=
    Counted.initial.congr rfl rfl rfl rfl rfl
  have hholds := initial_holds hs hphase
  apply hs.setThread _ hcounted (by rintro ⟨⟩)
  · intro key p hp
    rw [holds_setPhase, Function.update_of_ne (by simp), hholds] at hp
    exact hp
  · rw [holds_setPhase, hholds, holdsWith_update, holdsWith_self]
    exact hs.owned.give hfresh _ _

theorem threadRoutineEnter_ok (hs : s.Sound)
    (hphase : (s.threads t).phase = .created wrapper) :
    threadRoutineEnter t s = .ok (s.setThread t
      ((s.threads t).setInitialized.setPhase (.running wrapper))) := by
  have hinit : (s.threads t).initialized = false := by
    rw [← Bool.not_eq_true, (hs.counted t).initialized_iff, hphase]
    simp [ThreadPhase.started]
  have hheld : s.holds (t, .frame) = some wrapper := congrArg ThreadPhase.wrapper? hphase
  obtain ⟨w, -, hread⟩ := hs.readWrapper hheld
  simp only [threadRoutineEnter, hphase, executionContextInit, hinit, hread,
    scopedExecutionFiber]
  rfl

theorem sound_enter (hs : s.Sound) (hphase : (s.threads t).phase = .created wrapper) :
    (s.setThread t
      ((s.threads t).setInitialized.setPhase (.running wrapper))).Sound := by
  have hcounted := hs.counted t
  have hcount : (s.threads t).count = 1 + (s.threads t).slots.keys.card := by
    simp [count, installed, hphase, ThreadPhase.routineRef, ThreadPhase.finished,
      ThreadPhase.callbackWrappers]
  have hcount' : ((s.threads t).setInitialized.setPhase (.running wrapper)).count =
      (s.threads t).count := by
    simp [count, installed, setPhase, setInitialized, hphase, ThreadPhase.routineRef,
      ThreadPhase.finished, ThreadPhase.callbackWrappers]
  have hframe : some wrapper = (s.threads t).holds .frame := by
    simp [ThreadContext.holds, hphase, ThreadPhase.wrapper?]
  refine hs.setThread s.heap ⟨?_, ?_, ?_⟩ (by rintro ⟨⟩) ?_ ?_
  · rw [hcount']
    exact hcounted.refs
  · change true = true ↔ true = true ∧ _
    simp [hcount', hcount]
  · rw [hcount']
    exact hcounted.frees_eq
  · exact fun key p hp => hp
  · rw [holds_setPhase, holds_setInitialized, Function.update_eq_self_iff.mpr hframe,
      holdsWith_self]
    exact hs.owned

/-- The routine and a callback end alike: the thread gives up a reference and its wrapper. -/
def leaveFrame (t : ThreadId) (wrapper : Word) (s : PthreadState) : PthreadState :=
  (s.setThread t ((s.threads t).release.setPhase .exiting)).setHeap
    (Function.update s.heap wrapper none)

theorem sound_leaveFrame (hs : s.Sound) (hstarted : (s.threads t).phase.started = true)
    (hframe : s.holds (t, .frame) = some wrapper)
    (hcount : ((s.threads t).setPhase .exiting).count + 1 = (s.threads t).count) :
    (leaveFrame t wrapper s).Sound := by
  apply hs.setThread _ ((hs.counted t).release hstarted hcount) (by rintro ⟨⟩)
  · intro key p hp
    rw [holds_setPhase, holds_release, Function.update_of_ne (by simp)] at hp
    exact hp
  · rw [holds_setPhase, holds_release, holdsWith_update, holdsWith_self]
    exact hs.owned.free hframe

theorem scopedExecutionFiber_ok (hs : s.Sound) (hstarted : (s.threads t).phase.started = true)
    (hcount : (s.threads t).count ≠ 0) : (s.threads t).scopedExecutionFiber = .ok () := by
  simp [scopedExecutionFiber, (hs.counted t).initialized hstarted hcount]

theorem threadRoutineLeave_ok (hs : s.Sound)
    (hphase : (s.threads t).phase = .running wrapper) :
    threadRoutineLeave t s = .ok (leaveFrame t wrapper s) ∧ (leaveFrame t wrapper s).Sound := by
  have hstarted : (s.threads t).phase.started = true := congrArg ThreadPhase.started hphase
  have hframe : s.holds (t, .frame) = some wrapper := congrArg ThreadPhase.wrapper? hphase
  have hcount : ((s.threads t).setPhase .exiting).count + 1 = (s.threads t).count := by
    simp [count, installed, setPhase, hphase, ThreadPhase.routineRef, ThreadPhase.finished,
      ThreadPhase.callbackWrappers, Nat.add_comm]
  obtain ⟨w, hw⟩ := hs.owned.live _ _ hframe
  constructor
  · simp only [threadRoutineLeave, hphase, scopedExecutionFiber_ok hs hstarted (by omega)]
    change (s.setThread t _).deleteWrapper wrapper = _
    simp only [PthreadState.deleteWrapper, PthreadState.setThread, hw]
    rfl
  · exact sound_leaveFrame hs hstarted hframe hcount

theorem destructorLeave_ok (hs : s.Sound)
    (hphase : (s.threads t).phase = .destroying wrapper) :
    destructorLeave t s = .ok (leaveFrame t wrapper s) ∧ (leaveFrame t wrapper s).Sound := by
  have hstarted : (s.threads t).phase.started = true := congrArg ThreadPhase.started hphase
  have hframe : s.holds (t, .frame) = some wrapper := congrArg ThreadPhase.wrapper? hphase
  have hcount : ((s.threads t).setPhase .exiting).count + 1 = (s.threads t).count := by
    simp [count, installed, setPhase, hphase, ThreadPhase.routineRef, ThreadPhase.finished,
      ThreadPhase.callbackWrappers]
  constructor
  · simp only [destructorLeave, hphase, scopedExecutionFiber_ok hs hstarted (by omega),
      hs.deleteWrapper hframe]
    rfl
  · exact sound_leaveFrame hs hstarted hframe hcount

theorem destructorEnter_ok (hs : s.Sound) (hphase : (s.threads t).phase = .exiting) {p : Word}
    (hget : s.pthreadGetspecific t key = some p) :
    ∃ w, s.heap p = some w ∧ destructorEnter t key s = .ok ((s.setThread t
      (((s.threads t).clearSlot key).setPhase (.destroying p))).record
        (.ran t key w.guestRoutine w.value)) := by
  have hcard := card_keys_erase hget
  have hcount : (s.threads t).count ≠ 0 := by
    unfold count installed
    omega
  have hstarted : (s.threads t).phase.started = true := congrArg ThreadPhase.started hphase
  obtain ⟨w, hw, hread⟩ := hs.readWrapper (holds_slot s t key ▸ hget)
  refine ⟨w, hw, ?_⟩
  simp only [destructorEnter, hphase, hget, scopedExecutionFiber_ok hs hstarted hcount, hread]
  rfl

theorem sound_destroy (hs : s.Sound) (hphase : (s.threads t).phase = .exiting) {p : Word}
    (hget : s.pthreadGetspecific t key = some p) :
    (s.setThread t (((s.threads t).clearSlot key).setPhase (.destroying p))).Sound := by
  have hcard := card_keys_erase hget
  have hcount : (((s.threads t).clearSlot key).setPhase (.destroying p)).count =
      (s.threads t).count := by
    simp only [count, installed, setPhase, clearSlot, hphase, ThreadPhase.routineRef,
      ThreadPhase.finished, ThreadPhase.callbackWrappers]
    omega
  have hcounted : (((s.threads t).clearSlot key).setPhase (.destroying p)).Counted := by
    apply (hs.counted t).congr hcount _ rfl rfl rfl
    rw [hphase]
    rfl
  apply hs.setThread s.heap hcounted (by rintro ⟨⟩)
  · intro key' p' hp'
    rw [holds_setPhase, Function.update_of_ne (by simp)] at hp'
    exact slot_of_clearSlot hp'
  · rw [holds_setPhase, holds_clearSlot, holdsWith_update, holdsWith_update, holdsWith_self]
    exact hs.owned.pass (holds_slot s t key ▸ hget) (by simp)

theorem sound_exit (hs : s.Sound) (hphase : (s.threads t).phase = .exiting) :
    (s.setThread t ((s.threads t).setPhase .gone)).Sound := by
  have hcounted : ((s.threads t).setPhase .gone).Counted := by
    have hcount : ((s.threads t).setPhase .gone).count = (s.threads t).count := by
      simp [count, installed, setPhase, hphase, ThreadPhase.routineRef, ThreadPhase.finished,
        ThreadPhase.callbackWrappers]
    apply (hs.counted t).congr hcount _ rfl rfl rfl
    rw [hphase]
    rfl
  have hframe : none = (s.threads t).holds .frame := by
    simp [ThreadContext.holds, hphase, ThreadPhase.wrapper?]
  apply hs.setThread s.heap hcounted (by rintro ⟨⟩) (fun _ _ hp => hp)
  rw [holds_setPhase]
  change Heap.Owned (s.holdsWith t (Function.update _ _ none)) s.heap
  rw [Function.update_eq_self_iff.mpr hframe, holdsWith_self]
  exact hs.owned

end Lifecycle

section Store

theorem clearSpecific_ok (hs : s.Sound) {p : Word} (hget : s.pthreadGetspecific t key = some p)
    {mapped : MapValue} (hmapped : s.keyDestructorMap.lookup key = some mapped) :
    clearSpecific t key p s = .ok (((s.setHeap (Function.update s.heap p none)).setMapped key
      { mapped with wrappers := mapped.wrappers.filter (· ≠ p) }).setThread t
        ((s.threads t).subRef.clearSlot key)) := by
  simp only [clearSpecific, hmapped, hs.deleteWrapper (holds_slot s t key ▸ hget)]
  rfl

theorem sound_clear (hs : s.Sound) (hguest : (s.threads t).InGuest) {p : Word}
    (hget : s.pthreadGetspecific t key = some p) {mapped : MapValue}
    (hmapped : s.keyDestructorMap.lookup key = some mapped) :
    (((s.setHeap (Function.update s.heap p none)).setMapped key
      { mapped with wrappers := mapped.wrappers.filter (· ≠ p) }).setThread t
        ((s.threads t).subRef.clearSlot key)).Sound := by
  have hheld : s.holds (t, .slot key) = some p := hget
  have hholds : s.holdsWith t ((s.threads t).subRef.clearSlot key).holds =
      Function.update s.holds (t, .slot key) none := by
    rw [holds_clearSlot, holds_subRef, holdsWith_update, holdsWith_self]
  have hkept : ∀ t' key' p', s.holdsWith t ((s.threads t).subRef.clearSlot key).holds
      (t', .slot key') = some p' → s.pthreadGetspecific t' key' = some p' ∧ p' ≠ p := by
    intro t' key' p' hp'
    rw [hholds] at hp'
    by_cases hplace : (t', Place.slot key') = (t, Place.slot key)
    · rw [hplace, Function.update_self] at hp'
      cases hp'
    · rw [Function.update_of_ne hplace] at hp'
      exact ⟨hp', fun he => hplace (hs.owned.unique _ _ p (he ▸ hp') hheld)⟩
  have howned := hs.owned.free hheld
  rw [← hholds] at howned
  apply hs.of_threads rfl ((hs.counted t).clear hguest hget) hguest.phase_ne_absent
  · rw [holds_setThread]
    exact howned
  · intro t' key' p' hp'
    rw [← holds_slot, holds_setThread] at hp'
    obtain ⟨hget', hne⟩ := hkept t' key' p' hp'
    obtain ⟨mapped', hmapped', hmem⟩ := hs.recorded t' key' p' hget'
    by_cases hkey : key' = key
    · subst hkey
      rw [hmapped, Option.some.injEq] at hmapped'
      subst hmapped'
      exact ⟨_, Finmap.lookup_insert _, List.mem_filter.mpr ⟨hmem, by simpa using hne⟩⟩
    · exact ⟨mapped', (Finmap.lookup_insert_of_ne _ hkey).trans hmapped', hmem⟩
  · intro t' key' p' hp'
    rw [← holds_slot, holds_setThread] at hp'
    exact hs.live t' key' p' (hkept t' key' p' hp').1

theorem installSpecific_ok {mapped : MapValue} (value : Word) {fresh : Word}
    (hfresh : s.heap fresh = none) (hostRet : BitVec 32)
    (hmapped : s.keyDestructorMap.lookup key = some mapped) :
    installSpecific t key value fresh hostRet s = .ok (if hostRet ≠ 0 then (hostRet, s) else
      (0, ((s.newWrapper fresh ⟨mapped.guestDestructor, value⟩).setMapped key
        { mapped with wrappers := mapped.wrappers ++ [fresh] }).setThread t
          ((s.threads t).addRef.setSlot key fresh))) := by
  by_cases hret : hostRet = 0
  · simp only [installSpecific, hmapped, hret, ne_eq, not_true_eq_false, if_false]
    rfl
  · have hback : Function.update (Function.update s.heap fresh
        (some ⟨mapped.guestDestructor, value⟩)) fresh none = s.heap := by
      rw [Function.update_idem, Function.update_eq_self_iff.mpr hfresh.symm]
    simp only [installSpecific, hmapped, ne_eq, hret, not_false_eq_true, if_true,
      PthreadState.deleteWrapper, PthreadState.newWrapper, setHeap, Function.update_self]
    change Except.ok (hostRet, _) = Except.ok (hostRet, _)
    simp only [hback]

theorem sound_install (hs : s.Sound) (hguest : (s.threads t).InGuest)
    (hget : s.pthreadGetspecific t key = none) (hlive : s.liveKeys key = true) {mapped : MapValue}
    (hmapped : s.keyDestructorMap.lookup key = some mapped) {fresh : Word}
    (hfresh : s.heap fresh = none) (w : GuestRoutineWrapper) :
    (((s.newWrapper fresh w).setMapped key
      { mapped with wrappers := mapped.wrappers ++ [fresh] }).setThread t
        ((s.threads t).addRef.setSlot key fresh)).Sound := by
  have hholds : s.holdsWith t ((s.threads t).addRef.setSlot key fresh).holds =
      Function.update s.holds (t, .slot key) (some fresh) := by
    rw [holds_setSlot, holds_addRef, holdsWith_update, holdsWith_self]
  have hcases : ∀ t' key' p', s.holdsWith t ((s.threads t).addRef.setSlot key fresh).holds
      (t', .slot key') = some p' →
        key' = key ∧ p' = fresh ∨ s.pthreadGetspecific t' key' = some p' := by
    intro t' key' p' hp'
    rw [hholds] at hp'
    by_cases hplace : (t', Place.slot key') = (t, Place.slot key)
    · rw [hplace, Function.update_self, Option.some.injEq] at hp'
      simp only [Prod.mk.injEq, Place.slot.injEq] at hplace
      exact .inl ⟨hplace.2, hp'.symm⟩
    · rw [Function.update_of_ne hplace] at hp'
      exact .inr hp'
  have howned := hs.owned.give hfresh (t, Place.slot key) w
  rw [← hholds] at howned
  apply hs.of_threads rfl ((hs.counted t).install hguest hget fresh) hguest.phase_ne_absent
  · rw [holds_setThread]
    exact howned
  · intro t' key' p' hp'
    rw [← holds_slot, holds_setThread] at hp'
    by_cases hkey : key' = key
    · subst hkey
      refine ⟨_, Finmap.lookup_insert _, ?_⟩
      rcases hcases t' key' p' hp' with ⟨-, rfl⟩ | hget'
      · simp
      · obtain ⟨mapped', hmapped', hmem⟩ := hs.recorded t' key' p' hget'
        rw [hmapped, Option.some.injEq] at hmapped'
        exact List.mem_append_left _ (hmapped' ▸ hmem)
    · rcases hcases t' key' p' hp' with ⟨hkey', -⟩ | hget'
      · exact absurd hkey' hkey
      · obtain ⟨mapped', hmapped', hmem⟩ := hs.recorded t' key' p' hget'
        exact ⟨mapped', (Finmap.lookup_insert_of_ne _ hkey).trans hmapped', hmem⟩
  · intro t' key' p' hp'
    rw [← holds_slot, holds_setThread] at hp'
    rcases hcases t' key' p' hp' with ⟨rfl, -⟩ | hget'
    · exact hlive
    · exact hs.live t' key' p' hget'

theorem sound_keyCreate (hs : s.Sound) (key : PthreadKey) (guestDestructor : Word)
    (hostRet : BitVec 32) : (pthreadKeyCreateImpl key guestDestructor hostRet s).2.Sound := by
  by_cases hret : hostRet = 0
  · rw [pthreadKeyCreateImpl, if_neg (not_not.mpr hret)]
    refine ⟨hs.counted, hs.unborn, hs.owned, ?_, ?_⟩
    · intro t' key' p' hp'
      obtain ⟨mapped, hmapped, hmem'⟩ := hs.recorded t' key' p' hp'
      refine ⟨mapped, ?_, hmem'⟩
      dsimp only
      by_cases hmem : key ∈ s.keyDestructorMap
      · rwa [if_pos hmem]
      · have hkey : key' ≠ key := by
          rintro rfl
          exact hmem (Finmap.mem_of_lookup_eq_some hmapped)
        rwa [if_neg hmem, Finmap.lookup_insert_of_ne _ hkey]
    · intro t' key' p' hp'
      by_cases hkey : key' = key
      · exact hkey ▸ Function.update_self _ _ _
      · exact (Function.update_of_ne hkey _ _).trans (hs.live t' key' p' hp')
  · rw [pthreadKeyCreateImpl, if_pos hret]
    exact hs

end Store

section Deletion

/-- The record of the key lists the thread's own wrapper, if it has one, and nothing else. -/
def ListsOwn (s : PthreadState) (t : ThreadId) (key : PthreadKey) : Prop :=
  ∀ mapped, s.keyDestructorMap.lookup key = some mapped →
    mapped.wrappers = (s.pthreadGetspecific t key).toList

def releaseOwn (t : ThreadId) (key : PthreadKey) (s : PthreadState) : PthreadState :=
  match s.pthreadGetspecific t key with
  | none => s
  | some p => (s.setThread t ((s.threads t).subRef.clearSlot key)).setHeap
      (Function.update s.heap p none)

/-- The host forgets a key under which nothing is stored. -/
def dropKey (key : PthreadKey) (s : PthreadState) : PthreadState :=
  { s with liveKeys := Function.update s.liveKeys key false, log := .deleted key :: s.log }

theorem clearSlot_of_none {c : ThreadContext} (hkey : c.slots.lookup key = none) :
    c.clearSlot key = c := by
  have hslots : c.slots.erase key = c.slots := by
    apply Finmap.ext_lookup
    intro key'
    by_cases h : key' = key
    · rw [h, Finmap.lookup_erase, hkey]
    · exact Finmap.lookup_erase_ne h
  unfold clearSlot
  rw [hslots]

/-- No other thread has a wrapper under a key whose record lists only this thread's. -/
theorem ListsOwn.other (hown : ListsOwn s t key) (hs : s.Sound) {t' : ThreadId} (ht : t' ≠ t) :
    s.pthreadGetspecific t' key = none := by
  cases hget' : s.pthreadGetspecific t' key with
  | none => rfl
  | some p' =>
    obtain ⟨mapped, hmapped, hmem⟩ := hs.recorded t' key p' hget'
    rw [hown mapped hmapped, Option.mem_toList] at hmem
    have hplace := hs.owned.unique (t', .slot key) (t, .slot key) p' hget' hmem
    exact absurd (congrArg Prod.fst hplace) ht

theorem ListsOwn.releaseOwn_unused (hown : ListsOwn s t key) (hs : s.Sound) (t' : ThreadId) :
    (releaseOwn t key s).pthreadGetspecific t' key = none := by
  unfold releaseOwn
  cases hget : s.pthreadGetspecific t key with
  | none =>
    by_cases ht : t' = t
    · exact ht ▸ hget
    · exact hown.other hs ht
  | some p =>
    by_cases ht : t' = t
    · subst ht
      simp [pthreadGetspecific, setHeap, PthreadState.setThread, clearSlot]
    · have hother := hown.other hs ht
      simpa [pthreadGetspecific, setHeap, PthreadState.setThread, ht] using hother

theorem sound_releaseOwn (hs : s.Sound) (hguest : (s.threads t).InGuest) :
    (releaseOwn t key s).Sound := by
  unfold releaseOwn
  cases hget : s.pthreadGetspecific t key with
  | none => exact hs
  | some p =>
    have hheld : s.holds (t, .slot key) = some p := hget
    apply hs.setThread _ ((hs.counted t).clear hguest hget) hguest.phase_ne_absent
    · exact fun key' p' hp' => slot_of_clearSlot hp'
    · rw [holds_clearSlot, holds_subRef, holdsWith_update, holdsWith_self]
      exact hs.owned.free hheld

theorem sound_dropKey (hs : s.Sound) (hunused : ∀ t, s.pthreadGetspecific t key = none) :
    (dropKey key s).Sound := by
  refine ⟨hs.counted, hs.unborn, hs.owned, hs.recorded, ?_⟩
  intro t' key' p' hp'
  have hkey : key' ≠ key := by
    rintro rfl
    exact nomatch (hunused t').symm.trans hp'
  exact (Function.update_of_ne hkey _ _).trans (hs.live t' key' p' hp')

/-- Deleting a key whose record lists only the deleting thread's wrapper. -/
theorem ListsOwn.pthreadKeyDeleteImpl_ok (hown : ListsOwn s t key) (hs : s.Sound)
    (hmem : key ∈ s.keyDestructorMap) :
    pthreadKeyDeleteImpl t key s = .ok (if s.liveKeys key then
      (0, dropKey key (releaseOwn t key s)) else (einval, s)) := by
  obtain ⟨mapped, hmapped⟩ := Finmap.mem_iff.mp hmem
  have hunused := hown.releaseOwn_unused hs
  simp only [pthreadKeyDeleteImpl, hmapped, hown mapped hmapped]
  cases hget : s.pthreadGetspecific t key with
  | none =>
    simp only [releaseOwn, hget] at hunused ⊢
    have hthreads : (fun t' => (s.threads t').clearSlot key) = s.threads :=
      funext fun t' => clearSlot_of_none (hunused t')
    change Except.ok (s.pthreadKeyDelete key) = _
    simp only [PthreadState.pthreadKeyDelete, hthreads, dropKey]
  | some p =>
    have hlive := hs.live t key p hget
    simp only [releaseOwn, hget] at hunused ⊢
    simp only [Option.toList, deleteWrappers, hs.deleteWrapper (holds_slot s t key ▸ hget)]
    change Except.ok (PthreadState.pthreadKeyDelete _ key) = _
    have hthreads :
        (fun t' => (Function.update s.threads t (s.threads t).subRef t').clearSlot key) =
        Function.update s.threads t ((s.threads t).subRef.clearSlot key) := by
      funext t'
      by_cases ht : t' = t
      · subst ht
        rw [Function.update_self, Function.update_self]
      · rw [Function.update_of_ne ht, Function.update_of_ne ht]
        exact clearSlot_of_none (hown.other hs ht)
    rw [if_pos hlive, PthreadState.pthreadKeyDelete, if_pos]
    · simp only [PthreadState.setThread, setHeap, dropKey, hthreads]
    · exact hlive

end Deletion
end Sober
