import Sober.Pthread.Contents

/-! # Every event acts on the store as it should

From a sound state, every event that the host can deliver succeeds, leads to a
sound state, and changes the table of contents as its effect says. Deletions are
covered when the record of the key lists only the deleting thread's wrapper.
-/
namespace Sober
open Machine Transition PthreadState ThreadContext

variable {s s' : PthreadState} {t : ThreadId} {key : PthreadKey}

/-- What a set leaves behind: either it is refused and nothing has changed, or the
table holds the value. -/
structure SetOutcome (s : PthreadState) (t : ThreadId) (key : PthreadKey) (value : Word)
    (r : BitVec 32 × PthreadState) : Prop where
  sound : r.2.Sound
  log : r.2.log = s.log
  destructors : r.2.recordedDestructor = s.recordedDestructor
  cases : r.1 ≠ 0 ∧ r.2 = s ∨ r.1 = 0 ∧ (value ≠ 0 → s.recordedDestructor key ≠ none) ∧
    r.2.contents = Function.update s.contents (t, key) (s.store.written (t, key) value)

theorem clear_outcome (hs : s.Sound) (hguest : (s.threads t).InGuest) {p : Word}
    (hget : s.pthreadGetspecific t key = some p) :
    ∃ s', clearSpecific t key p s = .ok s' ∧ SetOutcome s t key 0 (0, s') := by
  obtain ⟨mapped, hmapped, -⟩ := hs.recorded t key p hget
  refine ⟨_, clearSpecific_ok hs hget hmapped, sound_clear hs hguest hget hmapped, rfl, ?_, ?_⟩
  · exact recordedDestructor_setMapped hmapped _
  · exact .inr ⟨rfl, fun h => absurd rfl h, contents_clearSlot hs hget⟩

theorem install_outcome (hs : s.Sound) (hguest : (s.threads t).InGuest)
    (hget : s.pthreadGetspecific t key = none) {value fresh : Word} (hvalue : value ≠ 0)
    (hfresh : s.heap fresh = none) {hostRet : BitVec 32}
    (hhost : s.liveKeys key = false → hostRet ≠ 0) :
    ∃ r, installSpecific t key value fresh hostRet s = .ok r ∧ SetOutcome s t key value r := by
  cases hmapped : s.keyDestructorMap.lookup key with
  | none =>
    refine ⟨(einval, s), ?_, hs, rfl, rfl, .inl ⟨show einval ≠ 0 by decide, rfl⟩⟩
    simp [installSpecific, hmapped]
  | some mapped =>
    refine ⟨_, installSpecific_ok value hfresh hostRet hmapped, ?_⟩
    by_cases hret : hostRet = 0
    · have hlive : s.liveKeys key = true := by
        by_contra hdead
        exact hhost (Bool.eq_false_iff.mpr hdead) hret
      have hrecorded : s.recordedDestructor key = some mapped.guestDestructor := by
        simp [recordedDestructor, hmapped]
      have hwritten : s.store.written (t, key) value = some ⟨mapped.guestDestructor, value⟩ := by
        rw [TsdStore.written, if_neg hvalue]
        simp [TsdStore.destructorFor, store, contents_of_none hget, hrecorded]
      rw [if_neg (by simpa using hret)]
      refine ⟨sound_install hs hguest hget hlive hmapped hfresh _, rfl,
        recordedDestructor_setMapped hmapped _, .inr ⟨rfl, ?_, ?_⟩⟩
      · simp [hrecorded]
      · rw [hwritten]
        exact contents_install hs hfresh _
    · rw [if_pos hret]
      exact ⟨hs, rfl, rfl, .inl ⟨hret, rfl⟩⟩

theorem pthreadSetspecificImpl_outcome (hs : s.Sound) (hguest : (s.threads t).InGuest)
    (value : Word) {fresh : Word} (hfresh : s.heap fresh = none) {hostRet : BitVec 32}
    (hhost : s.liveKeys key = false → hostRet ≠ 0) :
    ∃ r, pthreadSetspecificImpl t key value fresh hostRet s = .ok r ∧
      SetOutcome s t key value r := by
  unfold pthreadSetspecificImpl
  cases hget : s.pthreadGetspecific t key with
  | none =>
    by_cases hvalue : value = 0
    · refine ⟨(0, s), by simp [hvalue], hs, rfl, rfl, .inr ⟨rfl, absurd hvalue, ?_⟩⟩
      have hnone : s.store.written (t, key) value = s.contents (t, key) := by
        simp [TsdStore.written, hvalue, contents_of_none hget]
      rw [hnone, Function.update_eq_self]
    · simp only [if_neg hvalue]
      exact install_outcome hs hguest hget hvalue hfresh hhost
  | some p =>
    by_cases hvalue : value = 0
    · subst hvalue
      obtain ⟨s', hclear, hout⟩ := clear_outcome hs hguest hget
      exact ⟨(0, s'), by simp [hclear, Except.map], hout⟩
    · obtain ⟨w, hw, hread⟩ := hs.readWrapper (holds_slot s t key ▸ hget)
      obtain ⟨mapped, hmapped, -⟩ := hs.recorded t key p hget
      have hwritten : s.store.written (t, key) value = some { w with value := value } := by
        rw [TsdStore.written, if_neg hvalue]
        simp [TsdStore.destructorFor, store, contents_of_get hget, hw]
      refine ⟨(0, s.newWrapper p { w with value := value }), ?_, hs.newWrapper _ _, rfl, rfl,
        .inr ⟨rfl, ?_, ?_⟩⟩
      · simp only [if_neg hvalue, hread]
        rfl
      · simp [recordedDestructor, hmapped]
      · rw [hwritten]
        exact contents_replace hs hget _

theorem SetOutcome.effect {value fresh : Word} {hostRet : BitVec 32} {r : BitVec 32 × PthreadState}
    (h : SetOutcome s t key value r) :
    (PthreadEvent.setSpecific t key value fresh hostRet).Effect s.store
      (r.2.record (.set t key value r.1)).store := by
  have hstore : (r.2.record (.set t key value r.1)).store =
      ⟨r.2.contents, s.recordedDestructor, .set t key value r.1 :: s.log⟩ := by
    rw [← h.destructors, ← h.log]
    rfl
  rw [hstore]
  rcases h.cases with ⟨hret, hsame⟩ | ⟨hret, hrecorded, hcontents⟩
  · rw [hsame]
    exact .inl ⟨r.1, hret, rfl⟩
  · rw [hcontents, hret]
    exact .inr ⟨hrecorded, rfl⟩

/-- Creation records a destructor only for a number that has no record. -/
theorem recordedDestructor_keyCreate (key : PthreadKey) (guestDestructor : Word)
    (s : PthreadState) :
    (pthreadKeyCreateImpl key guestDestructor 0 s).2.recordedDestructor =
      Function.update s.recordedDestructor key
        (some ((s.recordedDestructor key).getD guestDestructor)) := by
  funext key'
  simp only [pthreadKeyCreateImpl, ne_eq, not_true_eq_false, if_false, recordedDestructor]
  by_cases hkey : key' = key
  · subst hkey
    rw [Function.update_self]
    cases hmapped : s.keyDestructorMap.lookup key' with
    | none =>
      rw [if_neg (Finmap.lookup_eq_none.mp hmapped), Finmap.lookup_insert]
      rfl
    | some mapped =>
      rw [if_pos (Finmap.mem_of_lookup_eq_some hmapped), hmapped]
      rfl
  · rw [Function.update_of_ne hkey]
    split_ifs
    · rfl
    · rw [Finmap.lookup_insert_of_ne _ hkey]
      rfl

theorem keyCreate_effect (t : ThreadId) (key : PthreadKey) (guestDestructor : Word)
    (hostRet : BitVec 32) (s : PthreadState) :
    (PthreadEvent.keyCreate t key guestDestructor hostRet).Effect s.store
      (pthreadKeyCreateImpl key guestDestructor hostRet s).2.store := by
  by_cases hret : hostRet = 0
  · subst hret
    have hdestructors := recordedDestructor_keyCreate key guestDestructor s
    simp only [PthreadEvent.Effect, if_true, store, hdestructors]
    rfl
  · rw [PthreadEvent.Effect, if_neg hret, pthreadKeyCreateImpl, if_pos hret]

theorem pthreadGetspecificImpl_ok (hs : s.Sound) (t : ThreadId) (key : PthreadKey) :
    pthreadGetspecificImpl t key s =
      .ok (((s.contents (t, key)).map GuestRoutineWrapper.value).getD 0) := by
  unfold pthreadGetspecificImpl
  cases hget : s.pthreadGetspecific t key with
  | none => simp [contents_of_none hget]
  | some p =>
    obtain ⟨w, hw, hread⟩ := hs.readWrapper (holds_slot s t key ▸ hget)
    simp [contents_of_get hget, hw, hread, Except.map]

namespace PthreadEvent

/-- A deletion finds nothing recorded but the deleting thread's own wrapper. -/
def DeletesOwn (s : PthreadState) : PthreadEvent → Prop
  | keyDelete t key => ListsOwn s t key
  | _ => True

def DeletesKnown (s : PthreadState) : PthreadEvent → Prop
  | keyDelete _ key => key ∈ s.keyDestructorMap
  | _ => True

theorem keyDelete_ok (hs : s.Sound) (hguest : (s.threads t).InGuest) (hown : ListsOwn s t key)
    (hmem : key ∈ s.keyDestructorMap) :
    ∃ s', (keyDelete t key).step s = .ok s' ∧ s'.Sound ∧
      (keyDelete t key).Effect s.store s'.store := by
  rw [step, hown.pthreadKeyDeleteImpl_ok hs hmem]
  refine ⟨_, rfl, ?_⟩
  split_ifs with hlive
  · have hstore : (dropKey key (releaseOwn t key s)).store =
        ⟨(releaseOwn t key s).contents, s.recordedDestructor, .deleted key :: s.log⟩ := by
      unfold releaseOwn
      split <;> rfl
    refine ⟨sound_dropKey (sound_releaseOwn hs hguest) (hown.releaseOwn_unused hs), .inr ?_⟩
    rw [hstore, hown.contents_releaseOwn hs]
    rfl
  · exact ⟨hs, .inl rfl⟩

/-- An event that leaves the table alone. -/
theorem store_congr (hcontents : s'.contents = s.contents)
    (hmap : s'.keyDestructorMap = s.keyDestructorMap) (hlog : s'.log = s.log) :
    s'.store = s.store := by
  simp only [store, hcontents, hlog]
  unfold recordedDestructor
  rw [hmap]

/-- From a sound state, every possible event succeeds, keeps the state sound and has
its effect on the table. -/
theorem step_ok (e : PthreadEvent) (hs : s.Sound) (hpossible : e.Possible s)
    (hown : e.DeletesOwn s) (hknown : e.DeletesKnown s) :
    ∃ s', e.step s = .ok s' ∧ s'.Sound ∧ e.Effect s.store s'.store := by
  cases e with
  | create t guestRoutine arg fresh hostRet =>
    obtain ⟨hphase, -, hfresh⟩ := hpossible
    rw [step, pthreadCreateImpl_ok hphase]
    refine ⟨_, rfl, ?_⟩
    split_ifs
    · exact ⟨sound_create hs hphase hfresh _,
        store_congr (contents_create hs hphase hfresh _) rfl rfl⟩
    · exact ⟨hs.newWrapper _ _, store_congr (contents_newWrapper hs hfresh _) rfl rfl⟩
  | start t =>
    obtain ⟨wrapper, hphase⟩ := hpossible
    exact ⟨_, threadRoutineEnter_ok hs hphase, sound_enter hs hphase,
      store_congr (contents_setThread_of_slots rfl) rfl rfl⟩
  | finish t =>
    obtain ⟨wrapper, hphase⟩ := hpossible
    have hframe : s.holds (t, .frame) = some wrapper := congrArg ThreadPhase.wrapper? hphase
    obtain ⟨hok, hsound⟩ := threadRoutineLeave_ok hs hphase
    exact ⟨_, hok, hsound, store_congr (contents_leaveFrame hs hframe) rfl rfl⟩
  | destroy t key =>
    obtain ⟨hphase, -, p, hget⟩ := hpossible
    obtain ⟨w, hw, hok⟩ := destructorEnter_ok hs hphase hget
    refine ⟨_, hok, (sound_destroy hs hphase hget).record _, w, ?_, ?_⟩
    · exact (contents_of_get hget).trans hw
    · have hcontents := contents_destroy s t key p
      unfold store
      rw [← hcontents]
      rfl
  | destroyed t =>
    obtain ⟨wrapper, hphase⟩ := hpossible
    have hframe : s.holds (t, .frame) = some wrapper := congrArg ThreadPhase.wrapper? hphase
    obtain ⟨hok, hsound⟩ := destructorLeave_ok hs hphase
    exact ⟨_, hok, hsound, store_congr (contents_leaveFrame hs hframe) rfl rfl⟩
  | exit t =>
    refine ⟨_, ?_, sound_exit hs hpossible, store_congr (contents_setThread_of_slots rfl) rfl rfl⟩
    rw [step, show (s.threads t).phase = .exiting from hpossible]
  | keyCreate t key guestDestructor hostRet =>
    exact ⟨_, rfl, sound_keyCreate hs key guestDestructor hostRet, keyCreate_effect t key _ _ s⟩
  | keyDelete t key => exact keyDelete_ok hs hpossible hown hknown
  | setSpecific t key value fresh hostRet =>
    obtain ⟨hguest, -, hfresh, hhost⟩ := hpossible
    obtain ⟨r, hr, hout⟩ := pthreadSetspecificImpl_outcome hs hguest value hfresh hhost
    rw [step, hr]
    exact ⟨_, rfl, hout.sound.record _, hout.effect⟩
  | getSpecific t key =>
    rw [step, pthreadGetspecificImpl_ok hs t key]
    exact ⟨s, rfl, hs, rfl⟩

theorem deletesKnown_of_step {e : PthreadEvent} (hstep : e.step s = .ok s') :
    e.DeletesKnown s := by
  cases e with
  | keyDelete t key =>
    by_contra hnot
    have hnone : s.keyDestructorMap.lookup key = none := Finmap.lookup_eq_none.mpr hnot
    simp [step, pthreadKeyDeleteImpl, hnone, Except.map] at hstep
  | _ => trivial

theorem step_sound {e : PthreadEvent} (hs : s.Sound) (hpossible : e.Possible s)
    (hown : e.DeletesOwn s) (hstep : e.step s = .ok s') :
    s'.Sound ∧ e.Effect s.store s'.store := by
  obtain ⟨s'', hstep', hsound, heffect⟩ :=
    e.step_ok hs hpossible hown (deletesKnown_of_step hstep)
  rw [hstep', Except.ok.injEq] at hstep
  subst hstep
  exact ⟨hsound, heffect⟩

end PthreadEvent

/-- A run in which deletions find only the deleting thread's own wrapper. -/
abbrev CleanRun (es : List PthreadEvent) (s : PthreadState) : Prop :=
  Run PthreadEvent.step (fun s e => e.Possible s ∧ e.DeletesOwn s) PthreadState.initial es s

theorem CleanRun.sound {es : List PthreadEvent} (h : CleanRun es s) : s.Sound :=
  h.invariant (fun _ _ _ hs ha hstep => (PthreadEvent.step_sound hs ha.1 ha.2 hstep).1)
    Sound.initial

end Sober
