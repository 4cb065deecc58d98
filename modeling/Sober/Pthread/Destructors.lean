import Sober.Pthread.Values

/-! # Which destructor runs at the exit of a thread

The wrapper of a value carries the destructor that the record of its key held when the
wrapper was made. A creation does not replace a record, a deletion does not remove it,
and a null destructor is called like any other. The callback runs what POSIX asks for
as long as no key number comes back with another destructor, deletions find only the
deleting thread's wrapper, and no value is left under a key without a destructor.
-/
namespace Sober
open Machine Transition PthreadState ThreadContext TsdStore

/-- The destructor given to the creation that made the current incarnation of a key. -/
def currentDestructor : List TsdRecord → PthreadKey → Option Word
  | [], _ => none
  | .created key' destructor :: older, key =>
    if key' = key then some destructor else currentDestructor older key
  | _ :: older, key => currentDestructor older key

/-- A new key has no record, or one with its own destructor; a deletion finds only the
deleting thread's wrapper; a callback is for a key with a destructor. -/
def PthreadEvent.KeepsDestructors (s : PthreadState) : PthreadEvent → Prop
  | keyCreate _ key guestDestructor hostRet => hostRet = 0 →
      ∀ destructor, s.recordedDestructor key = some destructor → destructor = guestDestructor
  | keyDelete t key => ListsOwn s t key
  | destroy _ key => currentDestructor s.log key ≠ some 0
  | _ => True

theorem PthreadEvent.KeepsDestructors.deletesOwn {e : PthreadEvent} {s : PthreadState}
    (h : e.KeepsDestructors s) : e.DeletesOwn s := by
  cases e with
  | keyDelete t key => exact h
  | _ => trivial

/-- Records hold the current destructor, and wrappers the recorded one. -/
structure TsdStore.Current (a : TsdStore) : Prop where
  record : ∀ key d, a.destructors key = some d → currentDestructor a.log key = some d
  wrapper : ∀ t key w, a.contents (t, key) = some w → a.destructors key = some w.guestRoutine

theorem TsdStore.Current.initial : PthreadState.initial.store.Current :=
  ⟨fun _ _ h => (nomatch h), fun _ _ _ h => (nomatch h)⟩

/-- The value written carries the recorded destructor. -/
theorem TsdStore.Current.written {a : TsdStore} (ha : a.Current) {t : ThreadId}
    {key : PthreadKey} {value : Word} (hrecorded : value ≠ 0 → a.destructors key ≠ none)
    {w : GuestRoutineWrapper} (hw : a.written (t, key) value = some w) :
    a.destructors key = some w.guestRoutine := by
  unfold TsdStore.written at hw
  split_ifs at hw with hvalue
  cases hw
  obtain ⟨d, hd⟩ := Option.ne_none_iff_exists'.mp (hrecorded hvalue)
  cases hold : a.contents (t, key) with
  | none => simp [destructorFor, hold, hd]
  | some old =>
    have hroutine := ha.wrapper t key old hold
    simp [destructorFor, hold, hroutine]

/-- One entry of the table changes, and no destructor. -/
theorem TsdStore.Current.update {a : TsdStore} (ha : a.Current) {t : ThreadId} {key : PthreadKey}
    {entry : Option GuestRoutineWrapper} {r : TsdRecord}
    (hlog : currentDestructor (r :: a.log) = currentDestructor a.log)
    (hentry : ∀ w, entry = some w → a.destructors key = some w.guestRoutine) :
    Current ⟨Function.update a.contents (t, key) entry, a.destructors, r :: a.log⟩ := by
  constructor
  · rw [hlog]
    exact ha.record
  · intro t' key' w hw
    change Function.update a.contents (t, key) entry (t', key') = some w at hw
    by_cases hx : (t', key') = (t, key)
    · cases hx
      rw [Function.update_self] at hw
      exact hentry w hw
    · rw [Function.update_of_ne hx] at hw
      exact ha.wrapper t' key' w hw

/-- A key is created whose number has no record, or one with its destructor. -/
theorem TsdStore.Current.create {a : TsdStore} (ha : a.Current) {key : PthreadKey} {d : Word}
    (hsame : (a.destructors key).getD d = d) :
    Current ⟨a.contents, Function.update a.destructors key (some ((a.destructors key).getD d)),
      .created key d :: a.log⟩ := by
  constructor
  · intro key' d' hd'
    change Function.update a.destructors key _ key' = some d' at hd'
    by_cases hkey : key' = key
    · subst hkey
      rw [Function.update_self, hsame] at hd'
      rw [currentDestructor, if_pos rfl, hd']
    · rw [Function.update_of_ne hkey] at hd'
      rw [currentDestructor, if_neg (Ne.symm hkey)]
      exact ha.record key' d' hd'
  · intro t' key' w hw
    have hrecorded := ha.wrapper t' key' w hw
    change Function.update a.destructors key _ key' = _
    by_cases hkey : key' = key
    · subst hkey
      rw [Function.update_self, hrecorded]
      rfl
    · rw [Function.update_of_ne hkey, hrecorded]

theorem PthreadEvent.Effect.current {e : PthreadEvent} {s : PthreadState} {a' : TsdStore}
    (h : e.Effect s.store a') (hkeeps : e.KeepsDestructors s) (ha : s.store.Current) :
    a'.Current := by
  cases e with
  | destroy t key =>
    obtain ⟨w, -, rfl⟩ := h
    exact ha.update rfl nofun
  | setSpecific t key value fresh hostRet =>
    rcases h with ⟨ret, -, rfl⟩ | ⟨hrecorded, rfl⟩
    · exact ⟨ha.record, ha.wrapper⟩
    · exact ha.update rfl (fun w hw => ha.written hrecorded hw)
  | keyCreate t key guestDestructor hostRet =>
    rw [Effect] at h
    split_ifs at h with hret
    · subst h
      apply ha.create
      cases hd : s.store.destructors key with
      | none => rfl
      | some d => exact hkeeps hret d hd
    · exact h ▸ ha
  | keyDelete t key =>
    rcases h with rfl | rfl
    · exact ha
    · refine ⟨ha.record, ?_⟩
      intro t' key' w' hw'
      simp only at hw'
      split_ifs at hw'
      exact ha.wrapper t' key' w' hw'
  | _ => exact h ▸ ha

abbrev DestructorRun (es : List PthreadEvent) (s : PthreadState) : Prop :=
  Run PthreadEvent.step (fun s e => e.Possible s ∧ e.KeepsDestructors s)
    PthreadState.initial es s

theorem DestructorRun.clean {es : List PthreadEvent} {s : PthreadState}
    (h : DestructorRun es s) : CleanRun es s :=
  h.mono (fun _ _ ha => ⟨ha.1, ha.2.deletesOwn⟩)

theorem DestructorRun.current {es : List PthreadEvent} {s : PthreadState}
    (h : DestructorRun es s) : s.store.Current := by
  have hboth : s.Sound ∧ s.store.Current := by
    apply h.invariant (I := fun s => s.Sound ∧ s.store.Current) _ ⟨.initial, .initial⟩
    intro s e s' hs ha hstep
    obtain ⟨hsound, heffect⟩ := PthreadEvent.step_sound hs.1 ha.1 ha.2.deletesOwn hstep
    exact ⟨hsound, heffect.current ha.2 hs.2⟩
  exact hboth.2

/-- The guest code that POSIX has run for a value at the exit of its thread. -/
def posixRun (t : ThreadId) (key : PthreadKey) (destructor value : Word) : List TsdRecord :=
  if destructor = 0 then [] else [.ran t key destructor value]

/-- In every run whose events all keep to the destructors, a thread that exits with a
value under a live key has the key's callback called, and the callback runs what POSIX
asks for exactly if the destructor of the current incarnation of the key is not null. -/
theorem exit_runs_current_destructor {es : List PthreadEvent} {s : PthreadState}
    (hrun : DestructorRun es s) (t : ThreadId) (key : PthreadKey)
    (hexit : (s.threads t).phase = .exiting) (hlive : s.liveKeys key = true)
    (hvalue : lastValue s.log t key ≠ 0) :
    (PthreadEvent.destroy t key).Possible s ∧
    ∃ d s', currentDestructor s.log key = some d ∧
      (PthreadEvent.destroy t key).step s = .ok s' ∧
      (s'.log = posixRun t key d (lastValue s.log t key) ++ s.log ↔ d ≠ 0) := by
  have hs := hrun.clean.sound
  have hcurrent := hrun.current
  have hfaithful : s.store.value t key = lastValue s.log t key :=
    hrun.clean.faithful.value_eq t key
  cases hget : s.pthreadGetspecific t key with
  | none =>
    rw [← hfaithful] at hvalue
    exact absurd (by simp [TsdStore.value, store, contents_of_none hget]) hvalue
  | some p =>
    have hpossible : (PthreadEvent.destroy t key).Possible s := ⟨hexit, hlive, p, hget⟩
    obtain ⟨w, hw, hstep⟩ := destructorEnter_ok hs hexit hget
    have hcontents : s.store.contents (t, key) = some w := (contents_of_get hget).trans hw
    have hroutine := hcurrent.record key _ (hcurrent.wrapper t key w hcontents)
    have hread : w.value = lastValue s.log t key := by
      rw [← hfaithful]
      simp [TsdStore.value, hcontents]
    refine ⟨hpossible, w.guestRoutine, _, hroutine, hstep, ?_⟩
    change .ran t key w.guestRoutine w.value :: s.log = _ ↔ _
    rw [hread, posixRun]
    by_cases hnull : w.guestRoutine = 0
    · simp [hnull]
    · rw [if_neg hnull]
      exact ⟨fun _ => hnull, fun _ => rfl⟩

/-- A key number comes back after a clean deletion, with the destructor it had before. -/
theorem exit_runs_current_destructor_reused : ∃ s, DestructorRun
      [.create 1 0x100 0 0x10 0, .start 1, .keyCreate 1 5 0x900 0, .setSpecific 1 5 7 0x20 0,
        .keyDelete 1 5, .keyCreate 1 5 0x900 0, .setSpecific 1 5 8 0x20 0, .finish 1] s ∧
    ∃ s', (PthreadEvent.destroy 1 5).step s = .ok s' ∧ s'.log = .ran 1 5 0x900 8 :: s.log := by
  have hrun : DestructorRun [.create 1 0x100 0 0x10 0, .start 1, .keyCreate 1 5 0x900 0,
      .setSpecific 1 5 7 0x20 0, .keyDelete 1 5, .keyCreate 1 5 0x900 0,
      .setSpecific 1 5 8 0x20 0, .finish 1] _ :=
    .cons ⟨⟨rfl, by decide, rfl⟩, trivial⟩ rfl <|
    .cons ⟨⟨0x10, rfl⟩, trivial⟩ rfl <|
    .cons ⟨⟨trivial, fun _ => rfl⟩, fun _ => nofun⟩ rfl <|
    .cons ⟨⟨trivial, by decide, rfl, nofun⟩, trivial⟩ rfl <|
    .cons ⟨trivial, fun _ h => by cases h; rfl⟩ rfl <|
    .cons ⟨⟨trivial, fun _ => rfl⟩, fun _ _ h => by cases h; rfl⟩ rfl <|
    .cons ⟨⟨trivial, by decide, rfl, nofun⟩, trivial⟩ rfl <|
    .cons ⟨⟨0x10, rfl⟩, trivial⟩ rfl (.nil _)
  obtain ⟨-, d, s', hd, hstep, hlog⟩ :=
    exit_runs_current_destructor hrun 1 5 rfl rfl (by decide)
  cases hd
  exact ⟨_, hrun, s', hstep, hlog.mpr (by decide)⟩

/-- A key number comes back with another destructor, and the exit of the thread runs the
old one; a null destructor is run as guest code. -/
theorem exit_runs_stale_destructor :
    (∃ s s', Run PthreadEvent.step PthreadEvent.Possible PthreadState.initial
        [.create 1 0x100 0 0x10 0, .start 1, .keyCreate 1 5 0x900 0, .keyDelete 1 5,
          .keyCreate 1 5 0xA00 0, .setSpecific 1 5 7 0x20 0, .finish 1] s ∧
      currentDestructor s.log 5 = some 0xA00 ∧ (PthreadEvent.destroy 1 5).step s = .ok s' ∧
      s'.log = .ran 1 5 0x900 7 :: s.log) ∧
    ∃ s s', Run PthreadEvent.step PthreadEvent.Possible PthreadState.initial
        [.create 1 0x100 0 0x10 0, .start 1, .keyCreate 1 5 0 0, .setSpecific 1 5 7 0x20 0,
          .finish 1] s ∧
      currentDestructor s.log 5 = some 0 ∧ (PthreadEvent.destroy 1 5).step s = .ok s' ∧
      s'.log = .ran 1 5 0 7 :: s.log := by
  constructor
  · refine ⟨_, _, .cons ⟨rfl, by decide, rfl⟩ rfl <| .cons ⟨0x10, rfl⟩ rfl <|
      .cons ⟨trivial, fun _ => rfl⟩ rfl <| .cons trivial rfl <|
      .cons ⟨trivial, fun _ => rfl⟩ rfl <| .cons ⟨trivial, by decide, rfl, nofun⟩ rfl <|
      .cons ⟨0x10, rfl⟩ rfl (.nil _), rfl, rfl, rfl⟩
  · refine ⟨_, _, .cons ⟨rfl, by decide, rfl⟩ rfl <| .cons ⟨0x10, rfl⟩ rfl <|
      .cons ⟨trivial, fun _ => rfl⟩ rfl <| .cons ⟨trivial, by decide, rfl, nofun⟩ rfl <|
      .cons ⟨0x10, rfl⟩ rfl (.nil _), rfl, rfl, rfl⟩

end Sober
