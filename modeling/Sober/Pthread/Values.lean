import Sober.Pthread.RefCount

/-! # The wrapped store is POSIX thread-specific data

What a thread reads under a key is determined by the operations so far: the value it
last set there successfully, unless the exit of the thread has cleared the key or the
key has been deleted since.
-/
namespace Sober
open Machine Transition PthreadState ThreadContext

/-- The value of a thread under a key, from the operations so far, newest first. -/
def lastValue : List TsdRecord → ThreadId → PthreadKey → Word
  | [], _, _ => 0
  | .set t' key' value ret :: older, t, key =>
    if (t', key') = (t, key) ∧ ret = 0 then value else lastValue older t key
  | .ran t' key' _ _ :: older, t, key =>
    if (t', key') = (t, key) then 0 else lastValue older t key
  | .deleted key' :: older, t, key => if key' = key then 0 else lastValue older t key
  | .created _ _ :: older, t, key => lastValue older t key

namespace TsdStore

def value (a : TsdStore) (t : ThreadId) (key : PthreadKey) : Word :=
  ((a.contents (t, key)).map GuestRoutineWrapper.value).getD 0

/-- The table holds the values that the log gives, and no null value. -/
structure Faithful (a : TsdStore) : Prop where
  value_eq : ∀ t key, a.value t key = lastValue a.log t key
  ne_zero : ∀ x w, a.contents x = some w → w.value ≠ 0

theorem Faithful.initial : PthreadState.initial.store.Faithful :=
  ⟨fun _ _ => rfl, fun _ _ h => nomatch h⟩

theorem written_value (a : TsdStore) (x : ThreadId × PthreadKey) (value : Word) :
    ((a.written x value).map GuestRoutineWrapper.value).getD 0 = value := by
  unfold written
  by_cases hvalue : value = 0
  · rw [if_pos hvalue, hvalue]
    rfl
  · rw [if_neg hvalue]
    rfl

variable {a : TsdStore} {t : ThreadId} {key : PthreadKey}

/-- One entry of the table changes, and the log with it. -/
theorem Faithful.update (h : a.Faithful) {entry : Option GuestRoutineWrapper}
    {destructors : PthreadKey → Option Word} {r : TsdRecord}
    (hself : lastValue (r :: a.log) t key = (entry.map GuestRoutineWrapper.value).getD 0)
    (hother : ∀ t' key', (t, key) ≠ (t', key') →
      lastValue (r :: a.log) t' key' = lastValue a.log t' key')
    (hentry : ∀ w, entry = some w → w.value ≠ 0) :
    Faithful ⟨Function.update a.contents (t, key) entry, destructors, r :: a.log⟩ := by
  constructor
  · intro t' key'
    by_cases hx : (t', key') = (t, key)
    · cases hx
      rw [hself]
      simp [value]
    · have hold := h.value_eq t' key'
      rw [hother t' key' (Ne.symm hx), ← hold]
      simp only [value, Function.update_of_ne hx]
  · intro x w hw
    change Function.update a.contents (t, key) entry x = some w at hw
    by_cases hx : x = (t, key)
    · subst hx
      rw [Function.update_self] at hw
      exact hentry w hw
    · rw [Function.update_of_ne hx] at hw
      exact h.ne_zero x w hw

end TsdStore

open TsdStore

theorem PthreadEvent.Effect.faithful {e : PthreadEvent} {a a' : TsdStore} (h : e.Effect a a')
    (ha : a.Faithful) : a'.Faithful := by
  cases e with
  | destroy t key =>
    obtain ⟨w, -, rfl⟩ := h
    apply ha.update
    · simp [lastValue]
    · intro t' key' hx
      rw [lastValue, if_neg hx]
    · exact nofun
  | setSpecific t key value fresh hostRet =>
    rcases h with ⟨ret, hret, rfl⟩ | ⟨-, rfl⟩
    · refine ⟨fun t' key' => ?_, ha.ne_zero⟩
      rw [lastValue, if_neg (fun h => hret h.2)]
      exact ha.value_eq t' key'
    · apply ha.update
      · rw [written_value, lastValue, if_pos ⟨rfl, rfl⟩]
      · intro t' key' hx
        rw [lastValue, if_neg (fun h => hx h.1)]
      · intro w hw
        unfold written at hw
        split_ifs at hw with hvalue
        cases hw
        exact hvalue
  | keyCreate t key guestDestructor hostRet =>
    rw [Effect] at h
    split_ifs at h
    · subst h
      exact ⟨ha.value_eq, ha.ne_zero⟩
    · exact h ▸ ha
  | keyDelete t key =>
    rcases h with rfl | rfl
    · exact ha
    · constructor
      · intro t' key'
        by_cases hkey : key' = key
        · simp [value, lastValue, hkey]
        · have hold := ha.value_eq t' key'
          simpa [value, lastValue, hkey, Ne.symm hkey] using hold
      · intro x w hw
        simp only at hw
        split_ifs at hw
        exact ha.ne_zero x w hw
  | _ => exact h ▸ ha

theorem CleanRun.faithful {es : List PthreadEvent} {s : PthreadState} (h : CleanRun es s) :
    s.store.Faithful := by
  have hboth : s.Sound ∧ s.store.Faithful := by
    apply h.invariant (I := fun s => s.Sound ∧ s.store.Faithful) _ ⟨.initial, .initial⟩
    intro s e s' hs ha hstep
    obtain ⟨hsound, heffect⟩ := PthreadEvent.step_sound hs.1 ha.1 ha.2 hstep
    exact ⟨hsound, heffect.faithful hs.2⟩
  exact hboth.2

/-- The event sets or clears the value of this thread under this key. -/
def PthreadEvent.Concerns (t : ThreadId) (key : PthreadKey) : PthreadEvent → Prop
  | setSpecific t' key' _ _ _ => (t', key') = (t, key)
  | destroy t' key' => (t', key') = (t, key)
  | _ => False

theorem PthreadEvent.Effect.value_of_not_concerns {e : PthreadEvent} {a a' : TsdStore}
    (h : e.Effect a a') (hno : e.NoDelete) {t : ThreadId} {key : PthreadKey}
    (hother : ¬ e.Concerns t key) : a'.value t key = a.value t key := by
  cases e with
  | destroy t' key' =>
    obtain ⟨w, -, rfl⟩ := h
    simp only [value, Function.update_of_ne (Ne.symm hother)]
  | setSpecific t' key' newValue fresh hostRet =>
    rcases h with ⟨ret, -, rfl⟩ | ⟨-, rfl⟩
    · rfl
    · simp only [value, Function.update_of_ne (Ne.symm hother)]
  | keyCreate t' key' guestDestructor hostRet =>
    rw [Effect] at h
    split_ifs at h
    · rw [h]
      rfl
    · rw [h]
  | keyDelete t' key' => exact hno.elim
  | _ => exact h ▸ rfl

/-- In every run without key deletion, a thread reads what it last set successfully
under the key since the exit machinery last cleared it, and null if there is nothing.
No other event changes what it reads, and a set that is refused changes nothing. -/
theorem getspecific_returns_last_set {es : List PthreadEvent} {s : PthreadState}
    (hrun : NoDeleteRun es s) :
    (∀ t key, pthreadGetspecificImpl t key s = .ok (lastValue s.log t key)) ∧
    (∀ (e : PthreadEvent) s', e.Possible s → e.NoDelete → e.step s = .ok s' →
      ∀ t key, ¬ e.Concerns t key →
        pthreadGetspecificImpl t key s' = pthreadGetspecificImpl t key s) ∧
    ∀ t key value fresh hostRet,
      (PthreadEvent.setSpecific t key value fresh hostRet).Possible s →
        ∃ ret s', pthreadSetspecificImpl t key value fresh hostRet s = .ok (ret, s') ∧
          (ret ≠ 0 → s' = s) := by
  have hs := hrun.clean.sound
  refine ⟨?_, ?_, ?_⟩
  · intro t key
    rw [pthreadGetspecificImpl_ok hs]
    exact congrArg Except.ok (hrun.clean.faithful.value_eq t key)
  · intro e s' hpossible hno hstep t key hother
    obtain ⟨hs', heffect⟩ := PthreadEvent.step_sound hs hpossible (hno.deletesOwn s) hstep
    rw [pthreadGetspecificImpl_ok hs, pthreadGetspecificImpl_ok hs']
    exact congrArg Except.ok (heffect.value_of_not_concerns hno hother)
  · intro t key value fresh hostRet hpossible
    obtain ⟨hguest, -, hfresh, hhost⟩ := hpossible
    obtain ⟨⟨ret, s'⟩, hok, hout⟩ := pthreadSetspecificImpl_outcome hs hguest value hfresh hhost
    refine ⟨ret, s', hok, fun hret => ?_⟩
    rcases hout.cases with ⟨-, hsame⟩ | ⟨hzero, -⟩
    · exact hsame
    · exact absurd hzero hret

/-- Two threads under one key, a replaced value and a refused set. -/
theorem getspecific_returns_last_set_two : ∃ s, NoDeleteRun
      [.create 1 0x100 0 0x10 0, .start 1, .create 2 0x200 0 0x11 0, .start 2,
        .keyCreate 1 5 0x900 0, .setSpecific 1 5 7 0x20 0, .setSpecific 2 5 8 0x21 0,
        .setSpecific 1 5 9 0x22 0, .setSpecific 2 6 3 0x23 1] s ∧
    pthreadGetspecificImpl 1 5 s = .ok 9 ∧ pthreadGetspecificImpl 2 5 s = .ok 8 ∧
    pthreadGetspecificImpl 2 6 s = .ok 0 := by
  have hrun : NoDeleteRun [.create 1 0x100 0 0x10 0, .start 1, .create 2 0x200 0 0x11 0, .start 2,
      .keyCreate 1 5 0x900 0, .setSpecific 1 5 7 0x20 0, .setSpecific 2 5 8 0x21 0,
      .setSpecific 1 5 9 0x22 0, .setSpecific 2 6 3 0x23 1] _ :=
    .cons ⟨⟨rfl, by decide, rfl⟩, trivial⟩ rfl <|
    .cons ⟨⟨0x10, rfl⟩, trivial⟩ rfl <|
    .cons ⟨⟨rfl, by decide, rfl⟩, trivial⟩ rfl <|
    .cons ⟨⟨0x11, rfl⟩, trivial⟩ rfl <|
    .cons ⟨⟨trivial, fun _ => rfl⟩, trivial⟩ rfl <|
    .cons ⟨⟨trivial, by decide, rfl, nofun⟩, trivial⟩ rfl <|
    .cons ⟨⟨trivial, by decide, rfl, nofun⟩, trivial⟩ rfl <|
    .cons ⟨⟨trivial, by decide, rfl, nofun⟩, trivial⟩ rfl <|
    .cons ⟨⟨trivial, by decide, rfl, fun _ => by decide⟩, trivial⟩ rfl (.nil _)
  obtain ⟨hread, -⟩ := getspecific_returns_last_set hrun
  exact ⟨_, hrun, hread 1 5, hread 2 5, hread 2 6⟩

end Sober
