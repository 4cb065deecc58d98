import Sober.Shim.Mutex
import Sober.Sync.Rwlock

/-! # The guest's read-write locks

The host's functions are called without a wrapper of their own, so the guest gets their
results. The static initialiser does not look at the result of the constructor. -/
namespace Sober.Shim
open Transition Sync

section Definitions

def rwlockPrimitive : Primitive Rwlock.Op Unit (Rwlock Thread) where
  static _ := ()
  create _ := ⟨none, []⟩
  throws := false
  call t op l := l.apply t op
  idle l := decide l.Free
  report _ := errnoOf
  idle_create _ := rfl

/-- What the thread has of the lock, going by what its calls returned. -/
def lockHold (t : Thread) (m : Address) (log : List (Record Rwlock.Op Unit)) : Hold :=
  tally ⟨false, 0⟩ Rwlock.Op.hold t m log

/-- What the guest's threads have of the lock is what they have of the host's. -/
def Holds (m : Address) (o : Option (Rwlock Thread)) (log : List (Record Rwlock.Op Unit)) :
    Prop :=
  match o with
  | none => ∀ t, lockHold t m log = ⟨false, 0⟩
  | some l => l.Exclusive ∧ ∀ t, lockHold t m log = l.hold t

end Definitions

section Counting

variable {initValue : Address → ℕ} {m : Address} {log : List (Record Rwlock.Op Unit)}
  {o : Option (Rwlock Thread)} {objects : Address → Option (Rwlock Thread)}

theorem holds_of_object_ne {record : Record Rwlock.Op Unit} (hm : record.object ≠ some m)
    (h : Holds m o log) : Holds m o (record :: log) := by
  unfold Holds lockHold at h ⊢
  simpa only [tally_of_object_ne hm] using h

theorem holds_returned {t : Thread} {op : Rwlock.Op} {r : Result} {l l' : Rwlock Thread}
    (hcall : l.apply t op = .ok (r, l')) (h : Holds m (some l) log) :
    Holds m (some l') (.returned t m op (errnoOf r) :: log) := by
  obtain ⟨hexclusive, hhold⟩ := h
  rcases Rwlock.apply_cases hcall with ⟨rfl, hchange⟩ | ⟨hr, rfl⟩
  · refine ⟨hexclusive.change hchange, fun u => ?_⟩
    have hu : tally ⟨false, 0⟩ Rwlock.Op.hold u m log = l.hold u := hhold u
    rw [hchange.hold u]
    simp [lockHold, tally, hu, errnoOf, eq_comm]
  · refine ⟨hexclusive, fun u => ?_⟩
    have hu : tally ⟨false, 0⟩ Rwlock.Op.hold u m log = l'.hold u := hhold u
    simp [lockHold, tally, hu, errnoOf_eq_zero, hr]

theorem holds_of_replay (h : replay rwlockPrimitive initValue log = some objects) :
    Holds m (objects m) log := by
  have hnew : Rwlock.Exclusive (rwlockPrimitive.create ()) := fun hsome => absurd rfl hsome
  refine replay_invariant (I := Holds m) ?_ ?_ ?_ ?_ ?_ ?_ h
  · exact ⟨hnew, fun _ => rfl⟩
  · exact fun _ _ _ => holds_of_object_ne
  · exact fun _ _ _ _ _ _ => holds_returned
  · exact fun _ _ _ _ => ⟨hnew, fun _ => if_pos rfl⟩
  · exact fun _ _ _ _ _ => if_pos rfl
  · exact fun _ _ _ _ => if_pos rfl

theorem Holds.exclusive (h : Holds m o log) {t : Thread} (ht : (lockHold t m log).writes = true)
    (u : Thread) : lockHold u m log = ⟨decide (u = t), 0⟩ := by
  cases o with
  | none =>
    rw [h t] at ht
    cases ht
  | some l =>
    obtain ⟨hexclusive, hhold⟩ := h
    rw [hhold t] at ht
    rw [hhold u]
    exact hexclusive.hold_eq ht u

end Counting

end Sober.Shim
