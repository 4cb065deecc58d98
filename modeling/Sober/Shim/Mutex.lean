import Sober.Shim.History

/-! # The guest's mutexes

For the guest a mutex is held by a thread that has locked it, as often as the calls that
returned 0 say. The shim's `pthread_mutex_lock` returns 0 whatever the host's function
returns, so this is right for all mutexes but those that check for errors. -/
namespace Sober.Shim
open Transition Sync

section Definitions

def recursiveMutexInitValue : ℕ := 0x4000

def errorcheckMutexInitValue : ℕ := 0x8000

def staticMutexKind (initValue : ℕ) : Kind :=
  if initValue = recursiveMutexInitValue then .recursive
  else if initValue = errorcheckMutexInitValue then .errorcheck
  else .normal

/-- `EBUSY`, `EDEADLK` and `EPERM`, which are the same numbers on both sides. -/
def errnoOf : Result → ℕ
  | .ok => 0
  | .busy => 16
  | .deadlock => 35
  | .notOwner => 1

def reportMutex : Mutex.Op → Result → ℕ
  | .lock, _ => 0
  | .trylock, result | .unlock, result => errnoOf result

def mutexPrimitive : Primitive Mutex.Op Kind (Mutex Thread) where
  static := staticMutexKind
  create kind := ⟨kind, none⟩
  throws := true
  call t op m := m.apply t op
  idle m := m.holder.isNone
  report := reportMutex
  idle_create _ := rfl

/-- How often the thread has locked the mutex, going by what its calls returned. -/
def lockDepth (t : Thread) (m : Address) (log : List (Record Mutex.Op Kind)) : ℕ :=
  tally 0 Mutex.Op.count t m log

/-- The kind that the last `init` gave the mutex, or its static initialiser. -/
def currentKind (initValue : Address → ℕ) (m : Address) : List (Record Mutex.Op Kind) → Kind
  | [] => staticMutexKind (initValue m)
  | .initialized m' kind :: older => if m' = m then kind else currentKind initValue m older
  | _ :: older => currentKind initValue m older

/-- The mutex has its kind, and unless it checks for errors the guest's count is the host's. -/
def Counts (initValue : Address → ℕ) (m : Address) (o : Option (Mutex Thread))
    (log : List (Record Mutex.Op Kind)) : Prop :=
  match o with
  | none => ∀ t, lockDepth t m log = 0
  | some obj => obj.kind = currentKind initValue m log ∧
      (obj.kind ≠ .errorcheck → ∀ t, lockDepth t m log = obj.depth t)

end Definitions

section Counting

variable {initValue : Address → ℕ} {m : Address} {log : List (Record Mutex.Op Kind)}
  {o : Option (Mutex Thread)} {objects : Address → Option (Mutex Thread)}

theorem errnoOf_eq_zero {r : Result} : errnoOf r = 0 ↔ r = .ok := by
  cases r <;> simp [errnoOf]

/-- Of two threads one has not locked the mutex. -/
theorem Counts.exclusive (h : Counts initValue m o log)
    (hunchecked : currentKind initValue m log ≠ .errorcheck) {t u : Thread} (htu : t ≠ u)
    (ht : lockDepth t m log ≠ 0) : lockDepth u m log = 0 := by
  unfold Counts at h
  split at h
  · exact h u
  · have hdepth := h.2 (h.1 ▸ hunchecked)
    rw [hdepth t] at ht
    rw [hdepth u]
    exact Mutex.depth_eq_zero ht htu.symm

end Counting

end Sober.Shim
