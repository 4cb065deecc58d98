import Sober.Sync.Mutex

/-! # Read-write locks

Many threads may read or one may write, as a library for threads promises it. A thread
unlocks what it has, without saying which of the two that is. -/
namespace Sync

variable {T : Type} [DecidableEq T]

structure Rwlock (T : Type) where
  writer : Option T
  /-- As often as each of them has locked it. -/
  readers : List T
  deriving DecidableEq

/-- What one thread has of a lock. -/
structure Hold where
  writes : Bool
  reads : ℕ
  deriving DecidableEq

namespace Rwlock

inductive Op where
  | rdlock
  | tryrdlock
  | wrlock
  | trywrlock
  | unlock
  deriving DecidableEq

def share (l : Rwlock T) (t : T) : Rwlock T := { l with readers := t :: l.readers }

def claim (l : Rwlock T) (t : T) : Rwlock T := { l with writer := some t }

def Free (l : Rwlock T) : Prop := l.writer = none ∧ l.readers = []

instance (l : Rwlock T) : Decidable l.Free := inferInstanceAs (Decidable (_ ∧ _))

def apply (l : Rwlock T) (t : T) : Op → Except Stuck (Result × Rwlock T)
  | .rdlock =>
    if l.writer = none then .ok (.ok, l.share t)
    else if l.writer = some t then .ok (.deadlock, l)
    else .error .blocked
  | .tryrdlock => if l.writer = none then .ok (.ok, l.share t) else .ok (.busy, l)
  | .wrlock =>
    if l.Free then .ok (.ok, l.claim t)
    else if l.writer = some t then .ok (.deadlock, l)
    else .error .blocked
  | .trywrlock => if l.Free then .ok (.ok, l.claim t) else .ok (.busy, l)
  | .unlock =>
    if l.writer = some t then .ok (.ok, { l with writer := none })
    else if t ∈ l.readers then .ok (.ok, { l with readers := l.readers.erase t })
    else .error .undefined

def hold (l : Rwlock T) (t : T) : Hold := ⟨decide (l.writer = some t), l.readers.count t⟩

/-- What a successful operation makes of what the thread has. -/
def Op.hold : Op → Hold → Hold
  | .rdlock, h | .tryrdlock, h => { h with reads := h.reads + 1 }
  | .wrlock, h | .trywrlock, h => { h with writes := true }
  | .unlock, h => if h.writes then { h with writes := false } else { h with reads := h.reads - 1 }

/-- Nobody reads while somebody writes. -/
def Exclusive (l : Rwlock T) : Prop := l.writer ≠ none → l.readers = []

inductive Change (l : Rwlock T) (t : T) : Op → Rwlock T → Prop
  | share {op : Op} (hop : op = .rdlock ∨ op = .tryrdlock) (hwriter : l.writer = none) :
      Change l t op (l.share t)
  | claim {op : Op} (hop : op = .wrlock ∨ op = .trywrlock) (hfree : l.Free) :
      Change l t op (l.claim t)
  | unclaim (hwriter : l.writer = some t) : Change l t .unlock { l with writer := none }
  | unshare (hwriter : l.writer ≠ some t) (hreads : t ∈ l.readers) :
      Change l t .unlock { l with readers := l.readers.erase t }

variable {l l' : Rwlock T} {t u : T} {op : Op} {r : Result}

/-- What an operation that gives a result has done. -/
theorem apply_cases (h : l.apply t op = .ok (r, l')) :
    r = .ok ∧ Change l t op l' ∨ r ≠ .ok ∧ l' = l := by
  cases op with
  | rdlock =>
    simp only [apply] at h
    split_ifs at h with hwriter howner <;> cases h
    · exact .inl ⟨rfl, .share (.inl rfl) hwriter⟩
    · exact .inr ⟨by decide, rfl⟩
  | tryrdlock =>
    simp only [apply] at h
    split_ifs at h with hwriter <;> cases h
    · exact .inl ⟨rfl, .share (.inr rfl) hwriter⟩
    · exact .inr ⟨by decide, rfl⟩
  | wrlock =>
    simp only [apply] at h
    split_ifs at h with hfree howner <;> cases h
    · exact .inl ⟨rfl, .claim (.inl rfl) hfree⟩
    · exact .inr ⟨by decide, rfl⟩
  | trywrlock =>
    simp only [apply] at h
    split_ifs at h with hfree <;> cases h
    · exact .inl ⟨rfl, .claim (.inr rfl) hfree⟩
    · exact .inr ⟨by decide, rfl⟩
  | unlock =>
    simp only [apply] at h
    split_ifs at h with hwriter hreads <;> cases h
    · exact .inl ⟨rfl, .unclaim hwriter⟩
    · exact .inl ⟨rfl, .unshare hwriter hreads⟩

theorem Change.hold (h : Change l t op l') (u : T) :
    l'.hold u = if u = t then op.hold (l.hold u) else l.hold u := by
  cases h with
  | share hop hwriter =>
    by_cases hu : u = t
    · rcases hop with rfl | rfl <;> simp [Rwlock.hold, Rwlock.share, Op.hold, hu]
    · simp [Rwlock.hold, Rwlock.share, hwriter, Ne.symm hu, hu]
  | claim hop hfree =>
    by_cases hu : u = t
    · rcases hop with rfl | rfl <;> simp [Rwlock.hold, Rwlock.claim, Op.hold, hu]
    · simp [Rwlock.hold, Rwlock.claim, hfree.1, hu, Ne.symm hu]
  | unclaim hwriter =>
    by_cases hu : u = t
    · simp [Rwlock.hold, Op.hold, hwriter, hu]
    · simp [Rwlock.hold, hwriter, hu, Ne.symm hu]
  | unshare hwriter hreads =>
    by_cases hu : u = t
    · simp [Rwlock.hold, Op.hold, hwriter, hu]
    · simp [Rwlock.hold, hu]

theorem Exclusive.change (h : l.Exclusive) (hchange : Change l t op l') : l'.Exclusive := by
  cases hchange with
  | share hop hwriter => exact fun hsome => absurd hwriter hsome
  | claim hop hfree => exact fun _ => hfree.2
  | unclaim hwriter => exact fun hsome => absurd rfl hsome
  | unshare hwriter hreads =>
    intro hsome
    change l.readers.erase t = []
    rw [h hsome]
    rfl

/-- Who writes is alone, and does not read. -/
theorem Exclusive.hold_eq (h : l.Exclusive) (ht : (l.hold t).writes = true) (u : T) :
    l.hold u = ⟨decide (u = t), 0⟩ := by
  have hwriter : l.writer = some t := of_decide_eq_true ht
  have hreaders : l.readers = [] := h (by simp [hwriter])
  simp [hold, hwriter, hreaders, eq_comm]

end Rwlock

end Sync
