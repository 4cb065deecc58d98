import Mathlib.Data.Nat.Notation
import Mathlib.Logic.Function.Basic
import Sober.Sync.Mutex
import Sober.Transition.Run

/-! # Wrapped objects

The guest's mutexes, condition variables and read-write locks are too small for those of the
host, so the guest's hold a pointer to one of the host's. A statically initialised one gets
it from whichever thread comes first: `to_host` looks at the pointer, and if it is null takes
a lock, looks again, and makes the host's object. The pointer is stored before the object is
constructed.

The objects are of any kind here. A step of a thread is one access to the pointer, or one
call of the host. The host's constructor may refuse: the object is deleted and the pointer
stays. -/
namespace Sober.Shim
open Transition Sync

abbrev Thread := ℕ

abbrev Address := ℕ

/-- What the host offers for one kind of object, and what the shim makes of its results. -/
structure Primitive (Op Attr Obj : Type) where
  /-- What a static initialiser stands for. -/
  static : ℕ → Attr
  create : Attr → Obj
  /-- The static initialiser looks at the result of the constructor. -/
  throws : Bool
  call : Thread → Op → Obj → Except Stuck (Result × Obj)
  /-- It may be destroyed. -/
  idle : Obj → Bool
  report : Op → Result → ℕ
  idle_create : ∀ attr, idle (create attr) = true

/-- `pthread_mutex_t` and its like on the guest's side. -/
structure Wrapper where
  initValue : ℕ
  wrapped : Option ℕ

inductive HostObject (Obj : Type) where
  /-- Not allocated. -/
  | gone
  /-- Allocated and not constructed. -/
  | raw
  | live (obj : Obj)

inductive Call (Op Attr : Type) where
  | op (op : Op)
  | init (attr : Attr)
  | destroy

inductive Pc (Op Attr : Type) where
  | idle
  /-- In the static initialiser, before its lock. -/
  | waiting (m : Address) (op : Op)
  /-- With the lock, before the second look. -/
  | guarded (m : Address) (op : Op)
  | allocating (m : Address) (op : Op)
  | constructing (m : Address) (op : Op) (h : ℕ)
  /-- Before the lock is given back. -/
  | releasing (m : Address) (op : Op)
  /-- Before the pointer is returned by `to_host`. -/
  | reading (m : Address) (op : Op)
  | calling (m : Address) (op : Op) (h : ℕ)
  /-- In `pthread_mutex_init` or its like, the pointer stored. -/
  | initializing (m : Address) (attr : Attr) (h : ℕ)
  | destroying (m : Address) (h : ℕ)

inductive Record (Op Attr : Type) where
  /-- `to_host` returned. -/
  | handed (t : Thread) (m : Address) (h : ℕ)
  | returned (t : Thread) (m : Address) (op : Op) (result : ℕ)
  | initialized (m : Address) (attr : Attr)
  /-- The constructor of the host's object `h` failed. -/
  | refused (m : Address) (h : ℕ)
  | destroyed (m : Address)

structure ShimState (Op Attr Obj : Type) where
  wrappers : Address → Wrapper
  host : ℕ → HostObject Obj
  /-- The host's objects from here on have never been allocated. -/
  next : ℕ
  /-- `mutex_guard` of the static initialiser. -/
  guard : Option Thread
  pc : Thread → Pc Op Attr
  /-- Newest first. -/
  log : List (Record Op Attr)

inductive ShimFault where
  | misplaced
  | blocked
  /-- The guest was not allowed to ask. -/
  | undefined
  | nullPointer
  | uninitialized
  | useAfterFree
  /-- An exception that nobody catches. -/
  | terminated
  deriving DecidableEq

/-- What the shim itself does wrong. -/
def ShimFault.isWild : ShimFault → Bool
  | .nullPointer | .uninitialized | .useAfterFree => true
  | _ => false

variable {Op Attr Obj : Type}

/-- No thread is in the shim, and all objects are as the guest's memory has them. -/
def ShimState.initial (initValue : Address → ℕ) : ShimState Op Attr Obj :=
  ⟨fun m => ⟨initValue m, none⟩, fun _ => .gone, 0, none, fun _ => .idle, []⟩

namespace ShimState

def goto (s : ShimState Op Attr Obj) (t : Thread) (pc : Pc Op Attr) : ShimState Op Attr Obj :=
  { s with pc := Function.update s.pc t pc }

def setHost (s : ShimState Op Attr Obj) (h : ℕ) (obj : HostObject Obj) : ShimState Op Attr Obj :=
  { s with host := Function.update s.host h obj }

/-- `object->wrapped = new ...`. -/
def publish (s : ShimState Op Attr Obj) (m : Address) : ShimState Op Attr Obj :=
  { s with
    wrappers := Function.update s.wrappers m { s.wrappers m with wrapped := some s.next }
    host := Function.update s.host s.next .raw
    next := s.next + 1 }

def write (s : ShimState Op Attr Obj) (record : Record Op Attr) : ShimState Op Attr Obj :=
  { s with log := record :: s.log }

end ShimState

variable (P : Primitive Op Attr Obj)

def ShimState.enter (s : ShimState Op Attr Obj) (t : Thread) (m : Address) :
    Call Op Attr → ShimState Op Attr Obj
  | .op op => if (s.wrappers m).wrapped.isSome then s.goto t (.reading m op)
    else s.goto t (.waiting m op)
  | .init attr => (s.publish m).goto t (.initializing m attr s.next)
  | .destroy =>
    match (s.wrappers m).wrapped with
    | some h => s.goto t (.destroying m h)
    | none => s.write (.destroyed m)

/-- The call of the host. `pthread_mutex_lock` does not look at its result, which is up to
`report`. -/
def ShimState.callHost (s : ShimState Op Attr Obj) (t : Thread) (m : Address) (op : Op) (h : ℕ) :
    Except ShimFault (ShimState Op Attr Obj) :=
  match s.host h with
  | .gone => .error .useAfterFree
  | .raw => .error .uninitialized
  | .live obj =>
    match P.call t op obj with
    | .ok (result, obj') =>
      .ok (((s.setHost h (.live obj')).goto t .idle).write
        (.returned t m op (P.report op result)))
    | .error .blocked => .error .blocked
    | .error .undefined => .error .undefined

def ShimState.advance (s : ShimState Op Attr Obj) (t : Thread) :
    Except ShimFault (ShimState Op Attr Obj) :=
  match s.pc t with
  | .idle => .error .misplaced
  | .waiting m op =>
    match s.guard with
    | none => .ok ({ s with guard := some t }.goto t (.guarded m op))
    | some _ => .error .blocked
  | .guarded m op =>
    if (s.wrappers m).wrapped.isSome then .ok (s.goto t (.releasing m op))
    else .ok (s.goto t (.allocating m op))
  | .allocating m op => .ok ((s.publish m).goto t (.constructing m op s.next))
  | .constructing m op h =>
    .ok ((s.setHost h (.live (P.create (P.static (s.wrappers m).initValue)))).goto t
      (.releasing m op))
  | .releasing m op => .ok ({ s with guard := none }.goto t (.reading m op))
  | .reading m op =>
    match (s.wrappers m).wrapped with
    | some h => .ok ((s.goto t (.calling m op h)).write (.handed t m h))
    | none => .error .nullPointer
  | .calling m op h => s.callHost P t m op h
  | .initializing m attr h =>
    .ok (((s.setHost h (.live (P.create attr))).goto t .idle).write (.initialized m attr))
  | .destroying m h =>
    match s.host h with
    | .gone => .error .useAfterFree
    | .raw => .error .uninitialized
    | .live _ => .ok (((s.setHost h .gone).goto t .idle).write (.destroyed m))

def ShimState.refuse (s : ShimState Op Attr Obj) (t : Thread) :
    Except ShimFault (ShimState Op Attr Obj) :=
  match s.pc t with
  | .constructing m op h =>
    if P.throws then .error .terminated
    else .ok (((s.setHost h .gone).goto t (.releasing m op)).write (.refused m h))
  | .initializing m _ h => .ok (((s.setHost h .gone).goto t .idle).write (.refused m h))
  | _ => .error .misplaced

inductive ShimEvent (Op Attr : Type) where
  | call (t : Thread) (m : Address) (request : Call Op Attr)
  | advance (t : Thread)
  | refuse (t : Thread)

def ShimEvent.step (s : ShimState Op Attr Obj) : ShimEvent Op Attr →
    Except ShimFault (ShimState Op Attr Obj)
  | .call t m request =>
    match s.pc t with
    | .idle => .ok (s.enter t m request)
    | _ => .error .misplaced
  | .advance t => s.advance P t
  | .refuse t => s.refuse P t

section Inversion

variable {P} {s s' : ShimState Op Attr Obj} {t : Thread}

inductive Advance (P : Primitive Op Attr Obj) (s : ShimState Op Attr Obj) (t : Thread) :
    ShimState Op Attr Obj → Prop
  | lock {m : Address} {op : Op} (hpc : s.pc t = .waiting m op) (hfree : s.guard = none) :
      Advance P s t ({ s with guard := some t }.goto t (.guarded m op))
  | found {m : Address} {op : Op} (hpc : s.pc t = .guarded m op)
      (hsome : (s.wrappers m).wrapped.isSome = true) : Advance P s t (s.goto t (.releasing m op))
  | missing {m : Address} {op : Op} (hpc : s.pc t = .guarded m op)
      (hnone : ¬(s.wrappers m).wrapped.isSome = true) :
      Advance P s t (s.goto t (.allocating m op))
  | allocate {m : Address} {op : Op} (hpc : s.pc t = .allocating m op) :
      Advance P s t ((s.publish m).goto t (.constructing m op s.next))
  | construct {m : Address} {op : Op} {i : ℕ} (hpc : s.pc t = .constructing m op i) :
      Advance P s t ((s.setHost i
        (.live (P.create (P.static (s.wrappers m).initValue)))).goto t (.releasing m op))
  | release {m : Address} {op : Op} (hpc : s.pc t = .releasing m op) :
      Advance P s t ({ s with guard := none }.goto t (.reading m op))
  | hand {m : Address} {op : Op} {i : ℕ} (hpc : s.pc t = .reading m op)
      (hwrapped : (s.wrappers m).wrapped = some i) :
      Advance P s t ((s.goto t (.calling m op i)).write (.handed t m i))
  | call {m : Address} {op : Op} {i : ℕ} {obj obj' : Obj} {result : Result}
      (hpc : s.pc t = .calling m op i) (hlive : s.host i = .live obj)
      (hcall : P.call t op obj = .ok (result, obj')) :
      Advance P s t (((s.setHost i (.live obj')).goto t .idle).write
        (.returned t m op (P.report op result)))
  | init {m : Address} {attr : Attr} {i : ℕ} (hpc : s.pc t = .initializing m attr i) :
      Advance P s t (((s.setHost i (.live (P.create attr))).goto t .idle).write
        (.initialized m attr))
  | destroy {m : Address} {i : ℕ} {obj : Obj} (hpc : s.pc t = .destroying m i)
      (hlive : s.host i = .live obj) :
      Advance P s t (((s.setHost i .gone).goto t .idle).write (.destroyed m))

theorem advance_of_ok (h : s.advance P t = .ok s') : Advance P s t s' := by
  unfold ShimState.advance at h
  cases hpc : s.pc t with
  | idle =>
    rw [hpc] at h
    cases h
  | waiting m op =>
    rw [hpc] at h
    dsimp only at h
    split at h
    · cases h
      exact .lock hpc ‹_›
    · cases h
  | guarded m op =>
    rw [hpc] at h
    dsimp only at h
    split at h <;> cases h
    · exact .found hpc ‹_›
    · exact .missing hpc ‹_›
  | allocating m op =>
    rw [hpc] at h
    cases h
    exact .allocate hpc
  | constructing m op i =>
    rw [hpc] at h
    cases h
    exact .construct hpc
  | releasing m op =>
    rw [hpc] at h
    cases h
    exact .release hpc
  | reading m op =>
    rw [hpc] at h
    dsimp only at h
    split at h
    · cases h
      exact .hand hpc ‹_›
    · cases h
  | calling m op i =>
    rw [hpc] at h
    unfold ShimState.callHost at h
    dsimp only at h
    split at h
    · cases h
    · cases h
    · split at h <;> cases h
      exact .call hpc ‹_› ‹_›
  | initializing m attr i =>
    rw [hpc] at h
    cases h
    exact .init hpc
  | destroying m i =>
    rw [hpc] at h
    dsimp only at h
    split at h <;> cases h
    exact .destroy hpc ‹_›

inductive Refusal (P : Primitive Op Attr Obj) (s : ShimState Op Attr Obj) (t : Thread) :
    ShimState Op Attr Obj → Prop
  | static {m : Address} {op : Op} {i : ℕ} (hpc : s.pc t = .constructing m op i)
      (hthrows : ¬P.throws = true) :
      Refusal P s t (((s.setHost i .gone).goto t (.releasing m op)).write (.refused m i))
  | init {m : Address} {attr : Attr} {i : ℕ} (hpc : s.pc t = .initializing m attr i) :
      Refusal P s t (((s.setHost i .gone).goto t .idle).write (.refused m i))

theorem refusal_of_ok (h : s.refuse P t = .ok s') : Refusal P s t s' := by
  unfold ShimState.refuse at h
  cases hpc : s.pc t <;> rw [hpc] at h <;> dsimp only at h
  case constructing m op i =>
    split_ifs at h with hthrows
    cases h
    exact .static hpc hthrows
  case initializing m attr i =>
    cases h
    exact .init hpc
  all_goals cases h

/-- An event is a call of a thread in none, the next statement of one, or a constructor that
fails. -/
theorem step_cases {e : ShimEvent Op Attr} (h : e.step P s = .ok s') :
    (∃ t m request, e = .call t m request ∧ s.pc t = .idle ∧ s' = s.enter t m request) ∨
      (∃ t, e = .advance t ∧ Advance P s t s') ∨ ∃ t, e = .refuse t ∧ Refusal P s t s' := by
  cases e with
  | call t m request =>
    unfold ShimEvent.step at h
    dsimp only at h
    split at h <;> cases h
    exact .inl ⟨t, m, request, rfl, ‹_›, rfl⟩
  | advance t => exact .inr (.inl ⟨t, rfl, advance_of_ok h⟩)
  | refuse t => exact .inr (.inr ⟨t, rfl, refusal_of_ok h⟩)

end Inversion

end Sober.Shim
