import Mathlib.Data.Nat.Notation
import Mathlib.Tactic.Common

/-! # Locks

What a mutex does, as a library for threads promises it: an operation gives a result and the
mutex after it, or the thread waits, or the caller was not allowed to ask. -/
namespace Sync

variable {T : Type} [DecidableEq T]

inductive Stuck where
  | blocked
  | undefined
  deriving DecidableEq

inductive Result where
  | ok
  | busy
  | deadlock
  | notOwner
  deriving DecidableEq

section Mutex

inductive Kind where
  | normal
  | recursive
  | errorcheck
  deriving DecidableEq

structure Mutex (T : Type) where
  kind : Kind
  holder : Option (T × ℕ)
  deriving DecidableEq

namespace Mutex

inductive Op where
  | lock
  | trylock
  | unlock
  deriving DecidableEq

def acquire (m : Mutex T) (t : T) : Mutex T :=
  { m with holder := some (t, (m.holder.map Prod.snd).getD 0 + 1) }

def release (m : Mutex T) : Mutex T :=
  { m with holder := m.holder.bind fun (t, n) => if n ≤ 1 then none else some (t, n - 1) }

def apply (m : Mutex T) (t : T) : Op → Except Stuck (Result × Mutex T)
  | .lock =>
    match m.holder with
    | none => .ok (.ok, m.acquire t)
    | some (u, _) =>
      if u = t then
        match m.kind with
        | .normal => .error .blocked
        | .recursive => .ok (.ok, m.acquire t)
        | .errorcheck => .ok (.deadlock, m)
      else .error .blocked
  | .trylock =>
    match m.holder with
    | none => .ok (.ok, m.acquire t)
    | some (u, _) => if u = t ∧ m.kind = .recursive then .ok (.ok, m.acquire t) else .ok (.busy, m)
  | .unlock =>
    if m.holder.map Prod.fst = some t then .ok (.ok, m.release)
    else match m.kind with
      | .normal => .error .undefined
      | _ => .ok (.notOwner, m)

def depth (m : Mutex T) (t : T) : ℕ :=
  match m.holder with
  | none => 0
  | some (u, n) => if u = t then n else 0

def Op.count : Op → ℕ → ℕ
  | .lock, n | .trylock, n => n + 1
  | .unlock, n => n - 1

/-- Who has the mutex has locked it. -/
def Proper (m : Mutex T) : Prop := ∀ t n, m.holder = some (t, n) → n ≠ 0

variable {m m' : Mutex T} {t u : T} {op : Op} {r : Result}

theorem depth_eq_zero (h : m.depth t ≠ 0) (hut : u ≠ t) : m.depth u = 0 := by
  unfold depth at h ⊢
  cases hm : m.holder with
  | none => rfl
  | some p =>
    obtain ⟨v, n⟩ := p
    simp only [hm, ne_eq, ite_eq_right_iff, Classical.not_imp] at h
    rw [← h.1] at hut
    exact if_neg hut.symm

theorem depth_acquire (h : ∀ v n, m.holder = some (v, n) → v = t) :
    (m.acquire t).depth u = if u = t then m.depth u + 1 else m.depth u := by
  cases hm : m.holder with
  | none => simp [depth, acquire, hm, eq_comm]
  | some p =>
    obtain ⟨v, n⟩ := p
    obtain rfl := h v n hm
    by_cases hu : u = v
    · simp [depth, acquire, hm, hu]
    · simp [depth, acquire, hm, hu, Ne.symm hu]

theorem depth_release (h : m.holder.map Prod.fst = some t) :
    m.release.depth u = if u = t then m.depth u - 1 else m.depth u := by
  obtain ⟨⟨v, n⟩, hm, rfl⟩ := Option.map_eq_some_iff.mp h
  by_cases hn : n ≤ 1
  · by_cases hu : u = v
    · simp [depth, release, hm, hn, hu]
    · simp [depth, release, hm, hn, hu, Ne.symm hu]
  · by_cases hu : u = v
    · simp [depth, release, hm, hn, hu]
    · simp [depth, release, hm, hn, hu, Ne.symm hu]

/-- What an operation that gives a result has done. -/
theorem apply_cases (h : m.apply t op = .ok (r, m')) :
    (r = .ok ∧ op ≠ .unlock ∧ m' = m.acquire t ∧ ∀ v n, m.holder = some (v, n) → v = t) ∨
    (r = .ok ∧ op = .unlock ∧ m' = m.release ∧ m.holder.map Prod.fst = some t) ∨
    (r ≠ .ok ∧ m' = m ∧ (op = .lock → m.kind = .errorcheck)) := by
  cases op with
  | lock =>
    simp only [apply] at h
    split at h
    · rename_i hm
      cases h
      exact .inl ⟨rfl, by decide, rfl, by simp [hm]⟩
    · rename_i v n hm
      split at h
      · rename_i hvt
        split at h <;> cases h
        · exact .inl ⟨rfl, by decide, rfl, by simp [hm, hvt]⟩
        · rename_i hkind
          exact .inr (.inr ⟨by decide, rfl, fun _ => hkind⟩)
      · cases h
  | trylock =>
    simp only [apply] at h
    split at h
    · rename_i hm
      cases h
      exact .inl ⟨rfl, by decide, rfl, by simp [hm]⟩
    · rename_i v n hm
      split at h <;> cases h
      · rename_i hvt
        exact .inl ⟨rfl, by decide, rfl, by simp [hm, hvt.1]⟩
      · exact .inr (.inr ⟨by decide, rfl, by simp⟩)
  | unlock =>
    simp only [apply] at h
    split at h
    · rename_i hm
      cases h
      exact .inr (.inl ⟨rfl, rfl, rfl, hm⟩)
    · split at h <;> cases h
      exact .inr (.inr ⟨by decide, rfl, by simp⟩)

theorem apply_kind (h : m.apply t op = .ok (r, m')) : m'.kind = m.kind := by
  rcases apply_cases h with ⟨-, -, rfl, -⟩ | ⟨-, -, rfl, -⟩ | ⟨-, rfl, -⟩ <;> rfl

theorem apply_ok (h : m.apply t op = .ok (.ok, m')) (u : T) :
    m'.depth u = if u = t then op.count (m.depth u) else m.depth u := by
  rcases apply_cases h with ⟨-, hop, rfl, hm⟩ | ⟨-, rfl, rfl, hm⟩ | ⟨hr, -, -⟩
  · rw [depth_acquire hm]
    cases op with
    | unlock => exact absurd rfl hop
    | _ => rfl
  · exact depth_release hm
  · exact absurd rfl hr

/-- Only a mutex that checks for errors refuses to be locked. -/
theorem apply_lock (h : m.apply t .lock = .ok (r, m')) (hkind : m.kind ≠ .errorcheck) :
    r = .ok := by
  rcases apply_cases h with ⟨hr, -⟩ | ⟨hr, -⟩ | ⟨-, -, hlock⟩
  · exact hr
  · exact hr
  · exact absurd (hlock rfl) hkind

theorem Proper.apply (hm : m.Proper) (h : m.apply t op = .ok (r, m')) : m'.Proper := by
  rcases apply_cases h with ⟨-, -, rfl, -⟩ | ⟨-, -, rfl, -⟩ | ⟨-, rfl, -⟩
  · intro v n hn
    cases hn
    exact Nat.succ_ne_zero _
  · intro v n hn
    obtain ⟨⟨w, k⟩, -, hk⟩ := Option.bind_eq_some_iff.mp hn
    dsimp only at hk
    split_ifs at hk with hle
    cases hk
    exact Nat.sub_ne_zero_of_lt (Nat.lt_of_not_le hle)
  · exact hm

/-- A recursive mutex can be locked by who has it, and by anyone if it is free. -/
theorem apply_lock_recursive (hkind : m.kind = .recursive)
    (h : ∀ v n, m.holder = some (v, n) → v = t) :
    m.apply t .lock = .ok (.ok, m.acquire t) := by
  cases hm : m.holder with
  | none => simp [Mutex.apply, hm]
  | some p =>
    obtain ⟨v, n⟩ := p
    simp [Mutex.apply, hm, h v n hm, hkind]

theorem holder_of_depth (h : m.depth t ≠ 0) : ∃ n, m.holder = some (t, n) := by
  unfold depth at h
  cases hm : m.holder with
  | none => simp [hm] at h
  | some p =>
    obtain ⟨v, n⟩ := p
    simp only [hm, ne_eq, ite_eq_right_iff, Classical.not_imp] at h
    exact ⟨n, by rw [h.1]⟩

/-- Who has locked the mutex can unlock it. -/
theorem apply_unlock (h : m.depth t ≠ 0) : m.apply t .unlock = .ok (.ok, m.release) := by
  obtain ⟨n, hn⟩ := holder_of_depth h
  simp [apply, hn]

/-- The others wait for it. -/
theorem apply_lock_blocked (h : m.depth t ≠ 0) (hut : u ≠ t) :
    m.apply u .lock = .error .blocked := by
  obtain ⟨n, hn⟩ := holder_of_depth h
  simp [apply, hn, hut.symm]

end Mutex

end Mutex

end Sync
