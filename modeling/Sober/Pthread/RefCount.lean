import Sober.Pthread.Refinement

/-! # Reference counting over whole runs

Without key deletion, the reference count of a thread counts its unfinished routine
and its wrappers in every state of every run.
-/
namespace Sober
open Machine Transition PthreadState ThreadContext

def PthreadEvent.NoDelete : PthreadEvent → Prop
  | keyDelete _ _ => False
  | _ => True

theorem PthreadEvent.NoDelete.deletesOwn {e : PthreadEvent} (h : e.NoDelete) (s : PthreadState) :
    e.DeletesOwn s := by
  cases e with
  | keyDelete t key => exact h.elim
  | _ => trivial

theorem PthreadEvent.NoDelete.deletesKnown {e : PthreadEvent} (h : e.NoDelete)
    (s : PthreadState) : e.DeletesKnown s := by
  cases e with
  | keyDelete t key => exact h.elim
  | _ => trivial

abbrev NoDeleteRun (es : List PthreadEvent) (s : PthreadState) : Prop :=
  Run PthreadEvent.step (fun s e => e.Possible s ∧ e.NoDelete) PthreadState.initial es s

theorem NoDeleteRun.clean {es : List PthreadEvent} {s : PthreadState} (h : NoDeleteRun es s) :
    CleanRun es s :=
  h.mono (fun s _ ha => ⟨ha.1, ha.2.deletesOwn s⟩)

namespace ThreadContext.Counted
variable {c c' : ThreadContext}

theorem frees_le (h : c.Counted) : c.frees ≤ 1 := by
  rw [h.frees_eq]
  split <;> omega

theorem freed_iff (h : c.Counted) :
    c.frees = 1 ↔ c.phase.finished = true ∧ c.installed = 0 := by
  rw [h.frees_eq]
  unfold count ThreadPhase.routineRef
  cases c.phase.finished <;> simp

/-- A count that is one less than another right count was not zero before. -/
theorem ne_zero_of_sub (h : c'.Counted) (hsub : c'.refCount = c.refCount - 1) :
    c.refCount ≠ 0 := by
  intro hzero
  have hrefs := h.refs
  have hle := c'.count_le
  rw [hsub, hzero, show (0 - 1 : Word).toNat = 2 ^ 64 - 1 from rfl] at hrefs
  omega

end ThreadContext.Counted

/-- In every state of every run without key deletion, each thread's reference count is
one for its unfinished routine plus its installed wrappers; its context has been freed
at most once, and exactly if the routine has finished and no wrapper is left. Every
further event succeeds, so no fiber meets a freed context, and none takes a count below
zero. -/
theorem refCount_counts_wrappers {es : List PthreadEvent} {s : PthreadState}
    (hrun : NoDeleteRun es s) :
    (∀ t, (s.threads t).refCount.toNat =
        (if (s.threads t).phase.finished then 0 else 1) + (s.threads t).installed ∧
      (s.threads t).frees ≤ 1 ∧
      ((s.threads t).frees = 1 ↔
        (s.threads t).phase.finished = true ∧ (s.threads t).installed = 0)) ∧
    ∀ e : PthreadEvent, e.Possible s → e.NoDelete → ∃ s', e.step s = .ok s' ∧
      ∀ t, (s'.threads t).refCount = (s.threads t).refCount - 1 → (s.threads t).refCount ≠ 0 := by
  have hs := hrun.clean.sound
  constructor
  · intro t
    have hcounted := hs.counted t
    exact ⟨hcounted.refs, hcounted.frees_le, hcounted.freed_iff⟩
  · intro e hpossible hno
    obtain ⟨s', hstep, hsound, -⟩ := e.step_ok hs hpossible (hno.deletesOwn s) (hno.deletesKnown s)
    exact ⟨s', hstep, fun t => (hsound.counted t).ne_zero_of_sub⟩

/-- A thread leaves a value behind, and its destructor stores another one. -/
theorem refCount_counts_wrappers_exit : ∃ s, NoDeleteRun
      [.create 1 0x100 0 0x10 0, .start 1, .keyCreate 1 5 0x900 0, .setSpecific 1 5 7 0x20 0,
        .finish 1, .destroy 1 5, .setSpecific 1 5 8 0x30 0, .destroyed 1] s ∧
    (s.threads 1).refCount.toNat = 1 ∧ (s.threads 1).frees ≤ 1 := by
  have hrun : NoDeleteRun [.create 1 0x100 0 0x10 0, .start 1, .keyCreate 1 5 0x900 0,
      .setSpecific 1 5 7 0x20 0, .finish 1, .destroy 1 5, .setSpecific 1 5 8 0x30 0,
      .destroyed 1] _ :=
    .cons ⟨⟨rfl, by decide, rfl⟩, trivial⟩ rfl <|
    .cons ⟨⟨0x10, rfl⟩, trivial⟩ rfl <|
    .cons ⟨⟨trivial, fun _ => rfl⟩, trivial⟩ rfl <|
    .cons ⟨⟨trivial, by decide, rfl, nofun⟩, trivial⟩ rfl <|
    .cons ⟨⟨0x10, rfl⟩, trivial⟩ rfl <|
    .cons ⟨⟨rfl, rfl, 0x20, rfl⟩, trivial⟩ rfl <|
    .cons ⟨⟨trivial, by decide, rfl, nofun⟩, trivial⟩ rfl <|
    .cons ⟨⟨0x20, rfl⟩, trivial⟩ rfl (.nil _)
  obtain ⟨hthreads, -⟩ := refCount_counts_wrappers hrun
  obtain ⟨hrefs, hfrees, -⟩ := hthreads 1
  exact ⟨_, hrun, hrefs, hfrees⟩

end Sober
