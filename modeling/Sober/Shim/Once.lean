import Sober.Shim.Wrapped

/-! # Once

`pthread_once` takes one lock for all controls, and keeps it while the routine runs. The lock
is recursive, since a routine may call `pthread_once` itself. -/
namespace Sober.Shim
open Transition Sync

section Definitions

inductive OnceFrame where
  /-- Before the lock. -/
  | waiting (c : Address)
  /-- With the lock, before the look at the control. -/
  | locked (c : Address)
  /-- The guest's routine is running. -/
  | running (c : Address)
  /-- Before the lock is given back. -/
  | leaving (c : Address)
  deriving DecidableEq

def OnceFrame.holds : OnceFrame → Bool
  | .waiting _ => false
  | _ => true

inductive OnceRecord where
  | started (t : Thread) (c : Address)
  | finished (c : Address)
  | returned (t : Thread) (c : Address)
  deriving DecidableEq

structure OnceState where
  control : Address → ℕ
  mutex : Mutex Thread
  /-- The calls of a thread, innermost first. -/
  stack : Thread → List OnceFrame
  /-- Newest first. -/
  log : List OnceRecord

inductive OnceFault where
  | misplaced
  | blocked
  | undefined
  deriving DecidableEq

namespace OnceState

def initial (control : Address → ℕ) : OnceState :=
  ⟨control, ⟨.recursive, none⟩, fun _ => [], []⟩

def setStack (s : OnceState) (t : Thread) (frames : List OnceFrame) : OnceState :=
  { s with stack := Function.update s.stack t frames }

def setControl (s : OnceState) (c : Address) : OnceState :=
  { s with control := Function.update s.control c 1 }

def write (s : OnceState) (record : OnceRecord) : OnceState :=
  { s with log := record :: s.log }

end OnceState

def onceFault : Stuck → OnceFault
  | .blocked => .blocked
  | .undefined => .undefined

inductive OnceEvent where
  /-- The guest calls `pthread_once`. -/
  | call (t : Thread) (c : Address)
  /-- The next statement of `pthread_once`. -/
  | advance (t : Thread)
  /-- The routine returns. -/
  | finish (t : Thread)

def OnceEvent.step (s : OnceState) : OnceEvent → Except OnceFault OnceState
  | .call t c =>
    match s.stack t with
    | [] | .running _ :: _ => .ok (s.setStack t (.waiting c :: s.stack t))
    | _ => .error .misplaced
  | .advance t =>
    match s.stack t with
    | .waiting c :: rest =>
      match s.mutex.apply t .lock with
      | .ok (_, mutex) => .ok ({ s with mutex := mutex }.setStack t (.locked c :: rest))
      | .error stuck => .error (onceFault stuck)
    | .locked c :: rest =>
      if s.control c = 0 then
        .ok (((s.setControl c).setStack t (.running c :: rest)).write (.started t c))
      else .ok (s.setStack t (.leaving c :: rest))
    | .leaving c :: rest =>
      match s.mutex.apply t .unlock with
      | .ok (_, mutex) => .ok (({ s with mutex := mutex }.setStack t rest).write (.returned t c))
      | .error stuck => .error (onceFault stuck)
    | _ => .error .misplaced
  | .finish t =>
    match s.stack t with
    | .running c :: rest => .ok ((s.setStack t (.leaving c :: rest)).write (.finished c))
    | _ => .error .misplaced

def starts (c : Address) : List OnceRecord → ℕ
  | [] => 0
  | .started _ c' :: older => if c' = c then starts c older + 1 else starts c older
  | _ :: older => starts c older

end Definitions

section Steps

inductive OnceStep (s : OnceState) : OnceState → Prop
  | call (t : Thread) (c : Address) : OnceStep s (s.setStack t (.waiting c :: s.stack t))
  | lock {t : Thread} {c : Address} {rest : List OnceFrame} {r : Result} {mutex : Mutex Thread}
      (hstack : s.stack t = .waiting c :: rest) (hlock : s.mutex.apply t .lock = .ok (r, mutex)) :
      OnceStep s ({ s with mutex := mutex }.setStack t (.locked c :: rest))
  | start {t : Thread} {c : Address} {rest : List OnceFrame}
      (hstack : s.stack t = .locked c :: rest) (hcontrol : s.control c = 0) :
      OnceStep s (((s.setControl c).setStack t (.running c :: rest)).write (.started t c))
  | skip {t : Thread} {c : Address} {rest : List OnceFrame}
      (hstack : s.stack t = .locked c :: rest) (hcontrol : s.control c ≠ 0) :
      OnceStep s (s.setStack t (.leaving c :: rest))
  | finish {t : Thread} {c : Address} {rest : List OnceFrame}
      (hstack : s.stack t = .running c :: rest) :
      OnceStep s ((s.setStack t (.leaving c :: rest)).write (.finished c))
  | unlock {t : Thread} {c : Address} {rest : List OnceFrame} {r : Result} {mutex : Mutex Thread}
      (hstack : s.stack t = .leaving c :: rest)
      (hunlock : s.mutex.apply t .unlock = .ok (r, mutex)) :
      OnceStep s (({ s with mutex := mutex }.setStack t rest).write (.returned t c))

variable {s s' : OnceState} {control : Address → ℕ}

theorem onceStep_of_step {e : OnceEvent} (h : e.step s = .ok s') : OnceStep s s' := by
  cases e with
  | call t c =>
    unfold OnceEvent.step at h
    dsimp only at h
    split at h
    · cases h
      exact .call t c
    · cases h
      exact .call t c
    · cases h
  | advance t =>
    unfold OnceEvent.step at h
    dsimp only at h
    split at h
    · rename_i hstack
      split at h
      · rename_i hlock
        cases h
        exact .lock hstack hlock
      · cases h
    · rename_i hstack
      split_ifs at h with hcontrol
      · cases h
        exact .start hstack hcontrol
      · cases h
        exact .skip hstack hcontrol
    · rename_i hstack
      split at h
      · rename_i hunlock
        cases h
        exact .unlock hstack hunlock
      · cases h
    · cases h
  | finish t =>
    unfold OnceEvent.step at h
    dsimp only at h
    split at h
    · rename_i hstack
      cases h
      exact .finish hstack
    · cases h

/-- The lock is taken as often as there are calls that need it. -/
structure OnceLocked (s : OnceState) : Prop where
  kind : s.mutex.kind = .recursive
  proper : s.mutex.Proper
  depth : ∀ t, s.mutex.depth t = (s.stack t).countP OnceFrame.holds

theorem OnceLocked.depth_ne_zero (h : OnceLocked s) {t : Thread} {f : OnceFrame}
    (hf : f ∈ s.stack t) (hholds : f.holds = true) : s.mutex.depth t ≠ 0 := by
  rw [h.depth t, ← Nat.pos_iff_ne_zero, List.countP_pos_iff]
  exact ⟨f, hf, hholds⟩

/-- One thread has the lock. -/
theorem OnceLocked.unique (h : OnceLocked s) {t u : Thread} {f g : OnceFrame}
    (hf : f ∈ s.stack t) (hholds : f.holds = true) (hg : g ∈ s.stack u) (hholds' : g.holds = true) :
    t = u := by
  by_contra hne
  exact h.depth_ne_zero hg hholds' (Mutex.depth_eq_zero (h.depth_ne_zero hf hholds) (Ne.symm hne))

/-- The top frame is replaced by one that needs the lock as well. -/
theorem OnceLocked.replace (h : OnceLocked s) {t : Thread} {f g : OnceFrame}
    {rest : List OnceFrame} (hstack : s.stack t = f :: rest) (hmutex : s'.mutex = s.mutex)
    (hstack' : s'.stack = Function.update s.stack t (g :: rest)) (hholds : g.holds = f.holds) :
    OnceLocked s' := by
  refine ⟨by rw [hmutex, h.kind], by rw [hmutex]; exact h.proper, fun u => ?_⟩
  rw [hmutex, h.depth u, hstack', Function.update_apply]
  split_ifs with hut
  · rw [hut, hstack, List.countP_cons, List.countP_cons, hholds]
  · rfl

theorem OnceLocked.step (h : OnceLocked s) (hstep : OnceStep s s') : OnceLocked s' := by
  cases hstep with
  | call t c =>
    refine ⟨h.kind, h.proper, fun u => (h.depth u).trans ?_⟩
    simp only [OnceState.setStack, Function.update_apply]
    split_ifs with hut
    · rw [hut]
      rfl
    · rfl
  | @lock t c rest r mutex hstack hlock =>
    have hr : r = .ok := Mutex.apply_lock hlock (by rw [h.kind]; decide)
    subst hr
    refine ⟨(Mutex.apply_kind hlock).trans h.kind, h.proper.apply hlock, fun u => ?_⟩
    rw [show (OnceState.setStack _ t _).mutex.depth u = mutex.depth u from rfl,
      Mutex.apply_ok hlock u, h.depth u]
    simp only [OnceState.setStack, Function.update_apply]
    split_ifs with hut
    · simp [hut, hstack, List.countP_cons, OnceFrame.holds, Mutex.Op.count]
    · rfl
  | start hstack hcontrol => exact h.replace hstack rfl rfl rfl
  | skip hstack hcontrol => exact h.replace hstack rfl rfl rfl
  | finish hstack => exact h.replace hstack rfl rfl rfl
  | @unlock t c rest r mutex hstack hunlock =>
    have hheld : s.mutex.depth t ≠ 0 :=
      h.depth_ne_zero (f := .leaving c) (by rw [hstack]; exact List.mem_cons_self) rfl
    have hr : r = .ok := by
      rw [Mutex.apply_unlock hheld] at hunlock
      cases hunlock
      rfl
    subst hr
    refine ⟨(Mutex.apply_kind hunlock).trans h.kind, h.proper.apply hunlock, fun u => ?_⟩
    rw [show (OnceState.write (OnceState.setStack _ t rest) _).mutex.depth u = mutex.depth u from
      rfl, Mutex.apply_ok hunlock u, h.depth u]
    simp only [OnceState.write, OnceState.setStack, Function.update_apply]
    split_ifs with hut
    · simp [hut, hstack, List.countP_cons, OnceFrame.holds, Mutex.Op.count]
    · rfl

structure OnceRecorded (control : Address → ℕ) (s : OnceState) : Prop where
  kept : ∀ c, control c ≠ 0 → s.control c ≠ 0
  starts : ∀ c, starts c s.log = if control c = 0 ∧ s.control c ≠ 0 then 1 else 0
  /-- A routine that has not finished is running where it was started. -/
  running : ∀ t c, .started t c ∈ s.log → .finished c ∈ s.log ∨ .running c ∈ s.stack t
  /-- The routines of the calls that are past the control were started. -/
  entered : ∀ t c, .running c ∈ s.stack t ∨ .leaving c ∈ s.stack t → s.control c ≠ 0
  /-- A call that returned found the routine finished, unless the thread itself ran it. -/
  returned : ∀ t c newer older, s.log = newer ++ .returned t c :: older → control c = 0 →
    ∃ u, .started u c ∈ older ∧ (u = t ∨ .finished c ∈ older)

theorem exists_started {c : Address} {log : List OnceRecord} (h : starts c log ≠ 0) :
    ∃ u, .started u c ∈ log := by
  induction log with
  | nil => exact absurd rfl h
  | cons record older ih =>
    have hold : starts c older ≠ 0 → ∃ u, .started u c ∈ record :: older := by
      intro hne
      obtain ⟨u, hu⟩ := ih hne
      exact ⟨u, List.mem_cons_of_mem _ hu⟩
    cases record with
    | started t c' =>
      by_cases hc : c' = c
      · exact ⟨t, by rw [hc]; exact List.mem_cons_self⟩
      · rw [Shim.starts, if_neg hc] at h
        exact hold h
    | finished c' => exact hold h
    | returned t c' => exact hold h

/-- A new entry of the log that is no return, or one that found what it should. -/
theorem OnceRecorded.returned_cons (h : OnceRecorded control s) {record : OnceRecord}
    (hrecord : ∀ t c, record = .returned t c → control c = 0 →
      ∃ u, .started u c ∈ s.log ∧ (u = t ∨ .finished c ∈ s.log))
    (t : Thread) (c : Address) (newer older : List OnceRecord)
    (hlog : record :: s.log = newer ++ .returned t c :: older) (hcontrol : control c = 0) :
    ∃ u, .started u c ∈ older ∧ (u = t ∨ .finished c ∈ older) := by
  cases newer with
  | nil =>
    obtain ⟨hrec, holder⟩ := List.cons.inj hlog
    rw [← holder]
    exact hrecord t c hrec hcontrol
  | cons _ newer => exact h.returned t c newer older (List.cons.inj hlog).2 hcontrol

/-- A step that changes the calls of one thread, and starts no routine. -/
theorem OnceRecorded.move (h : OnceRecorded control s) {t : Thread} {frames : List OnceFrame}
    (hcontrol : s'.control = s.control) (hstack : s'.stack = Function.update s.stack t frames)
    (hstarts : ∀ c, Shim.starts c s'.log = Shim.starts c s.log)
    (hstarted : ∀ u c, .started u c ∈ s'.log → .started u c ∈ s.log)
    (hfinished : ∀ c, .finished c ∈ s.log → .finished c ∈ s'.log)
    (hreturned : ∀ u c newer older, s'.log = newer ++ .returned u c :: older → control c = 0 →
      ∃ v, .started v c ∈ older ∧ (v = u ∨ .finished c ∈ older))
    (hrunning : ∀ c, .running c ∈ s.stack t → .finished c ∈ s'.log ∨ .running c ∈ frames)
    (hentered : ∀ c, .running c ∈ frames ∨ .leaving c ∈ frames → s.control c ≠ 0) :
    OnceRecorded control s' := by
  refine ⟨by rw [hcontrol]; exact h.kept, ?_, ?_, ?_, hreturned⟩
  · intro c
    rw [hstarts, hcontrol]
    exact h.starts c
  · intro u c hu
    rw [hstack, Function.update_apply]
    rcases h.running u c (hstarted u c hu) with hfin | hrun
    · exact .inl (hfinished c hfin)
    · split_ifs with hut
      · exact hrunning c (hut ▸ hrun)
      · exact .inr hrun
  · intro u c hu
    rw [hstack, Function.update_apply] at hu
    rw [hcontrol]
    split_ifs at hu
    · exact hentered c hu
    · exact h.entered u c hu

/-- The call that gives the lock back was made by the thread that ran the routine, or the
routine has finished: whoever is running it has the lock. -/
theorem OnceRecorded.finished_or_own (h : OnceRecorded control s) (hlocked : OnceLocked s)
    {t : Thread} {c : Address} (ht : .leaving c ∈ s.stack t) (hcontrol : control c = 0) :
    ∃ u, .started u c ∈ s.log ∧ (u = t ∨ .finished c ∈ s.log) := by
  have hstarts : Shim.starts c s.log ≠ 0 := by
    rw [h.starts c, if_pos ⟨hcontrol, h.entered t c (.inr ht)⟩]
    exact Nat.one_ne_zero
  obtain ⟨u, hu⟩ := exists_started hstarts
  refine ⟨u, hu, ?_⟩
  rcases h.running u c hu with hfin | hrun
  · exact .inr hfin
  · exact .inl (hlocked.unique hrun rfl ht rfl)

theorem OnceRecorded.step (h : OnceRecorded control s) (hlocked : OnceLocked s)
    (hstep : OnceStep s s') : OnceRecorded control s' := by
  cases hstep with
  | call t c =>
    refine h.move rfl rfl (fun _ => rfl) (fun _ _ => id) (fun _ => id) h.returned
      (fun c' hc' => .inr (List.mem_cons_of_mem _ hc')) fun c' hc' => ?_
    exact h.entered t c' (by simpa using hc')
  | @lock t c rest r mutex hstack hlock =>
    refine h.move rfl rfl (fun _ => rfl) (fun _ _ => id) (fun _ => id) h.returned
      (fun c' hc' => .inr (by simpa [hstack] using hc')) fun c' hc' => ?_
    exact h.entered t c' (by simpa [hstack] using hc')
  | @start t c rest hstack hcontrol =>
    -- Controls are never set back, so this one has been 0 since the start.
    have hnew : control c = 0 := by
      by_contra hne
      exact h.kept c hne hcontrol
    refine ⟨?_, ?_, ?_, ?_, h.returned_cons nofun⟩
    · intro c' hc'
      have hne : c' ≠ c := by
        rintro rfl
        exact hc' hnew
      simpa [OnceState.write, OnceState.setStack, OnceState.setControl, Function.update_of_ne hne]
        using h.kept c' hc'
    · intro c'
      have hstarts := h.starts c'
      by_cases hc : c' = c
      · subst hc
        simp_all [OnceState.write, OnceState.setStack, OnceState.setControl, Shim.starts]
      · simpa [OnceState.write, OnceState.setStack, OnceState.setControl, Shim.starts,
          Function.update_of_ne hc, Ne.symm hc] using hstarts
    · intro u c' hu
      simp only [OnceState.write, OnceState.setStack, OnceState.setControl, List.mem_cons,
        OnceRecord.started.injEq, Function.update_apply] at hu ⊢
      rcases hu with ⟨rfl, rfl⟩ | hu
      · simp
      · rcases h.running u c' hu with hfin | hrun
        · exact .inl (.inr hfin)
        · refine .inr ?_
          split_ifs with hut
          · subst hut
            simpa [hstack] using Or.inr hrun
          · exact hrun
    · intro u c' hu
      by_cases hc : c' = c
      · subst hc
        simp [OnceState.write, OnceState.setStack, OnceState.setControl]
      · rw [show (OnceState.write (OnceState.setStack (s.setControl c) t _) _).control c' =
          s.control c' from Function.update_of_ne hc _ _]
        refine h.entered u c' ?_
        simp only [OnceState.write, OnceState.setStack, OnceState.setControl,
          Function.update_apply] at hu
        split_ifs at hu with hut
        · subst hut
          simpa [hstack, hc] using hu
        · exact hu
  | @skip t c rest hstack hcontrol =>
    refine h.move rfl rfl (fun _ => rfl) (fun _ _ => id) (fun _ => id) h.returned
      (fun c' hc' => .inr (by simpa [hstack] using hc')) fun c' hc' => ?_
    by_cases hc : c' = c
    · rwa [hc]
    · exact h.entered t c' (by simpa [hstack, hc] using hc')
  | @finish t c rest hstack =>
    have hcontrol : s.control c ≠ 0 := h.entered t c (by simp [hstack])
    refine h.move rfl rfl (fun _ => rfl) (by simp [OnceState.write, OnceState.setStack])
      (fun _ => List.mem_cons_of_mem _) (h.returned_cons nofun) (fun c' hc' => ?_) fun c' hc' => ?_
    · by_cases hc : c' = c
      · rw [hc]
        exact .inl List.mem_cons_self
      · exact .inr (by simpa [hstack, hc] using hc')
    · by_cases hc : c' = c
      · rwa [hc]
      · refine h.entered t c' ?_
        simpa [hstack, hc] using hc'
  | @unlock t c rest r mutex hstack hunlock =>
    have ht : .leaving c ∈ s.stack t := by simp [hstack]
    refine h.move rfl rfl (fun _ => rfl) (by simp [OnceState.write, OnceState.setStack])
      (fun _ => List.mem_cons_of_mem _) (h.returned_cons ?_)
      (fun c' hc' => .inr (by simpa [hstack] using hc')) fun c' hc' => ?_
    · intro u c' heq hcontrol
      cases heq
      exact h.finished_or_own hlocked ht hcontrol
    · refine h.entered t c' ?_
      rw [hstack]
      exact hc'.imp (List.mem_cons_of_mem _) (List.mem_cons_of_mem _)

/-- A thread that nobody keeps from the lock can go on. -/
theorem OnceLocked.exists_step (h : OnceLocked s) {t : Thread} (ht : s.stack t ≠ [])
    (hfree : ∀ u, u ≠ t → s.mutex.depth u = 0) :
    ∃ s', OnceEvent.step s (.advance t) = .ok s' ∨ OnceEvent.step s (.finish t) = .ok s' := by
  have hheld : ∀ v n, s.mutex.holder = some (v, n) → v = t := by
    intro v n hv
    by_contra hne
    exact h.proper v n hv (by simpa [Mutex.depth, hv] using hfree v hne)
  cases hstack : s.stack t with
  | nil => exact absurd hstack ht
  | cons f rest =>
    cases f with
    | waiting c =>
      have hlock := Mutex.apply_lock_recursive h.kind hheld
      exact ⟨{ s with mutex := s.mutex.acquire t }.setStack t (.locked c :: rest),
        .inl (by simp only [OnceEvent.step, hstack, hlock])⟩
    | locked c =>
      by_cases hcontrol : s.control c = 0
      · exact ⟨((s.setControl c).setStack t (.running c :: rest)).write (.started t c),
          .inl (by simp only [OnceEvent.step, hstack, if_pos hcontrol])⟩
      · exact ⟨s.setStack t (.leaving c :: rest),
          .inl (by simp only [OnceEvent.step, hstack, if_neg hcontrol])⟩
    | running c =>
      exact ⟨(s.setStack t (.leaving c :: rest)).write (.finished c),
        .inr (by simp only [OnceEvent.step, hstack])⟩
    | leaving c =>
      have hunlock := Mutex.apply_unlock
        (h.depth_ne_zero (f := .leaving c) (by rw [hstack]; exact List.mem_cons_self) rfl)
      exact ⟨({ s with mutex := s.mutex.release }.setStack t rest).write (.returned t c),
        .inl (by simp only [OnceEvent.step, hstack, hunlock])⟩

end Steps

section Runs

variable {control : Address → ℕ} {s : OnceState} {es : List OnceEvent}

abbrev OnceRun (control : Address → ℕ) (es : List OnceEvent) (s : OnceState) : Prop :=
  Run OnceEvent.step (fun _ _ => True) (.initial control) es s

theorem onceLocked_initial (control : Address → ℕ) : OnceLocked (.initial control) where
  kind := rfl
  proper := by simp [OnceState.initial, Mutex.Proper]
  depth _ := rfl

theorem onceRecorded_initial (control : Address → ℕ) :
    OnceRecorded control (.initial control) where
  kept _ h := h
  starts c := by simp [OnceState.initial, starts]
  running := by simp [OnceState.initial]
  entered := by simp [OnceState.initial]
  returned := by simp [OnceState.initial]

theorem onceLocked_of_run (hrun : OnceRun control es s) : OnceLocked s :=
  hrun.invariant (fun _ _ _ h _ hstep => h.step (onceStep_of_step hstep))
    (onceLocked_initial control)

theorem onceRecorded_of_run (hrun : OnceRun control es s) : OnceRecorded control s :=
  (hrun.invariant (I := fun s => OnceLocked s ∧ OnceRecorded control s)
    (fun _ _ _ h _ hstep =>
      ⟨h.1.step (onceStep_of_step hstep), h.2.step h.1 (onceStep_of_step hstep)⟩)
    ⟨onceLocked_initial control, onceRecorded_initial control⟩).2

/-- The routine of a control is started once at most, and not if the control was set from the
start. A call returns when the routine has finished, unless the thread itself runs it. -/
theorem once_runs_once (hrun : OnceRun control es s) :
    (∀ c, starts c s.log ≤ if control c = 0 then 1 else 0) ∧
      ∀ t c newer older, s.log = newer ++ .returned t c :: older → control c = 0 →
        ∃ u, .started u c ∈ older ∧ (u = t ∨ .finished c ∈ older) := by
  have h := onceRecorded_of_run hrun
  refine ⟨fun c => ?_, h.returned⟩
  rw [h.starts c]
  by_cases hc : control c = 0
  · rw [if_pos hc]
    split_ifs <;> simp
  · simp [hc]

/-- One thread runs a routine that calls `pthread_once` for another control, then a second
thread comes. -/
theorem once_runs_once_nested :
    ∃ es s, OnceRun (fun _ => 0) es s ∧
      s.log = [.returned 1 5, .returned 0 5, .finished 5, .returned 0 6, .finished 6, .started 0 6,
        .started 0 5] ∧
      ∀ c, starts c s.log ≤ 1 := by
  have hrun : OnceRun (fun _ => 0) [.call 0 5, .advance 0, .advance 0, .call 0 6, .advance 0,
      .advance 0, .finish 0, .advance 0, .finish 0, .advance 0, .call 1 5, .advance 1, .advance 1,
      .advance 1] _ := .of_foldlM (fun _ _ _ => trivial) rfl
  exact ⟨_, _, hrun, rfl, (once_runs_once hrun).1⟩

/-- While a routine is running no other thread runs one, and the calls of all other threads
wait, whatever their control is. -/
theorem once_serializes (hrun : OnceRun control es s) {t : Thread} {c : Address}
    (ht : .running c ∈ s.stack t) :
    (∀ u c', .running c' ∈ s.stack u → u = t) ∧
      (∀ u frame, u ≠ t → frame ∈ s.stack u → ∃ c', frame = .waiting c') ∧
      ∀ u c' rest, u ≠ t → s.stack u = .waiting c' :: rest →
        OnceEvent.step s (.advance u) = .error .blocked := by
  have h := onceLocked_of_run hrun
  refine ⟨fun u c' hu => h.unique hu rfl ht rfl, fun u frame hut hu => ?_,
    fun u c' rest hut hstack => ?_⟩
  · cases frame with
    | waiting c' => exact ⟨c', rfl⟩
    | _ => exact absurd (h.unique hu rfl ht rfl) hut
  · simp only [OnceEvent.step, hstack, Mutex.apply_lock_blocked (h.depth_ne_zero ht rfl) hut]
    rfl

theorem once_serializes_other_control :
    ∃ es s, OnceRun (fun _ => 0) es s ∧ .running 5 ∈ s.stack 0 ∧ s.stack 1 = [.waiting 6] ∧
      OnceEvent.step s (.advance 1) = .error .blocked := by
  have hrun : OnceRun (fun _ => 0) [.call 0 5, .advance 0, .advance 0, .call 1 6] _ :=
    .of_foldlM (fun _ _ _ => trivial) rfl
  exact ⟨_, _, hrun, List.mem_cons_self, rfl,
    (once_serializes hrun (t := 0) (c := 5) List.mem_cons_self).2.2 1 6 [] (by decide) rfl⟩

/-- The calls themselves do not get stuck: as long as there is one, a thread can go on, or is
in its routine. -/
theorem once_not_stuck (hrun : OnceRun control es s) {t : Thread} (ht : s.stack t ≠ []) :
    ∃ u s', OnceEvent.step s (.advance u) = .ok s' ∨ OnceEvent.step s (.finish u) = .ok s' := by
  have h := onceLocked_of_run hrun
  by_cases hheld : ∃ u, s.mutex.depth u ≠ 0
  · obtain ⟨u, hu⟩ := hheld
    have hstack : s.stack u ≠ [] := by
      intro hnil
      rw [h.depth u, hnil] at hu
      exact hu rfl
    exact ⟨u, h.exists_step hstack fun v hv => Mutex.depth_eq_zero hu hv⟩
  · push Not at hheld
    exact ⟨t, h.exists_step ht fun u _ => hheld u⟩

theorem once_not_stuck_contended :
    ∃ es s, OnceRun (fun _ => 0) es s ∧ s.stack 1 = [.waiting 6] ∧
      ∃ u s', OnceEvent.step s (.advance u) = .ok s' ∨ OnceEvent.step s (.finish u) = .ok s' := by
  have hrun : OnceRun (fun _ => 0) [.call 0 5, .advance 0, .advance 0, .call 1 6] _ :=
    .of_foldlM (fun _ _ _ => trivial) rfl
  exact ⟨_, _, hrun, rfl, once_not_stuck hrun (t := 1) (List.cons_ne_nil _ _)⟩

end Runs

end Sober.Shim
