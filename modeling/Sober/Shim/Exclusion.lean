import Sober.Shim.Rwlock

/-! # Exclusion

What the guest may conclude from the results of its calls. -/
namespace Sober.Shim
open Transition Sync

variable {Op Attr Obj : Type} {P : Primitive Op Attr Obj} {initValue : Address → ℕ}
  {s : ShimState Op Attr Obj} {t : Thread} {m : Address} {op : Op} {r : Result} {obj obj' : Obj}

section Calls

/-- The state after a call of one thread that got the host's object `i`. -/
def ShimState.called (s : ShimState Op Attr Obj) (t : Thread) (m : Address) (i : ℕ) (obj : Obj)
    (op : Op) (result : ℕ) : ShimState Op Attr Obj :=
  { s with
    host := Function.update s.host i (.live obj)
    pc := Function.update s.pc t .idle
    log := .returned t m op result :: .handed t m i :: s.log }

/-- The first call on an object, with nobody else in the shim. -/
theorem run_first_call (hidle : ∀ u, s.pc u = .idle) (hguard : s.guard = none)
    (hwrapped : (s.wrappers m).wrapped = none) (hlog : destroyedIn m s.log = false)
    (hcall : P.call t op (P.create (P.static (s.wrappers m).initValue)) = .ok (r, obj)) :
    Run (ShimEvent.step P) (Careful P) s
      (.call t m (.op op) :: List.replicate 7 (.advance t))
      ((s.publish m).called t m s.next obj op (P.report op r)) := by
  have hmaking : ∀ u, (s.pc u).making ≠ some m := by simp [hidle, Pc.making]
  have henter : (ShimEvent.call t m (.op op)).step P s = .ok (s.goto t (.waiting m op)) := by
    simp [ShimEvent.step, hidle, ShimState.enter, hwrapped]
  refine .cons ⟨hlog, hmaking⟩ henter (Run.of_foldlM ?_ ?_)
  · simp [Careful]
  · simp [List.replicate, ShimEvent.step, ShimState.advance, ShimState.callHost, ShimState.goto,
      ShimState.publish, ShimState.setHost, ShimState.write, ShimState.called, hguard, hwrapped,
      hcall, bind, Except.bind, pure, Except.pure]

/-- A call on an object that is there, with nobody making it. -/
theorem run_next_call (hidle : ∀ u, s.pc u = .idle) {i : ℕ}
    (hwrapped : (s.wrappers m).wrapped = some i) (hhost : s.host i = .live obj)
    (hlog : destroyedIn m s.log = false) (hcall : P.call t op obj = .ok (r, obj')) :
    Run (ShimEvent.step P) (Careful P) s
      [.call t m (.op op), .advance t, .advance t]
      (s.called t m i obj' op (P.report op r)) := by
  have hmaking : ∀ u, (s.pc u).making ≠ some m := by simp [hidle, Pc.making]
  have henter : (ShimEvent.call t m (.op op)).step P s = .ok (s.goto t (.reading m op)) := by
    simp [ShimEvent.step, hidle, ShimState.enter, hwrapped]
  refine .cons ⟨hlog, hmaking⟩ henter (Run.of_foldlM ?_ ?_)
  · simp [Careful]
  · simp [ShimEvent.step, ShimState.advance, ShimState.callHost, ShimState.goto,
      ShimState.setHost, ShimState.write, ShimState.called, hwrapped, hhost, hcall, bind,
      Except.bind, pure, Except.pure]

/-- No thread is in the shim, and the object is there. -/
structure Resting (s : ShimState Op Attr Obj) (m : Address) (obj : Obj) : Prop where
  idle : ∀ u, s.pc u = .idle
  log : destroyedIn m s.log = false
  live : ∃ i, (s.wrappers m).wrapped = some i ∧ s.host i = .live obj

theorem resting_called (hidle : ∀ u, s.pc u = .idle) (hlog : destroyedIn m s.log = false) {i : ℕ}
    (hwrapped : (s.wrappers m).wrapped = some i) (result : ℕ) :
    Resting (s.called t m i obj op result) m obj where
  idle u := by simp only [ShimState.called, Function.update_apply, hidle, ite_self]
  log := hlog
  live := ⟨i, hwrapped, Function.update_self ..⟩

theorem resting_first (initValue : Address → ℕ)
    (hcall : P.call t op (P.create (P.static (initValue m))) = .ok (r, obj)) :
    ∃ s i, Run (ShimEvent.step P) (Careful P) (.initial initValue)
        (.call t m (.op op) :: List.replicate 7 (.advance t)) s ∧
      Resting s m obj ∧ s.log = [.returned t m op (P.report op r), .handed t m i] := by
  have hwrapped : ((ShimState.publish (.initial initValue : ShimState Op Attr Obj) m).wrappers
      m).wrapped = some 0 := by
    simp [ShimState.publish, ShimState.initial]
  exact ⟨_, 0, run_first_call (fun _ => rfl) rfl rfl rfl hcall,
    resting_called (fun _ => rfl) rfl hwrapped _, rfl⟩

theorem Resting.next (h : Resting s m obj) (hcall : P.call t op obj = .ok (r, obj')) :
    ∃ s' i, Run (ShimEvent.step P) (Careful P) s [.call t m (.op op), .advance t, .advance t] s' ∧
      Resting s' m obj' ∧ s'.log = .returned t m op (P.report op r) :: .handed t m i :: s.log := by
  obtain ⟨i, hwrapped, hhost⟩ := h.live
  exact ⟨_, i, run_next_call h.idle hwrapped hhost h.log hcall,
    resting_called h.idle h.log hwrapped _, rfl⟩

end Calls

section Guarantees

variable {es : List (ShimEvent Op Attr)}

/-- Every run in which the guest follows the rules, and no thread comes to an object that is
being made, is a history of objects that were there from the start. No step of it follows a
pointer to an object that is not there. -/
theorem calls_take_effect_at_once
    (hrun : Run (ShimEvent.step P) (Careful P) (.initial initValue) es s) :
    (replay P initValue s.log).isSome = true ∧
      ∀ e fault, ShimEvent.step P s e = .error fault → fault.isWild = false := by
  obtain ⟨objects, hreplay, -⟩ := (explained_of_run hrun).replay
  refine ⟨by rw [hreplay]; rfl, fun e fault hstep => ?_⟩
  exact (sound_of_run hrun).not_wild hstep

/-- Two threads come to a new mutex at the same time, and both want it. -/
theorem calls_take_effect_at_once_contended :
    ∃ s, Run (ShimEvent.step mutexPrimitive) (Careful mutexPrimitive) (.initial fun _ => 0)
        ([.call 0 7 (.op .trylock), .call 1 7 (.op .trylock)] ++
          (List.replicate 7 (.advance 0) ++ List.replicate 5 (.advance 1))) s ∧
      s.log = [.returned 1 7 .trylock 16, .handed 1 7 0, .returned 0 7 .trylock 0, .handed 0 7 0] ∧
      (replay mutexPrimitive (fun _ => 0) s.log).isSome = true ∧
      ∀ e fault, ShimEvent.step mutexPrimitive s e = .error fault → fault.isWild = false := by
  have hnobody : ∀ u : Thread, ((Function.update (fun _ => .idle) 0 (.waiting 7 .trylock) :
      Thread → Pc Mutex.Op Kind) u).making ≠ some 7 := by
    intro u
    rw [Function.update_apply]
    split_ifs <;> simp [Pc.making]
  have hnext : Run (ShimEvent.step mutexPrimitive) (Careful mutexPrimitive)
      (ShimState.enter (.initial fun _ => 0) 0 7 (.op .trylock)) (.call 1 7 (.op .trylock) ::
        (List.replicate 7 (.advance 0) ++ List.replicate 5 (.advance 1))) _ :=
    .cons ⟨rfl, hnobody⟩ rfl (.of_foldlM (by simp [Careful]) rfl)
  have hrun : Run (ShimEvent.step mutexPrimitive) (Careful mutexPrimitive)
      (.initial fun _ => 0) (.call 0 7 (.op .trylock) :: _) _ :=
    .cons ⟨rfl, fun _ => nofun⟩ rfl hnext
  exact ⟨_, hrun, rfl, calls_take_effect_at_once hrun⟩

end Guarantees

section Mutexes

variable {es : List (ShimEvent Mutex.Op Kind)} {s : ShimState Mutex.Op Kind (Mutex Thread)}

/-- A mutex that checks for errors is locked twice by one thread. The second call returns 0
and does nothing, so after one `unlock` the thread still seems to have it when another one
gets it. -/
theorem errorcheck_not_exclusive (hinit : initValue m = errorcheckMutexInitValue) {t u : Thread}
    (htu : t ≠ u) :
    ∃ es s, Run (ShimEvent.step mutexPrimitive) (Careful mutexPrimitive) (.initial initValue) es s ∧
      lockDepth t m s.log = 1 ∧ lockDepth u m s.log = 1 := by
  have hkind : staticMutexKind (initValue m) = .errorcheck := by rw [hinit]; rfl
  have hlocked : mutexPrimitive.call t .lock
      (mutexPrimitive.create (staticMutexKind (initValue m))) =
        .ok (.ok, ⟨.errorcheck, some (t, 1)⟩) := by rw [hkind]; rfl
  have hrefused : mutexPrimitive.call t .lock ⟨.errorcheck, some (t, 1)⟩ =
      .ok (.deadlock, ⟨.errorcheck, some (t, 1)⟩) := by simp [mutexPrimitive, Mutex.apply]
  have hunlocked : mutexPrimitive.call t .unlock ⟨.errorcheck, some (t, 1)⟩ =
      .ok (.ok, ⟨.errorcheck, none⟩) := by simp [mutexPrimitive, Mutex.apply, Mutex.release]
  have hlocked' : mutexPrimitive.call u .lock ⟨.errorcheck, none⟩ =
      .ok (.ok, ⟨.errorcheck, some (u, 1)⟩) := rfl
  obtain ⟨s₁, i₁, hrun₁, hrest₁, hlog₁⟩ := resting_first (m := m) initValue hlocked
  obtain ⟨s₂, i₂, hrun₂, hrest₂, hlog₂⟩ := hrest₁.next hrefused
  obtain ⟨s₃, i₃, hrun₃, hrest₃, hlog₃⟩ := hrest₂.next hunlocked
  obtain ⟨s₄, i₄, hrun₄, -, hlog₄⟩ := hrest₃.next hlocked'
  refine ⟨_, s₄, ((hrun₁.append hrun₂).append hrun₃).append hrun₄, ?_, ?_⟩
  · simp [hlog₄, hlog₃, hlog₂, hlog₁, lockDepth, tally, Mutex.Op.count, mutexPrimitive,
      reportMutex, errnoOf, htu.symm]
  · simp [hlog₄, hlog₃, hlog₂, hlog₁, lockDepth, tally, Mutex.Op.count, mutexPrimitive,
      reportMutex, errnoOf, htu]

theorem errorcheck_not_exclusive_zero_one :
    ∃ es s, Run (ShimEvent.step mutexPrimitive) (Careful mutexPrimitive)
        (.initial fun _ => errorcheckMutexInitValue) es s ∧
      lockDepth 0 7 s.log = 1 ∧ lockDepth 1 7 s.log = 1 :=
  errorcheck_not_exclusive rfl Nat.zero_ne_one

end Mutexes

section Rwlocks

variable {es : List (ShimEvent Rwlock.Op Unit)} {s : ShimState Rwlock.Op Unit (Rwlock Thread)}

/-- A thread that has a read-write lock for writing, by what the calls returned, is the only
one that has it, and does not have it for reading. -/
theorem rwlock_exclusive
    (hrun : Run (ShimEvent.step rwlockPrimitive) (Careful rwlockPrimitive) (.initial initValue)
      es s) {t : Thread} (ht : (lockHold t m s.log).writes = true) (u : Thread) :
    lockHold u m s.log = ⟨decide (u = t), 0⟩ := by
  obtain ⟨objects, hreplay, -⟩ := (explained_of_run hrun).replay
  exact (holds_of_replay hreplay).exclusive ht u

theorem rwlock_exclusive_tryrdlock :
    ∃ es s, Run (ShimEvent.step rwlockPrimitive) (Careful rwlockPrimitive)
        (.initial fun _ => 0) es s ∧
      Record.returned 1 7 .tryrdlock 16 ∈ s.log ∧
      lockHold 0 7 s.log = ⟨true, 0⟩ ∧ lockHold 1 7 s.log = ⟨false, 0⟩ := by
  have hlocked : rwlockPrimitive.call 0 .wrlock (rwlockPrimitive.create ()) =
      .ok (.ok, ⟨some 0, []⟩) := rfl
  have hbusy : rwlockPrimitive.call 1 .tryrdlock ⟨some 0, []⟩ = .ok (.busy, ⟨some 0, []⟩) := rfl
  obtain ⟨s₁, i₁, hrun₁, hrest₁, hlog₁⟩ := resting_first (m := 7) (fun _ => 0) hlocked
  obtain ⟨s₂, i₂, hrun₂, -, hlog₂⟩ := hrest₁.next hbusy
  rw [hlog₁] at hlog₂
  have hwrites : (lockHold 0 7 s₂.log).writes = true := by
    rw [hlog₂]
    rfl
  have hholds := rwlock_exclusive (hrun₁.append hrun₂) hwrites
  exact ⟨_, s₂, hrun₁.append hrun₂, by rw [hlog₂]; exact List.mem_cons_self, hholds 0, hholds 1⟩

end Rwlocks

end Sober.Shim
