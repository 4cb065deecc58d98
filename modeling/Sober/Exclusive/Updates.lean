import Sober.Exclusive.Reservation

/-! # No update is lost

A cell that the guest changes only by load-exclusive, compute, store-exclusive holds,
in every interleaving, the result of as many updates as stores succeeded. The exception is
the callback for 128-bit stores, which does not compare.
-/
namespace Sober
open Machine Transition

section Cell
variable (f : List Byte → List Byte) (cell : Word) (size : ExclusiveSize)

/-- The value of a store to the cell was computed from the processor's last load. -/
def Computed (load : Option ExclusiveLoad) (value : List Byte) : Prop :=
  ∀ l, load = some l → l.vaddr = cell → l.size = size ∧ value = f l.value

/-- A store-exclusive misses the cell or updates it as a whole. -/
def UpdatesCell (load : Option ExclusiveLoad) (vaddr : Word) (width : ExclusiveSize)
    (value : List Byte) : Prop :=
  BytesApart cell size.bytes vaddr width.bytes ∨
    vaddr = cell ∧ width = size ∧ Computed f cell size load value

/-- The guest's part: other stores miss the cell, and the stub for 128-bit stores is not
reached. -/
def ExclusiveEvent.Updates (s : ExclusiveSystem) : ExclusiveEvent → Prop
  | startRead p vaddr width => (ExclusiveEvent.startRead p vaddr width).WellFormed
  | startWrite p vaddr width value => (ExclusiveEvent.startWrite p vaddr width value).WellFormed ∧
      UpdatesCell f cell size (s.processors p).load vaddr width value
  | advance _ fastmem => size = .bits128 → fastmem = true
  | clear _ => True
  | store vaddr value => BytesApart cell size.bytes vaddr value.length

def updates (log : List ExclusiveStore) : ℕ :=
  log.countP fun r => r.vaddr = cell ∧ r.size = size

def ExclusiveProcessor.Intends (c : ExclusiveProcessor) : Prop :=
  ∀ vaddr width value next, c.phase = .write vaddr width value next →
    UpdatesCell f cell size c.load vaddr width value

/-- The cell is as many updates away from its first value as stores succeeded. -/
structure CellInvariant (first : List Byte) (s : ExclusiveSystem) : Prop where
  intends : ∀ p, (s.processors p).Intends f cell size
  value : readBytes s.memory cell size.bytes = f^[updates cell size s.log] first

end Cell

theorem ExclusiveEvent.Updates.wellFormed {f : List Byte → List Byte} {cell : Word}
    {size : ExclusiveSize} {s : ExclusiveSystem} {e : ExclusiveEvent}
    (h : e.Updates f cell size s) : e.WellFormed := by
  cases e with
  | startRead p vaddr width => exact h
  | startWrite p vaddr width value => exact h.1
  | _ => trivial

theorem UpdatesCell.none {f : List Byte → List Byte} {cell vaddr : Word}
    {size width : ExclusiveSize} {load : Option ExclusiveLoad} {value : List Byte}
    (h : UpdatesCell f cell size load vaddr width value) :
    UpdatesCell f cell size none vaddr width value := by
  rcases h with hapart | ⟨hvaddr, hwidth, -⟩
  · exact .inl hapart
  · refine .inr ⟨hvaddr, hwidth, ?_⟩
    rintro l ⟨⟩

section Steps
variable {f : List Byte → List Byte} {cell : Word} {size : ExclusiveSize} {first : List Byte}
  {s : ExclusiveSystem} {p : ProcessorId}

namespace CellInvariant

/-- Only processor `p` changes, and neither memory nor the log. -/
theorem frame (h : CellInvariant f cell size first s) (p : ProcessorId) {s' : ExclusiveSystem}
    (hmemory : s'.memory = s.memory) (hlog : s'.log = s.log)
    (hother : ∀ q, q ≠ p → s'.processors q = s.processors q)
    (hp : (s'.processors p).Intends f cell size) : CellInvariant f cell size first s' where
  intends q := by
    by_cases hq : q = p
    · exact hq ▸ hp
    · exact hother q hq ▸ h.intends q
  value := by rw [hmemory, hlog, h.value]

theorem setProcessor (h : CellInvariant f cell size first s) {c : ExclusiveProcessor}
    (hc : c.Intends f cell size) : CellInvariant f cell size first (s.setProcessor p c) :=
  h.frame p rfl rfl (fun q hq => by simp [ExclusiveSystem.setProcessor, hq])
    (by simpa [ExclusiveSystem.setProcessor] using hc)

end CellInvariant

theorem ExclusiveProcessor.Intends.of_not_write {c : ExclusiveProcessor}
    (h : ∀ vaddr width value next, c.phase ≠ .write vaddr width value next) :
    c.Intends f cell size := fun vaddr width value next hphase =>
  (h vaddr width value next hphase).elim

/-- What the steps of a load and all steps of a store but the exchange can do. -/
structure Quiet (p : ProcessorId) (s s' : ExclusiveSystem) : Prop where
  memory : s'.memory = s.memory
  log : s'.log = s.log
  other : ∀ q, q ≠ p → s'.processors q = s.processors q

theorem Quiet.setProcessor (c : ExclusiveProcessor) : Quiet p s (s.setProcessor p c) :=
  ⟨rfl, rfl, fun q hq => by simp [ExclusiveSystem.setProcessor, hq]⟩

theorem Quiet.refl (p : ProcessorId) (s : ExclusiveSystem) : Quiet p s s :=
  ⟨rfl, rfl, fun _ _ => rfl⟩

/-- A processor that takes the lock, or spins, or releases it. -/
theorem emitExclusiveLock_spec (ignoreGlobalMonitor : Bool) (next : ExclusivePhase) :
    Quiet p s (s.emitExclusiveLock ignoreGlobalMonitor p next) ∧
      ((s.emitExclusiveLock ignoreGlobalMonitor p next).processors p = s.processors p ∨
        (s.emitExclusiveLock ignoreGlobalMonitor p next).processors p =
          (s.processors p).goto next) := by
  unfold ExclusiveSystem.emitExclusiveLock
  split_ifs
  · exact ⟨.setProcessor _, .inr (Function.update_self ..)⟩
  · refine ⟨?_, .inr (Function.update_self ..)⟩
    exact ⟨rfl, rfl, (Quiet.setProcessor _).other⟩
  · exact ⟨.refl p s, .inl rfl⟩

theorem emitExclusiveUnlock_spec (ignoreGlobalMonitor : Bool) :
    Quiet p s (s.emitExclusiveUnlock ignoreGlobalMonitor p) ∧
      (s.emitExclusiveUnlock ignoreGlobalMonitor p).processors p =
        (s.processors p).goto .outside := by
  unfold ExclusiveSystem.emitExclusiveUnlock
  split_ifs
  · exact ⟨.setProcessor _, Function.update_self ..⟩
  · refine ⟨?_, Function.update_self ..⟩
    exact ⟨rfl, rfl, (Quiet.setProcessor _).other⟩

theorem readStep_spec (ignoreGlobalMonitor : Bool) {vaddr : Word} {width : ExclusiveSize}
    {next : ExclusiveReadStep} (hphase : (s.processors p).phase = .read vaddr width next) :
    Quiet p s (s.readStep ignoreGlobalMonitor p vaddr width next) ∧
      ∀ vaddr' width' value' next',
        ((s.readStep ignoreGlobalMonitor p vaddr width next).processors p).phase ≠
          .write vaddr' width' value' next' := by
  have hmove (s' : ExclusiveSystem) (phase : ExclusivePhase) (hs' : Quiet p s s') :
      Quiet p s (s'.goto p phase) :=
    ⟨hs'.memory, hs'.log, fun q hq => ((Quiet.setProcessor _).other q hq).trans (hs'.other q hq)⟩
  cases next with
  | lock =>
    obtain ⟨hquiet, hp | hp⟩ := emitExclusiveLock_spec (p := p) (s := s) ignoreGlobalMonitor
      (.read vaddr width .markState)
    · exact ⟨hquiet, by simp [ExclusiveSystem.readStep, hp, hphase]⟩
    · exact ⟨hquiet, by simp [ExclusiveSystem.readStep, hp, ExclusiveProcessor.goto]⟩
  | markState =>
    exact ⟨.setProcessor _, by
      simp [ExclusiveSystem.readStep, ExclusiveSystem.setProcessor, ExclusiveProcessor.goto]⟩
  | markAddress =>
    exact ⟨hmove _ _ ⟨rfl, rfl, fun _ _ => rfl⟩, by
      simp [ExclusiveSystem.readStep, ExclusiveSystem.goto, ExclusiveSystem.setProcessor,
        ExclusiveProcessor.goto]⟩
  | readMemory =>
    exact ⟨.setProcessor _, by
      simp [ExclusiveSystem.readStep, ExclusiveSystem.setProcessor, ExclusiveProcessor.goto]⟩
  | saveValue value =>
    exact ⟨hmove _ _ ⟨rfl, rfl, fun _ _ => rfl⟩, by
      simp [ExclusiveSystem.readStep, ExclusiveSystem.goto, ExclusiveSystem.setProcessor,
        ExclusiveProcessor.goto]⟩
  | unlock value =>
    obtain ⟨hquiet, hp⟩ := emitExclusiveUnlock_spec (p := p) (s := s) ignoreGlobalMonitor
    exact ⟨hquiet, by simp [ExclusiveSystem.readStep, hp, ExclusiveProcessor.goto]⟩

/-- The operands of a store stay what they are until it ends. -/
structure SameStore (vaddr : Word) (width : ExclusiveSize) (value : List Byte)
    (c c' : ExclusiveProcessor) : Prop where
  load : c'.load = c.load
  phase : c'.phase = .outside ∨ ∃ next, c'.phase = .write vaddr width value next

theorem SameStore.of_goto {vaddr : Word} {width : ExclusiveSize} {value : List Byte}
    {c c' : ExclusiveProcessor} {phase : ExclusivePhase} (h : c' = c.goto phase)
    (hphase : phase = .outside ∨ ∃ next, phase = .write vaddr width value next) :
    SameStore vaddr width value c c' := by
  subst h
  exact ⟨rfl, hphase⟩

theorem writeStep_spec (ignoreGlobalMonitor fastmem : Bool) {vaddr : Word} {width : ExclusiveSize}
    {value : List Byte} {next : ExclusiveWriteStep}
    (hphase : (s.processors p).phase = .write vaddr width value next)
    (hnext : ∀ expected, next ≠ .compareExchange expected) :
    Quiet p s (s.writeStep ignoreGlobalMonitor fastmem p vaddr width value next) ∧
      SameStore vaddr width value (s.processors p)
        ((s.writeStep ignoreGlobalMonitor fastmem p vaddr width value next).processors p) := by
  have hgoto (next' : ExclusiveWriteStep) :
      Quiet p s (s.goto p (.write vaddr width value next')) ∧
        SameStore vaddr width value (s.processors p)
          ((s.goto p (.write vaddr width value next')).processors p) :=
    ⟨.setProcessor _, .of_goto (Function.update_self ..) (.inr ⟨next', rfl⟩)⟩
  cases next with
  | lock =>
    obtain ⟨hquiet, hp⟩ := emitExclusiveLock_spec (p := p) (s := s) ignoreGlobalMonitor
      (.write vaddr width value .testState)
    refine ⟨hquiet, ?_⟩
    rcases hp with hp | hp
    · exact ⟨congrArg _ hp, .inr ⟨.lock, (congrArg _ hp).trans hphase⟩⟩
    · exact .of_goto hp (.inr ⟨.testState, rfl⟩)
  | testState =>
    simp only [ExclusiveSystem.writeStep]
    split_ifs <;> exact hgoto _
  | testAddress =>
    simp only [ExclusiveSystem.writeStep]
    split_ifs <;> exact hgoto _
  | testAndClear j =>
    simp only [ExclusiveSystem.writeStep]
    split_ifs
    · obtain ⟨hquiet, hsame⟩ := hgoto (.testAndClear (j + 1))
      exact ⟨⟨rfl, rfl, hquiet.other⟩, hsame⟩
    · exact hgoto _
    · exact hgoto _
  | clearState =>
    refine ⟨.setProcessor _, ?_⟩
    have hp : (s.writeStep ignoreGlobalMonitor fastmem p vaddr width value .clearState).processors
        p = ((s.processors p).setState false).goto (.write vaddr width value .loadExpected) :=
      Function.update_self ..
    exact hp ▸ ⟨rfl, .inr ⟨.loadExpected, rfl⟩⟩
  | loadExpected => exact hgoto _
  | compareExchange expected => exact (hnext expected rfl).elim
  | unlock status =>
    obtain ⟨hquiet, hp⟩ := emitExclusiveUnlock_spec (p := p) (s := s) ignoreGlobalMonitor
    exact ⟨hquiet, .of_goto hp (.inl rfl)⟩

namespace CellInvariant

theorem quiet (h : CellInvariant f cell size first s) {s' : ExclusiveSystem} {vaddr : Word}
    {width : ExclusiveSize} {value : List Byte} {next : ExclusiveWriteStep}
    (hphase : (s.processors p).phase = .write vaddr width value next) (hquiet : Quiet p s s')
    (hsame : SameStore vaddr width value (s.processors p) (s'.processors p)) :
    CellInvariant f cell size first s' := by
  refine h.frame p hquiet.memory hquiet.log hquiet.other ?_
  intro vaddr' width' value' next' hphase'
  rcases hsame.phase with hout | ⟨next'', hwrite⟩
  · rw [hout] at hphase'
    cases hphase'
  · rw [hwrite] at hphase'
    cases hphase'
    exact hsame.load ▸ h.intends p _ _ _ _ hphase

/-- A store that misses the cell leaves it and its count alone. -/
theorem apart_ne {vaddr : Word} {width : ExclusiveSize}
    (hapart : BytesApart cell size.bytes vaddr width.bytes) : ¬ (vaddr = cell ∧ width = size) := by
  rintro ⟨rfl, rfl⟩
  have hpos : 0 < width.bytes := by cases width <;> decide
  have hzero := hapart 0 hpos
  simp at hzero
  omega

theorem commit {ignoreGlobalMonitor : Bool} (hinv : ExclusiveInvariant ignoreGlobalMonitor s)
    (h : CellInvariant f cell size first s) {vaddr : Word} {width : ExclusiveSize}
    {value expected : List Byte}
    (hphase : (s.processors p).phase = .write vaddr width value (.compareExchange expected))
    {compared : Bool} (hsize : width = size → compared = true)
    (hcompared : compared = true → readBytes s.memory vaddr width.bytes = expected) :
    CellInvariant f cell size first (s.commit compared p vaddr width value) := by
  have hintends := h.intends p _ _ _ _ hphase
  have hok := hinv.ok p
  rw [hphase] at hok
  obtain ⟨-, hlength, -, load, hload, hvaddr, hexpected, -⟩ := hok
  constructor
  · intro q
    by_cases hq : q = p
    · subst hq
      intro vaddr' width' value' next' hphase'
      simp only [ExclusiveSystem.commit, Function.update_self, ExclusiveProcessor.goto] at hphase'
      cases hphase'
      simpa [ExclusiveSystem.commit, ExclusiveProcessor.goto, ExclusiveProcessor.setLoad]
        using hintends.none
    · simpa [ExclusiveSystem.commit, hq, ExclusiveProcessor.overtake,
        ExclusiveProcessor.Intends] using h.intends q
  · rcases hintends with hapart | ⟨rfl, rfl, hvalue⟩
    · have hread : readBytes (writeBytes s.memory vaddr value) cell size.bytes =
          readBytes s.memory cell size.bytes := readBytes_writeBytes_of_apart (hlength ▸ hapart)
      have hcount : updates cell size (s.commit compared p vaddr width value).log =
          updates cell size s.log := by
        simp [updates, ExclusiveSystem.commit, apart_ne hapart]
      rw [hcount, ← h.value]
      exact hread
    · -- the cell holds what the processor loaded, and gets the update of it
      obtain ⟨hwidth, hf⟩ := hvalue load hload hvaddr
      have hcount : updates vaddr width (s.commit compared p vaddr width value).log =
          updates vaddr width s.log + 1 := by
        simp [updates, ExclusiveSystem.commit]
      have hread : readBytes (writeBytes s.memory vaddr value) vaddr width.bytes = value := by
        rw [← hlength]
        apply readBytes_writeBytes
        rw [hlength]
        cases width <;> decide
      have hold : readBytes s.memory vaddr width.bytes = load.value :=
        (hcompared (hsize rfl)).trans (hexpected hwidth)
      calc readBytes (writeBytes s.memory vaddr value) vaddr width.bytes
          = value := hread
        _ = f (readBytes s.memory vaddr width.bytes) := by rw [hf, hold]
        _ = f (f^[updates vaddr width s.log] first) := by rw [h.value]
        _ = f^[updates vaddr width s.log + 1] first :=
          (Function.iterate_succ_apply' f _ first).symm
        _ = f^[updates vaddr width (s.commit compared p vaddr width value).log] first := by
          rw [hcount]

theorem step {ignoreGlobalMonitor : Bool} {e : ExclusiveEvent} {s' : ExclusiveSystem}
    (hinv : ExclusiveInvariant ignoreGlobalMonitor s) (h : CellInvariant f cell size first s)
    (hupdates : e.Updates f cell size s) (hstep : e.step ignoreGlobalMonitor s = .ok s') :
    CellInvariant f cell size first s' := by
  cases e with
  | startRead p vaddr width =>
    cases hphase : (s.processors p).phase with
    | outside =>
      simp only [ExclusiveEvent.step, hphase, Except.ok.injEq] at hstep
      refine hstep ▸ h.setProcessor (.of_not_write ?_)
      simp [ExclusiveProcessor.goto]
    | _ => simp [ExclusiveEvent.step, hphase] at hstep
  | startWrite p vaddr width value =>
    cases hphase : (s.processors p).phase with
    | outside =>
      simp only [ExclusiveEvent.step, hphase, Except.ok.injEq] at hstep
      refine hstep ▸ h.setProcessor ?_
      intro vaddr' width' value' next' hphase'
      cases hphase'
      exact hupdates.2
    | _ => simp [ExclusiveEvent.step, hphase] at hstep
  | advance p fastmem =>
    cases hphase : (s.processors p).phase with
    | outside => simp [ExclusiveEvent.step, hphase] at hstep
    | read vaddr width next =>
      simp only [ExclusiveEvent.step, hphase, Except.ok.injEq] at hstep
      obtain ⟨hquiet, hwrite⟩ := readStep_spec ignoreGlobalMonitor hphase
      exact hstep ▸ h.frame p hquiet.memory hquiet.log hquiet.other (.of_not_write hwrite)
    | write vaddr width value next =>
      simp only [ExclusiveEvent.step, hphase, Except.ok.injEq] at hstep
      subst hstep
      by_cases hnext : ∃ expected, next = .compareExchange expected
      · obtain ⟨expected, rfl⟩ := hnext
        simp only [ExclusiveSystem.writeStep, ExclusiveSystem.compareExchange]
        split_ifs with hstub hequal
        · refine commit hinv h hphase (fun hsize => ?_) (by simp)
          have hfast := hupdates (hsize ▸ hstub.2)
          rw [hstub.1] at hfast
          exact hfast
        · exact commit hinv h hphase (fun _ => rfl) fun _ => hequal
        · refine h.setProcessor ?_
          intro vaddr' width' value' next' hphase'
          cases hphase'
          exact (h.intends p _ _ _ _ hphase).none
      · rw [not_exists] at hnext
        obtain ⟨hquiet, hsame⟩ := writeStep_spec ignoreGlobalMonitor fastmem hphase hnext
        exact h.quiet hphase hquiet hsame
  | clear p =>
    cases hphase : (s.processors p).phase with
    | outside =>
      simp only [ExclusiveEvent.step, hphase, Except.ok.injEq] at hstep
      refine hstep ▸ h.setProcessor (.of_not_write ?_)
      simp [ExclusiveProcessor.setLoad, ExclusiveProcessor.setState, hphase]
    | _ => simp [ExclusiveEvent.step, hphase] at hstep
  | store vaddr value =>
    simp only [ExclusiveEvent.step, Except.ok.injEq] at hstep
    subst hstep
    exact ⟨h.intends, (readBytes_writeBytes_of_apart hupdates).trans h.value⟩

end CellInvariant
end Steps

/-- However the processors interleave, a cell that is changed by load-exclusive, `f` and
store-exclusive only has gone through as many updates as stores succeeded. -/
theorem exclusive_updates_not_lost {ignoreGlobalMonitor : Bool} {memory : Memory}
    {f : List Byte → List Byte} {cell : Word} {size : ExclusiveSize}
    {events : List ExclusiveEvent} {s : ExclusiveSystem}
    (hrun : Run (ExclusiveEvent.step ignoreGlobalMonitor) (ExclusiveEvent.Updates f cell size)
      (.initial memory) events s) :
    readBytes s.memory cell size.bytes =
      f^[updates cell size s.log] (readBytes memory cell size.bytes) := by
  have hstart : CellInvariant f cell size (readBytes memory cell size.bytes)
      (.initial memory) := by
    refine ⟨fun p => .of_not_write ?_, rfl⟩
    rintro vaddr width value next ⟨⟩
  have hboth := hrun.invariant
    (I := fun s => ExclusiveInvariant ignoreGlobalMonitor s ∧
      CellInvariant f cell size (readBytes memory cell size.bytes) s)
    (fun _ _ _ h ha hs => ⟨h.1.step ha.wellFormed hs, h.2.step h.1 ha hs⟩)
    ⟨.initial memory, hstart⟩
  exact hboth.2.value

/-- Two processors load the same byte; the second store fails, and one update is made. -/
theorem exclusive_updates_not_lost_contended :
    ∃ (events : List ExclusiveEvent) (s : ExclusiveSystem),
      Run (ExclusiveEvent.step true) (ExclusiveEvent.Updates (List.map (· + 1)) 0x1000 .bits8)
        (.initial fun _ => 41) events s ∧
      updates 0x1000 .bits8 s.log = 1 ∧
      readBytes s.memory 0x1000 1 = (List.map (· + 1))^[updates 0x1000 .bits8 s.log] [41] := by
  let loads : List ExclusiveEvent :=
    .startRead 0 0x1000 .bits8 :: List.replicate 6 (.advance 0 true) ++
      .startRead 1 0x1000 .bits8 :: List.replicate 6 (.advance 1 true)
  have hloads : Run (ExclusiveEvent.step true)
      (ExclusiveEvent.Updates (List.map (· + 1)) 0x1000 .bits8) (.initial fun _ => 41) loads _ :=
    .of_foldlM (by simp [loads, ExclusiveEvent.Updates, ExclusiveEvent.WellFormed,
      invalidExclusiveAddress]) rfl
  have hcomputed :
      Computed (List.map (· + 1)) 0x1000 .bits8 (some ⟨0x1000, .bits8, [41]⟩) [42] := by
    rintro l ⟨⟩ -
    exact ⟨rfl, rfl⟩
  have hstart (s : ExclusiveSystem) (p : ProcessorId)
      (hload : (s.processors p).load = some ⟨0x1000, .bits8, [41]⟩) :
      (ExclusiveEvent.startWrite p 0x1000 .bits8 [42]).Updates (List.map (· + 1)) 0x1000 .bits8 s :=
    ⟨⟨by decide, rfl⟩, .inr ⟨rfl, rfl, hload ▸ hcomputed⟩⟩
  have hadvance (p : ProcessorId) : ∀ e ∈ List.replicate 7 (ExclusiveEvent.advance p true), ∀ s,
      e.Updates (List.map (· + 1)) 0x1000 .bits8 s := by
    simp [ExclusiveEvent.Updates]
  have hrun := hloads.append
    (.cons (hstart _ 0 rfl) rfl ((Run.of_foldlM (hadvance 0) rfl).append
      (.cons (hstart _ 1 rfl) rfl (.of_foldlM (hadvance 1) rfl))))
  exact ⟨_, _, hrun, rfl, exclusive_updates_not_lost hrun⟩

section Stub
variable {s : ExclusiveSystem} {p : ProcessorId} {cell : Word}

/-- After a whole 128-bit store that ended in the stub. -/
def ExclusiveSystem.stored (s : ExclusiveSystem) (p : ProcessorId) (cell : Word)
    (value : List Byte) : ExclusiveSystem :=
  (s.commit false p cell .bits128 value).setProcessor p ⟨false, .outside, none, false⟩

end Stub

end Sober
