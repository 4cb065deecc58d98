import Sober.Exclusive.Access

/-! # A store-exclusive replaces what its load returned

The slot of a processor is written by its own loads only, or emptied under the lock by
the store of another processor. So the value that a store-exclusive expects in memory
is the one that the processor's last exclusive load returned.
-/
namespace Sober
open Machine Transition

section Phases
variable (ignoreGlobalMonitor : Bool)

/-- The slot holds the last exclusive load. Its address is gone if the monitor is in use
and another store overtook the load. -/
def Reserved (c : ExclusiveProcessor) (address : Word) (saved : List Byte) : Prop :=
  ∃ load, c.load = some load ∧ load.vaddr ≠ invalidExclusiveAddress ∧
    saved.take load.size.bytes = load.value ∧
    (address = load.vaddr ∨ address = invalidExclusiveAddress) ∧
    (ignoreGlobalMonitor = false → c.overtaken = true → address ≠ load.vaddr)

def Resting (c : ExclusiveProcessor) (address : Word) (saved : List Byte) : Prop :=
  c.exclusiveState = true → Reserved ignoreGlobalMonitor c address saved

def ExclusiveReadStep.Ok (c : ExclusiveProcessor) (address : Word) (saved : List Byte)
    (vaddr : Word) (size : ExclusiveSize) : ExclusiveReadStep → Prop
  | lock => Resting ignoreGlobalMonitor c address saved
  | markState => True
  | markAddress => True
  | readMemory => address = vaddr
  | saveValue value =>
    address = vaddr ∧ c.load = some ⟨vaddr, size, value⟩ ∧ value.length = size.bytes ∧
      (ignoreGlobalMonitor = false → c.overtaken = false)
  | unlock _ => Resting ignoreGlobalMonitor c address saved

def ExclusiveWriteStep.Ok (c : ExclusiveProcessor) (address : Word) (saved : List Byte)
    (vaddr : Word) (size : ExclusiveSize) : ExclusiveWriteStep → Prop
  | lock => Resting ignoreGlobalMonitor c address saved
  | testState => Resting ignoreGlobalMonitor c address saved
  | testAddress => Reserved ignoreGlobalMonitor c address saved
  | testAndClear _ => ignoreGlobalMonitor = false ∧
      Reserved ignoreGlobalMonitor c address saved ∧ address = vaddr
  | clearState => Reserved ignoreGlobalMonitor c address saved ∧ address = vaddr
  | loadExpected =>
    Reserved ignoreGlobalMonitor c address saved ∧ address = vaddr ∧ c.exclusiveState = false
  | compareExchange expected =>
    c.exclusiveState = false ∧ ∃ load, c.load = some load ∧ load.vaddr = vaddr ∧
      (load.size = size → expected = load.value) ∧
      (ignoreGlobalMonitor = false → c.overtaken = false)
  | unlock _ => Resting ignoreGlobalMonitor c address saved

/-- What holds of a processor at its place in the code. -/
def ExclusivePhase.Ok (c : ExclusiveProcessor) (address : Word) (saved : List Byte) :
    ExclusivePhase → Prop
  | outside => Resting ignoreGlobalMonitor c address saved
  | read vaddr size next => vaddr ≠ invalidExclusiveAddress ∧
      next.Ok ignoreGlobalMonitor c address saved vaddr size
  | write vaddr size value next => vaddr ≠ invalidExclusiveAddress ∧
      value.length = size.bytes ∧ next.Ok ignoreGlobalMonitor c address saved vaddr size

end Phases

/-- The processor is between taking and releasing the monitor's lock. -/
def ExclusivePhase.Locked : ExclusivePhase → Prop
  | outside => False
  | read _ _ .lock => False
  | read _ _ _ => True
  | write _ _ _ .lock => False
  | write _ _ _ _ => True

/-- The slot of `q` was compared with the address of the store under way. -/
def ExclusivePhase.Clears (q : ProcessorId) (address : Word) : ExclusivePhase → Prop
  | write vaddr _ _ (.testAndClear j) => vaddr = address ∧ q.val < j
  | write vaddr _ _ .clearState => vaddr = address
  | write vaddr _ _ .loadExpected => vaddr = address
  | write vaddr _ _ (.compareExchange _) => vaddr = address
  | _ => False

/-- The store went to the address of the processor's last load and, if the widths agree,
replaced what that load had returned. The monitor rules out stores in between. -/
def ExclusiveStore.Sound (ignoreGlobalMonitor : Bool) (r : ExclusiveStore) : Prop :=
  ∃ load, r.load = some load ∧ load.vaddr = r.vaddr ∧
    (r.compared = true → load.size = r.size → r.replaced = load.value) ∧
    (ignoreGlobalMonitor = false → r.overtaken = false)

structure ExclusiveInvariant (ignoreGlobalMonitor : Bool) (s : ExclusiveSystem) : Prop where
  ok : ∀ p, (s.processors p).phase.Ok ignoreGlobalMonitor (s.processors p)
    (s.exclusiveAddresses p) (s.exclusiveValues p)
  locked : ignoreGlobalMonitor = false → ∀ p, (s.processors p).phase.Locked → s.lock = some p
  cleared : ignoreGlobalMonitor = false → ∀ p q address, q ≠ p →
    (s.processors p).phase.Clears q address → s.exclusiveAddresses q ≠ address
  sound : ∀ r ∈ s.log, r.Sound ignoreGlobalMonitor

theorem ExclusivePhase.Clears.locked {phase : ExclusivePhase} {q : ProcessorId} {address : Word}
    (h : phase.Clears q address) : phase.Locked := by
  rcases phase with _ | ⟨vaddr, size, next⟩ | ⟨vaddr, size, value, next⟩
  · cases h
  · cases h
  · cases next with
    | lock => cases h
    | _ => trivial

section Invariant
variable {ignoreGlobalMonitor : Bool} {s : ExclusiveSystem} {p : ProcessorId}

theorem ExclusiveInvariant.initial (memory : Memory) :
    ExclusiveInvariant ignoreGlobalMonitor (.initial memory) where
  ok p := by
    intro h
    cases h
  locked _ p h := h.elim
  cleared _ p q address _ h := h.elim
  sound r hr := by cases hr

namespace ExclusiveInvariant

/-- At most one processor is past the lock. -/
theorem locked_unique (h : ExclusiveInvariant ignoreGlobalMonitor s)
    (hign : ignoreGlobalMonitor = false) {q : ProcessorId} (hp : (s.processors p).phase.Locked)
    (hq : (s.processors q).phase.Locked) : q = p :=
  Option.some.inj ((h.locked hign q hq).symm.trans (h.locked hign p hp))

/-- A processor moves on without touching the monitor. -/
theorem setProcessor (h : ExclusiveInvariant ignoreGlobalMonitor s) {c : ExclusiveProcessor}
    (hok : c.phase.Ok ignoreGlobalMonitor c (s.exclusiveAddresses p) (s.exclusiveValues p))
    (hlocked : ignoreGlobalMonitor = false → c.phase.Locked → s.lock = some p)
    (hcleared : ignoreGlobalMonitor = false → ∀ q address, q ≠ p →
      c.phase.Clears q address → s.exclusiveAddresses q ≠ address) :
    ExclusiveInvariant ignoreGlobalMonitor (s.setProcessor p c) where
  ok q := by
    by_cases hq : q = p
    · subst hq
      simpa [ExclusiveSystem.setProcessor] using hok
    · simpa [ExclusiveSystem.setProcessor, hq] using h.ok q
  locked hign q := by
    by_cases hq : q = p
    · subst hq
      intro hl
      simp only [ExclusiveSystem.setProcessor, Function.update_self] at hl
      exact hlocked hign hl
    · simpa [ExclusiveSystem.setProcessor, hq] using h.locked hign q
  cleared hign q q' address hne := by
    by_cases hq : q = p
    · subst hq
      simpa [ExclusiveSystem.setProcessor] using hcleared hign q' address hne
    · simpa [ExclusiveSystem.setProcessor, hq] using h.cleared hign q q' address hne
  sound := h.sound

/-- A slot gets an address that fits its owner and no store under way. -/
theorem setAddress (h : ExclusiveInvariant ignoreGlobalMonitor s) {vaddr : Word}
    (hok : (s.processors p).phase.Ok ignoreGlobalMonitor (s.processors p) vaddr
      (s.exclusiveValues p))
    (hcleared : ignoreGlobalMonitor = false → ∀ q address, p ≠ q →
      (s.processors q).phase.Clears p address → vaddr ≠ address) :
    ExclusiveInvariant ignoreGlobalMonitor (s.setAddress p vaddr) where
  ok q := by
    by_cases hq : q = p
    · subst hq
      simpa [ExclusiveSystem.setAddress] using hok
    · simpa [ExclusiveSystem.setAddress, hq] using h.ok q
  locked := h.locked
  cleared hign q q' address hne hclears := by
    by_cases hq : q' = p
    · subst hq
      simpa [ExclusiveSystem.setAddress] using hcleared hign q address hne hclears
    · simpa [ExclusiveSystem.setAddress, hq] using h.cleared hign q q' address hne hclears
  sound := h.sound

theorem saveValue (h : ExclusiveInvariant ignoreGlobalMonitor s) {value : List Byte}
    (hok : (s.processors p).phase.Ok ignoreGlobalMonitor (s.processors p)
      (s.exclusiveAddresses p) (value ++ (s.exclusiveValues p).drop value.length)) :
    ExclusiveInvariant ignoreGlobalMonitor (s.saveValue p value) where
  ok q := by
    by_cases hq : q = p
    · subst hq
      simpa [ExclusiveSystem.saveValue] using hok
    · simpa [ExclusiveSystem.saveValue, hq] using h.ok q
  locked := h.locked
  cleared := h.cleared
  sound := h.sound

theorem setLock (h : ExclusiveInvariant ignoreGlobalMonitor s) {lock : Option ProcessorId}
    (hlocked : ∀ q, ¬ (s.processors q).phase.Locked) :
    ExclusiveInvariant ignoreGlobalMonitor (s.setLock lock) where
  ok := h.ok
  locked _ q hq := (hlocked q hq).elim
  cleared := h.cleared
  sound := h.sound

/-- A processor goes to a place where no slot is known to be cleared. -/
theorem goto (h : ExclusiveInvariant ignoreGlobalMonitor s) {phase : ExclusivePhase}
    (hok : phase.Ok ignoreGlobalMonitor ((s.processors p).goto phase) (s.exclusiveAddresses p)
      (s.exclusiveValues p))
    (hlocked : ignoreGlobalMonitor = false → phase.Locked → s.lock = some p)
    (hcleared : ∀ q address, ¬ phase.Clears q address) :
    ExclusiveInvariant ignoreGlobalMonitor (s.goto p phase) :=
  h.setProcessor hok hlocked fun _ q address _ hclears => (hcleared q address hclears).elim

theorem emitExclusiveLock (h : ExclusiveInvariant ignoreGlobalMonitor s) {next : ExclusivePhase}
    (hok : next.Ok ignoreGlobalMonitor ((s.processors p).goto next) (s.exclusiveAddresses p)
      (s.exclusiveValues p))
    (hcleared : ∀ q address, ¬ next.Clears q address) :
    ExclusiveInvariant ignoreGlobalMonitor (s.emitExclusiveLock ignoreGlobalMonitor p next) := by
  unfold ExclusiveSystem.emitExclusiveLock
  split_ifs with hign hlock
  · exact h.goto hok (by simp [hign]) hcleared
  · have hfree : ∀ q, ¬ (s.processors q).phase.Locked := by
      intro q hq
      have hsome := h.locked (Bool.eq_false_iff.mpr hign) q hq
      rw [hlock] at hsome
      cases hsome
    exact (h.setLock hfree).goto hok (fun _ _ => rfl) hcleared
  · exact h

theorem emitExclusiveUnlock (h : ExclusiveInvariant ignoreGlobalMonitor s)
    (hlocked : (s.processors p).phase.Locked)
    (hok : Resting ignoreGlobalMonitor (s.processors p) (s.exclusiveAddresses p)
      (s.exclusiveValues p)) :
    ExclusiveInvariant ignoreGlobalMonitor (s.emitExclusiveUnlock ignoreGlobalMonitor p) := by
  have hout : ExclusiveInvariant ignoreGlobalMonitor (s.goto p .outside) :=
    h.goto hok (fun _ hl => hl.elim) fun _ _ hclears => hclears
  unfold ExclusiveSystem.emitExclusiveUnlock
  split_ifs with hign
  · exact hout
  · have hfree : ∀ q, ¬ ((s.goto p .outside).processors q).phase.Locked := by
      intro q hq
      by_cases hqp : q = p
      · subst hqp
        simp [ExclusiveSystem.goto, ExclusiveSystem.setProcessor, ExclusiveProcessor.goto,
          ExclusivePhase.Locked] at hq
      · simp only [ExclusiveSystem.goto, ExclusiveSystem.setProcessor,
          Function.update_of_ne hqp] at hq
        exact hqp (h.locked_unique (Bool.eq_false_iff.mpr hign) hlocked hq)
    exact hout.setLock hfree

/-- Emptying the slot of a processor outside the lock costs it at most its reservation. -/
theorem ok_invalid {phase : ExclusivePhase} {c : ExclusiveProcessor} {address : Word}
    {saved : List Byte} (hok : phase.Ok ignoreGlobalMonitor c address saved)
    (hlocked : ¬ phase.Locked) :
    phase.Ok ignoreGlobalMonitor c invalidExclusiveAddress saved := by
  have hrest : Resting ignoreGlobalMonitor c address saved →
      Resting ignoreGlobalMonitor c invalidExclusiveAddress saved := by
    intro h hstate
    obtain ⟨load, hload, hvaddr, hsaved, -, -⟩ := h hstate
    exact ⟨load, hload, hvaddr, hsaved, .inr rfl, fun _ _ => hvaddr.symm⟩
  rcases phase with _ | ⟨vaddr, size, next⟩ | ⟨vaddr, size, value, next⟩
  · exact hrest hok
  · cases next with
    | lock => exact ⟨hok.1, hrest hok.2⟩
    | _ => exact (hlocked trivial).elim
  · cases next with
    | lock => exact ⟨hok.1, hok.2.1, hrest hok.2.2⟩
    | _ => exact (hlocked trivial).elim

/-- A place in the code looks at the exclusive state, the load and, past the lock, at
whether the load was overtaken. -/
theorem ok_congr {phase : ExclusivePhase} {c c' : ExclusiveProcessor} {address : Word}
    {saved : List Byte} (hok : phase.Ok ignoreGlobalMonitor c address saved)
    (hres : Reserved ignoreGlobalMonitor c address saved →
      Reserved ignoreGlobalMonitor c' address saved)
    (hstate : c'.exclusiveState = c.exclusiveState) (hload : c'.load = c.load)
    (hover : ignoreGlobalMonitor = false → phase.Locked → c'.overtaken = c.overtaken) :
    phase.Ok ignoreGlobalMonitor c' address saved := by
  have hrest (h : Resting ignoreGlobalMonitor c address saved) :
      Resting ignoreGlobalMonitor c' address saved := fun hs => hres (h (hstate ▸ hs))
  rcases phase with _ | ⟨vaddr, size, next⟩ | ⟨vaddr, size, value, next⟩
  · exact hrest hok
  · refine ⟨hok.1, ?_⟩
    have h := hok.2
    cases next with
    | lock => exact hrest h
    | saveValue value =>
      obtain ⟨haddress, hvalue, hlength, hovertaken⟩ := h
      exact ⟨haddress, hload.trans hvalue, hlength,
        fun hign => (hover hign trivial).trans (hovertaken hign)⟩
    | unlock value => exact hrest h
    | _ => exact h
  · refine ⟨hok.1, hok.2.1, ?_⟩
    have h := hok.2.2
    cases next with
    | lock => exact hrest h
    | testState => exact hrest h
    | testAddress => exact hres h
    | testAndClear j => exact ⟨h.1, hres h.2.1, h.2.2⟩
    | clearState => exact ⟨hres h.1, h.2⟩
    | loadExpected => exact ⟨hres h.1, h.2.1, hstate.trans h.2.2⟩
    | compareExchange expected =>
      obtain ⟨hclear, load, hvalue, hvaddr, hexpected, hovertaken⟩ := h
      exact ⟨hstate.trans hclear, load, hload.trans hvalue, hvaddr, hexpected,
        fun hign => (hover hign trivial).trans (hovertaken hign)⟩
    | unlock status => exact hrest h

/-- Another processor's store does not reach a processor whose slot it has emptied. -/
theorem ok_overtake {phase : ExclusivePhase} {c : ExclusiveProcessor} {address vaddr : Word}
    {saved : List Byte} (hok : phase.Ok ignoreGlobalMonitor c address saved)
    (hcleared : ignoreGlobalMonitor = false → ¬ phase.Locked ∧ address ≠ vaddr) :
    phase.Ok ignoreGlobalMonitor (c.overtake vaddr) address saved := by
  refine ok_congr hok ?_ rfl rfl fun hign hlocked => ((hcleared hign).1 hlocked).elim
  rintro ⟨load, hload, hvaddr, hsaved, haddress, hover⟩
  refine ⟨load, hload, hvaddr, hsaved, haddress, fun hign hovertaken => ?_⟩
  simp only [ExclusiveProcessor.overtake, hload, Option.any_some, Bool.or_eq_true,
    decide_eq_true_eq] at hovertaken
  rcases hovertaken with hold | rfl
  · exact hover hign hold
  · exact (hcleared hign).2

/-- A successful store-exclusive. -/
theorem commit (h : ExclusiveInvariant ignoreGlobalMonitor s) {vaddr : Word}
    {size : ExclusiveSize} {value expected : List Byte}
    (hphase : (s.processors p).phase = .write vaddr size value (.compareExchange expected))
    {compared : Bool}
    (hcompared : compared = true → readBytes s.memory vaddr size.bytes = expected) :
    ExclusiveInvariant ignoreGlobalMonitor (s.commit compared p vaddr size value) := by
  have hlocked : (s.processors p).phase.Locked := by simp [hphase, ExclusivePhase.Locked]
  have hok := h.ok p
  rw [hphase] at hok
  obtain ⟨hvaddr, hlength, hclear, load, hload, hloaded, hexpected, hover⟩ := hok
  constructor
  · intro q
    by_cases hq : q = p
    · subst hq
      simp only [ExclusiveSystem.commit, Function.update_self]
      refine ⟨hvaddr, hlength, fun hstate => ?_⟩
      exact (Bool.false_ne_true (hclear.symm.trans hstate)).elim
    · simp only [ExclusiveSystem.commit, Function.update_of_ne hq]
      refine ok_overtake (h.ok q) fun hign => ⟨fun hql => ?_, ?_⟩
      · exact hq (h.locked_unique hign hlocked hql)
      · apply h.cleared hign p q vaddr hq
        simp [hphase, ExclusivePhase.Clears]
  · intro hign q hql
    by_cases hq : q = p
    · exact hq ▸ h.locked hign p hlocked
    · simp only [ExclusiveSystem.commit, Function.update_of_ne hq] at hql
      exact h.locked hign q hql
  · intro hign q q' address hne hclears
    by_cases hq : q = p
    · simp [ExclusiveSystem.commit, hq, ExclusiveProcessor.goto, ExclusivePhase.Clears] at hclears
    · simp only [ExclusiveSystem.commit, Function.update_of_ne hq] at hclears
      exact h.cleared hign q q' address hne hclears
  · intro r hr
    rcases List.mem_cons.mp hr with rfl | hr
    · exact ⟨load, hload, hloaded, fun hc hsize => (hcompared hc).trans (hexpected hsize), hover⟩
    · exact h.sound r hr

theorem readStep (h : ExclusiveInvariant ignoreGlobalMonitor s) {vaddr : Word}
    {size : ExclusiveSize} {next : ExclusiveReadStep}
    (hphase : (s.processors p).phase = .read vaddr size next) :
    ExclusiveInvariant ignoreGlobalMonitor (s.readStep ignoreGlobalMonitor p vaddr size next) := by
  have hok := h.ok p
  rw [hphase] at hok
  obtain ⟨hvaddr, hok⟩ := hok
  have hheld (hign : ignoreGlobalMonitor = false) (hlocked : (s.processors p).phase.Locked) :=
    h.locked hign p hlocked
  cases next with
  | lock => exact h.emitExclusiveLock ⟨hvaddr, trivial⟩ fun _ _ hclears => hclears
  | markState =>
    exact h.setProcessor ⟨hvaddr, trivial⟩
      (fun hign _ => hheld hign (by simp [hphase, ExclusivePhase.Locked]))
      fun _ _ _ _ hclears => hclears.elim
  | markAddress =>
    have hlocked : (s.processors p).phase.Locked := by simp [hphase, ExclusivePhase.Locked]
    have hset : ExclusiveInvariant ignoreGlobalMonitor (s.setAddress p vaddr) := by
      apply h.setAddress
      · rw [hphase]
        exact ⟨hvaddr, trivial⟩
      · intro hign q address hne hclears
        exact (hne.symm (h.locked_unique hign hlocked hclears.locked)).elim
    exact hset.goto ⟨hvaddr, Function.update_self ..⟩ (fun hign _ => hheld hign hlocked)
      fun _ _ hclears => hclears
  | readMemory =>
    exact h.setProcessor ⟨hvaddr, hok, rfl, length_readBytes, fun _ => rfl⟩
      (fun hign _ => hheld hign (by simp [hphase, ExclusivePhase.Locked]))
      fun _ _ _ _ hclears => hclears.elim
  | saveValue value =>
    obtain ⟨haddress, hload, hlength, hover⟩ := hok
    have hset : ExclusiveInvariant ignoreGlobalMonitor (s.saveValue p value) := by
      apply h.saveValue
      rw [hphase]
      exact ⟨hvaddr, haddress, hload, hlength, hover⟩
    refine hset.goto ⟨hvaddr, fun _ => ⟨_, hload, hvaddr, ?_, .inl haddress, ?_⟩⟩
      (fun hign _ => hheld hign (by simp [hphase, ExclusivePhase.Locked]))
      fun _ _ hclears => hclears
    · simp [ExclusiveSystem.saveValue, ← hlength]
    · intro hign hovertaken
      exact (Bool.false_ne_true ((hover hign).symm.trans hovertaken)).elim
  | unlock value =>
    exact h.emitExclusiveUnlock (by simp [hphase, ExclusivePhase.Locked]) hok

/-- The slot of one more processor is compared with the address of the store. -/
theorem testAndClear (h : ExclusiveInvariant ignoreGlobalMonitor s) {vaddr : Word}
    {size : ExclusiveSize} {value : List Byte} {j : ProcessorId}
    (hphase : (s.processors p).phase = .write vaddr size value (.testAndClear j))
    (hj : j ≠ p → s.exclusiveAddresses j ≠ vaddr) :
    ExclusiveInvariant ignoreGlobalMonitor
      (s.goto p (.write vaddr size value (.testAndClear (j + 1)))) := by
  have hlocked : (s.processors p).phase.Locked := by simp [hphase, ExclusivePhase.Locked]
  have hok := h.ok p
  rw [hphase] at hok
  refine h.setProcessor hok (fun hign _ => h.locked hign p hlocked) ?_
  rintro hign q address hq ⟨rfl, hlt⟩
  rcases Nat.lt_succ_iff_lt_or_eq.mp hlt with hlt | heq
  · apply h.cleared hign p q vaddr hq
    rw [hphase]
    exact ⟨rfl, hlt⟩
  · have hqj : q = j := Fin.ext heq
    exact hqj ▸ hj (hqj ▸ hq)

theorem writeStep (h : ExclusiveInvariant ignoreGlobalMonitor s) {vaddr : Word}
    {size : ExclusiveSize} {value : List Byte} {next : ExclusiveWriteStep} (fastmem : Bool)
    (hphase : (s.processors p).phase = .write vaddr size value next) :
    ExclusiveInvariant ignoreGlobalMonitor
      (s.writeStep ignoreGlobalMonitor fastmem p vaddr size value next) := by
  have hok := h.ok p
  rw [hphase] at hok
  obtain ⟨hvaddr, hlength, hok⟩ := hok
  have hheld (hign : ignoreGlobalMonitor = false) (hlocked : (s.processors p).phase.Locked) :=
    h.locked hign p hlocked
  cases next with
  | lock => exact h.emitExclusiveLock ⟨hvaddr, hlength, hok⟩ fun _ _ hclears => hclears
  | testState =>
    simp only [ExclusiveSystem.writeStep]
    split_ifs with hstate
    · exact h.goto ⟨hvaddr, hlength, hok hstate⟩
        (fun hign _ => hheld hign (by simp [hphase, ExclusivePhase.Locked]))
        fun _ _ hclears => hclears
    · exact h.goto ⟨hvaddr, hlength, hok⟩
        (fun hign _ => hheld hign (by simp [hphase, ExclusivePhase.Locked]))
        fun _ _ hclears => hclears
  | testAddress =>
    have hlocked : (s.processors p).phase.Locked := by simp [hphase, ExclusivePhase.Locked]
    simp only [ExclusiveSystem.writeStep]
    split_ifs with haddress hign
    · exact h.goto ⟨hvaddr, hlength, fun _ => hok⟩ (fun hign _ => hheld hign hlocked)
        fun _ _ hclears => hclears
    · rw [not_not] at haddress
      refine h.setProcessor ⟨hvaddr, hlength, hok, haddress⟩ (fun hign _ => hheld hign hlocked) ?_
      intro hfalse
      exact (Bool.false_ne_true (hfalse.symm.trans hign)).elim
    · rw [not_not] at haddress
      refine h.goto ⟨hvaddr, hlength, Bool.eq_false_iff.mpr hign, hok, haddress⟩
        (fun hign _ => hheld hign hlocked) ?_
      rintro q address ⟨-, hlt⟩
      exact Nat.not_lt_zero _ hlt
  | testAndClear j =>
    obtain ⟨hign, hres, haddress⟩ := hok
    have hlocked : (s.processors p).phase.Locked := by simp [hphase, ExclusivePhase.Locked]
    simp only [ExclusiveSystem.writeStep]
    split_ifs with hj hmatch
    · have hempty : ExclusiveInvariant ignoreGlobalMonitor
          (s.setAddress ⟨j, hj⟩ invalidExclusiveAddress) := by
        apply h.setAddress
        · apply ok_invalid (h.ok ⟨j, hj⟩)
          intro hjl
          exact hmatch.1 (h.locked_unique hign hlocked hjl)
        · intro _ q address _ hclears
          have hqp := h.locked_unique hign hlocked hclears.locked
          rw [hqp, hphase] at hclears
          exact hclears.1 ▸ hvaddr.symm
      refine hempty.testAndClear (j := ⟨j, hj⟩) hphase fun _ => ?_
      simpa [ExclusiveSystem.setAddress] using hvaddr.symm
    · refine h.testAndClear (j := ⟨j, hj⟩) hphase fun hne heq => hmatch ⟨hne, heq⟩
    · refine h.setProcessor ⟨hvaddr, hlength, hres, haddress⟩ (fun hign _ => hheld hign hlocked) ?_
      rintro - q address hq rfl
      apply h.cleared hign p q vaddr hq
      rw [hphase]
      exact ⟨rfl, q.isLt.trans_le (Nat.le_of_not_lt hj)⟩
  | clearState =>
    have hlocked : (s.processors p).phase.Locked := by simp [hphase, ExclusivePhase.Locked]
    refine h.setProcessor ⟨hvaddr, hlength, hok.1, hok.2, rfl⟩ (fun hign _ => hheld hign hlocked) ?_
    rintro hign q address hq rfl
    apply h.cleared hign p q vaddr hq
    simp [hphase, ExclusivePhase.Clears]
  | loadExpected =>
    obtain ⟨⟨load, hload, hloaded, hsaved, haddress, hover⟩, rfl, hstate⟩ := hok
    have hlocked : (s.processors p).phase.Locked := by simp [hphase, ExclusivePhase.Locked]
    have hsame : s.exclusiveAddresses p = load.vaddr := haddress.resolve_right hvaddr
    refine h.setProcessor ⟨hvaddr, hlength, hstate, load, hload, hsame.symm, ?_, ?_⟩
      (fun hign _ => hheld hign hlocked) ?_
    · rintro rfl
      exact hsaved
    · intro hign
      exact Bool.eq_false_iff.mpr fun hovertaken => hover hign hovertaken hsame
    · rintro hign q address hq rfl
      apply h.cleared hign p q _ hq
      simp [hphase, ExclusivePhase.Clears]
  | compareExchange expected =>
    simp only [ExclusiveSystem.writeStep, ExclusiveSystem.compareExchange]
    split_ifs with hstub hequal
    · exact h.commit hphase (by simp)
    · exact h.commit hphase fun _ => hequal
    · have hclear : Resting ignoreGlobalMonitor
          (((s.processors p).setLoad none).goto (.write vaddr size value (.unlock 1)))
          (s.exclusiveAddresses p) (s.exclusiveValues p) := fun hstate =>
        (Bool.false_ne_true (hok.1.symm.trans hstate)).elim
      exact h.setProcessor ⟨hvaddr, hlength, hclear⟩
        (fun hign _ => hheld hign (by simp [hphase, ExclusivePhase.Locked]))
        fun _ _ _ _ hclears => hclears.elim
  | unlock status =>
    exact h.emitExclusiveUnlock (by simp [hphase, ExclusivePhase.Locked]) hok

theorem step {e : ExclusiveEvent} {s' : ExclusiveSystem}
    (h : ExclusiveInvariant ignoreGlobalMonitor s) (hwf : e.WellFormed)
    (hstep : e.step ignoreGlobalMonitor s = .ok s') :
    ExclusiveInvariant ignoreGlobalMonitor s' := by
  cases e with
  | startRead p vaddr size =>
    have hok := h.ok p
    cases hphase : (s.processors p).phase with
    | outside =>
      simp only [ExclusiveEvent.step, hphase, Except.ok.injEq] at hstep
      rw [hphase] at hok
      exact hstep ▸ h.goto ⟨hwf, hok⟩ (fun _ hl => hl.elim) fun _ _ hclears => hclears
    | _ => simp [ExclusiveEvent.step, hphase] at hstep
  | startWrite p vaddr size value =>
    have hok := h.ok p
    cases hphase : (s.processors p).phase with
    | outside =>
      simp only [ExclusiveEvent.step, hphase, Except.ok.injEq] at hstep
      rw [hphase] at hok
      exact hstep ▸ h.goto ⟨hwf.1, hwf.2, hok⟩ (fun _ hl => hl.elim) fun _ _ hclears => hclears
    | _ => simp [ExclusiveEvent.step, hphase] at hstep
  | advance p fastmem =>
    cases hphase : (s.processors p).phase with
    | outside => simp [ExclusiveEvent.step, hphase] at hstep
    | read vaddr size next =>
      simp only [ExclusiveEvent.step, hphase, Except.ok.injEq] at hstep
      exact hstep ▸ h.readStep hphase
    | write vaddr size value next =>
      simp only [ExclusiveEvent.step, hphase, Except.ok.injEq] at hstep
      exact hstep ▸ h.writeStep fastmem hphase
  | clear p =>
    cases hphase : (s.processors p).phase with
    | outside =>
      simp only [ExclusiveEvent.step, hphase, Except.ok.injEq] at hstep
      have hclear : Resting ignoreGlobalMonitor (((s.processors p).setState false).setLoad none)
          (s.exclusiveAddresses p) (s.exclusiveValues p) := by rintro ⟨⟩
      have hout : (((s.processors p).setState false).setLoad none).phase = .outside := hphase
      refine hstep ▸ h.setProcessor ?_ ?_ ?_
      · exact hout ▸ hclear
      · exact fun _ hl => (hout ▸ hl : ExclusivePhase.outside.Locked).elim
      · exact fun _ q address _ hc => (hout ▸ hc : ExclusivePhase.outside.Clears q address).elim
    | _ => simp [ExclusiveEvent.step, hphase] at hstep
  | store vaddr value =>
    simp only [ExclusiveEvent.step, Except.ok.injEq] at hstep
    exact hstep ▸ ⟨h.ok, h.locked, h.cleared, h.sound⟩

end ExclusiveInvariant
end Invariant

/-- The processors' accesses in any order, with well-formed operands. -/
abbrev ExclusiveRun (ignoreGlobalMonitor : Bool) :=
  Run (ExclusiveEvent.step ignoreGlobalMonitor) fun _ e => e.WellFormed

theorem ExclusiveInvariant.of_run {ignoreGlobalMonitor : Bool} {memory : Memory}
    {events : List ExclusiveEvent} {s : ExclusiveSystem}
    (h : ExclusiveRun ignoreGlobalMonitor (.initial memory) events s) :
    ExclusiveInvariant ignoreGlobalMonitor s :=
  h.invariant (fun _ _ _ hinv hwf hstep => hinv.step hwf hstep) (.initial memory)

/-- In every interleaving, with the monitor or without, a store-exclusive that succeeds
goes to the address of the processor's last load and replaces what that load returned. -/
theorem exclusiveStore_replaces_load {ignoreGlobalMonitor : Bool} {memory : Memory}
    {events : List ExclusiveEvent} {s : ExclusiveSystem}
    (hrun : ExclusiveRun ignoreGlobalMonitor (.initial memory) events s) {r : ExclusiveStore}
    (hr : r ∈ s.log) : r.Sound ignoreGlobalMonitor :=
  (ExclusiveInvariant.of_run hrun).sound r hr

def incrementOnce (p : ProcessorId) (new : Byte) : List ExclusiveEvent :=
  .startRead p 0x1000 .bits8 :: List.replicate 6 (.advance p true) ++
    .startWrite p 0x1000 .bits8 [new] :: List.replicate 7 (.advance p true)

theorem exclusiveStore_replaces_load_increment :
    ∃ (s : ExclusiveSystem) (r : ExclusiveStore),
      ExclusiveRun true (.initial fun _ => 41) (incrementOnce 0 42) s ∧ r ∈ s.log ∧
        r.replaced = [41] ∧ r.Sound true := by
  have hrun : ExclusiveRun true (.initial fun _ => 41) (incrementOnce 0 42) _ :=
    .of_foldlM (by simp [incrementOnce, ExclusiveEvent.WellFormed, invalidExclusiveAddress,
      ExclusiveSize.bytes]) rfl
  exact ⟨_, _, hrun, List.mem_cons_self, rfl,
    exclusiveStore_replaces_load hrun List.mem_cons_self⟩

end Sober
