import Sober.Pthread.State
import Sober.Slots.Table

/-! # Processor ids of the threads

Every thread that runs guest code has an execution context, and every context a
processor id, which its JIT uses as its slot of the exclusive monitor. The table
of used ids is shared and guarded by a mutex; the id itself is kept by the thread.
The two critical sections are single steps, and between them the threads interleave.
-/
namespace Sober
open Transition

abbrev maxCpus : ℕ := 64

/-- Where a thread is inside `execution_context_init` or `execution_context_free`. -/
inductive ContextPhase where
  | outside
  | entering
  | allocated (id : ℕ)
  | leaving
  deriving DecidableEq

/-- The part of the thread-local context that concerns the id. The environment and
the JIT are there while they are allocated, with the id they were given. -/
structure ExecutionContext where
  phase : ContextPhase
  initialized : Bool
  processorId : ℕ
  environment : Option (BitVec 32)
  jit : Option ℕ

structure ProcessorState where
  usedProcessors : Slots.Table maxCpus
  threads : ThreadId → ExecutionContext
  /-- The ids that were allocated and not yet released. -/
  outstanding : List ℕ

inductive ContextFault where
  | misplaced
  | assertionFailed
  | terminate
  | outOfRange
  deriving DecidableEq

namespace ExecutionContext

def initial : ExecutionContext := ⟨.outside, false, 0, none, none⟩

def setPhase (c : ExecutionContext) (phase : ContextPhase) : ExecutionContext := { c with phase }

/-- The rest of `execution_context_init` once the id is there. -/
def configure (id : ℕ) : ExecutionContext :=
  ⟨.outside, true, id, some (BitVec.ofNat 32 id), some id⟩

/-- `execution_context_free` up to the release of the id, which the context keeps. -/
def destroy (c : ExecutionContext) : ExecutionContext :=
  ⟨.leaving, false, c.processorId, none, none⟩

def held (c : ExecutionContext) : Option ℕ :=
  match c.phase with
  | .allocated id => some id
  | .leaving => some c.processorId
  | .entering => none
  | .outside => if c.initialized then some c.processorId else none

/-- The context exists: it is being made, it is in use, or it is being freed. -/
def Live (c : ExecutionContext) : Prop := c.phase ≠ .outside ∨ c.initialized = true

end ExecutionContext

namespace ProcessorState

def initial : ProcessorState := ⟨fun _ => false, fun _ => .initial, []⟩

def setThread (s : ProcessorState) (t : ThreadId) (c : ExecutionContext) : ProcessorState :=
  { s with threads := Function.update s.threads t c }

def allocateProcessorId (s : ProcessorState) : Except ContextFault (ℕ × ProcessorState) :=
  match Slots.firstFree s.usedProcessors with
  | none => .error .terminate
  | some i => .ok (i, { s with
      usedProcessors := Function.update s.usedProcessors i true
      outstanding := i :: s.outstanding })

def releaseProcessorId (id : ℕ) (s : ProcessorState) : Except ContextFault ProcessorState :=
  if h : id < maxCpus then
    .ok { s with
      usedProcessors := Function.update s.usedProcessors ⟨id, h⟩ false
      outstanding := s.outstanding.erase id }
  else .error .outOfRange

end ProcessorState

/-- The steps of the two functions, in the order in which a thread takes them. -/
inductive ContextEvent where
  | initEnter (t : ThreadId)
  | allocate (t : ThreadId)
  | initLeave (t : ThreadId)
  | freeEnter (t : ThreadId)
  | release (t : ThreadId)

namespace ContextEvent

def step (s : ProcessorState) : ContextEvent → Except ContextFault ProcessorState
  | initEnter t =>
    match (s.threads t).phase with
    | .outside =>
      if (s.threads t).initialized then .error .assertionFailed
      else .ok (s.setThread t ((s.threads t).setPhase .entering))
    | _ => .error .misplaced
  | allocate t =>
    match (s.threads t).phase with
    | .entering =>
      s.allocateProcessorId.map fun p => p.2.setThread t ((s.threads t).setPhase (.allocated p.1))
    | _ => .error .misplaced
  | initLeave t =>
    match (s.threads t).phase with
    | .allocated id => .ok (s.setThread t (.configure id))
    | _ => .error .misplaced
  | freeEnter t =>
    match (s.threads t).phase with
    | .outside => .ok (s.setThread t (s.threads t).destroy)
    | _ => .error .misplaced
  | release t =>
    match (s.threads t).phase with
    | .leaving =>
      (s.releaseProcessorId (s.threads t).processorId).map fun s' =>
        s'.setThread t ((s.threads t).setPhase .outside)
    | _ => .error .misplaced

/-- A thread frees only the context that it initialised and has not freed. -/
def Owns (s : ProcessorState) : ContextEvent → Prop
  | freeEnter t => (s.threads t).initialized = true
  | _ => True

variable {s s' : ProcessorState} {t : ThreadId}

theorem initEnter_ok (h : step s (initEnter t) = .ok s') :
    (s.threads t).phase = .outside ∧ (s.threads t).initialized = false ∧
      s' = s.setThread t ((s.threads t).setPhase .entering) := by
  rw [step] at h
  cases hphase : (s.threads t).phase with
  | outside =>
    simp only [hphase] at h
    split_ifs at h with hinit
    exact ⟨rfl, Bool.eq_false_iff.mpr hinit, (Except.ok.inj h).symm⟩
  | _ => simp [hphase] at h

theorem allocate_ok (h : step s (allocate t) = .ok s') :
    (s.threads t).phase = .entering ∧ ∃ i, Slots.firstFree s.usedProcessors = some i ∧
      s' = ProcessorState.setThread { s with
        usedProcessors := Function.update s.usedProcessors i true
        outstanding := i.val :: s.outstanding } t ((s.threads t).setPhase (.allocated i)) := by
  rw [step] at h
  cases hphase : (s.threads t).phase with
  | entering =>
    rw [hphase] at h
    obtain ⟨p, hallocate, rfl⟩ := ok_of_map h
    rw [ProcessorState.allocateProcessorId] at hallocate
    cases hfree : Slots.firstFree s.usedProcessors with
    | none => simp [hfree] at hallocate
    | some i =>
      simp only [hfree, Except.ok.injEq] at hallocate
      exact ⟨rfl, i, rfl, by rw [← hallocate]⟩
  | _ => simp [hphase] at h

theorem allocate_of_free (hphase : (s.threads t).phase = .entering) {i : Fin maxCpus}
    (hfree : Slots.firstFree s.usedProcessors = some i) :
    step s (allocate t) = .ok (ProcessorState.setThread { s with
      usedProcessors := Function.update s.usedProcessors i true
      outstanding := i.val :: s.outstanding } t ((s.threads t).setPhase (.allocated i))) := by
  simp [step, hphase, ProcessorState.allocateProcessorId, hfree, Except.map]

theorem initLeave_ok (h : step s (initLeave t) = .ok s') :
    ∃ id, (s.threads t).phase = .allocated id ∧ s' = s.setThread t (.configure id) := by
  rw [step] at h
  cases hphase : (s.threads t).phase with
  | allocated id =>
    simp only [hphase, Except.ok.injEq] at h
    exact ⟨id, rfl, h.symm⟩
  | _ => simp [hphase] at h

theorem freeEnter_ok (h : step s (freeEnter t) = .ok s') :
    (s.threads t).phase = .outside ∧ s' = s.setThread t (s.threads t).destroy := by
  rw [step] at h
  cases hphase : (s.threads t).phase with
  | outside =>
    simp only [hphase, Except.ok.injEq] at h
    exact ⟨rfl, h.symm⟩
  | _ => simp [hphase] at h

theorem release_ok (h : step s (release t) = .ok s') :
    (s.threads t).phase = .leaving ∧ ∃ i : Fin maxCpus, (s.threads t).processorId = i ∧
      s' = ProcessorState.setThread { s with
        usedProcessors := Function.update s.usedProcessors i false
        outstanding := s.outstanding.erase i.val } t ((s.threads t).setPhase .outside) := by
  rw [step] at h
  cases hphase : (s.threads t).phase with
  | leaving =>
    simp only [hphase] at h
    obtain ⟨s₁, hrelease, rfl⟩ := ok_of_map h
    rw [ProcessorState.releaseProcessorId] at hrelease
    split_ifs at hrelease with hid
    exact ⟨rfl, ⟨_, hid⟩, rfl, by rw [← Except.ok.inj hrelease]⟩
  | _ => simp [hphase] at h

end ContextEvent

namespace ProcessorState

def held (s : ProcessorState) (t : ThreadId) : Option ℕ := (s.threads t).held

theorem held_setThread (s : ProcessorState) (t : ThreadId) (c : ExecutionContext) :
    (s.setThread t c).held = Function.update s.held t c.held := by
  funext t'
  by_cases ht : t' = t
  · simp [held, setThread, ht]
  · simp [held, setThread, ht]

/-- Only a context in use has a JIT and an environment, both with the id it keeps. -/
structure Configured (c : ExecutionContext) : Prop where
  phase : c.initialized = true → c.phase = .outside
  jit : c.jit = if c.initialized then some c.processorId else none
  environment : c.environment =
    if c.initialized then some (BitVec.ofNat 32 c.processorId) else none

namespace Configured
variable {c : ExecutionContext}

theorem not_initialized (h : Configured c) (hphase : c.phase ≠ .outside) :
    c.initialized = false := by
  rw [Bool.eq_false_iff]
  exact fun hinit => hphase (h.phase hinit)

theorem setPhase (h : Configured c) (hinit : c.initialized = false) (phase : ContextPhase) :
    Configured (c.setPhase phase) where
  phase hc := by
    rw [ExecutionContext.setPhase, hinit] at hc
    cases hc
  jit := h.jit
  environment := h.environment

end Configured

structure Sound (s : ProcessorState) : Prop where
  records : Slots.Records s.usedProcessors s.outstanding
  owned : Slots.Owned s.held s.outstanding
  configured : ∀ t, Configured (s.threads t)
  /-- Only finitely many threads have been there. -/
  bounded : ∃ bound, ∀ t ≥ bound, s.threads t = .initial

namespace Sound
variable {s s' : ProcessorState} {t : ThreadId}

theorem initial : Sound .initial where
  records := .empty
  owned := .empty
  configured _ := ⟨by rintro ⟨⟩, rfl, rfl⟩
  bounded := ⟨0, fun _ _ => rfl⟩

theorem configured_update (h : s.Sound) {c : ExecutionContext} (hc : Configured c) (t' : ThreadId) :
    Configured (Function.update s.threads t c t') := by
  by_cases ht : t' = t
  · rwa [ht, Function.update_self]
  · rw [Function.update_of_ne ht]
    exact h.configured t'

theorem bounded_update (h : s.Sound) (c : ExecutionContext) :
    ∃ bound, ∀ t' ≥ bound, Function.update s.threads t c t' = .initial := by
  obtain ⟨bound, hbound⟩ := h.bounded
  refine ⟨max bound (t + 1), fun t' ht' => ?_⟩
  have ht : t' ≠ t := by
    rintro rfl
    exact Nat.not_succ_le_self t' (le_of_max_le_right ht')
  rw [Function.update_of_ne ht]
  exact hbound t' (le_of_max_le_left ht')

/-- A step that leaves the table and what the thread holds. -/
theorem local_step (h : s.Sound) {c : ExecutionContext} (hc : Configured c)
    (hheld : c.held = s.held t) : (s.setThread t c).Sound where
  records := h.records
  owned := by
    rw [held_setThread, hheld, Function.update_eq_self]
    exact h.owned
  configured := h.configured_update hc
  bounded := h.bounded_update c

theorem allocate (h : s.Sound) {i : Fin maxCpus} (hi : s.usedProcessors i = false)
    {c : ExecutionContext} (hc : Configured c) (hnone : s.held t = none)
    (hheld : c.held = some i.val) :
    (ProcessorState.setThread { s with
      usedProcessors := Function.update s.usedProcessors i true
      outstanding := i.val :: s.outstanding } t c).Sound where
  records := h.records.take hi
  owned := by
    rw [held_setThread, hheld]
    apply h.owned.take hnone
    rw [← h.records.mem_iff, hi]
    exact Bool.false_ne_true
  configured := h.configured_update hc
  bounded := h.bounded_update c

theorem release (h : s.Sound) {i : Fin maxCpus} {c : ExecutionContext} (hc : Configured c)
    (hsome : s.held t = some i.val) (hheld : c.held = none) :
    (ProcessorState.setThread { s with
      usedProcessors := Function.update s.usedProcessors i false
      outstanding := s.outstanding.erase i.val } t c).Sound where
  records := h.records.release i
  owned := by
    rw [held_setThread, hheld]
    exact h.owned.release h.records.nodup hsome
  configured := h.configured_update hc
  bounded := h.bounded_update c

theorem step (h : s.Sound) {e : ContextEvent} (howns : e.Owns s) (hstep : e.step s = .ok s') :
    s'.Sound := by
  cases e with
  | initEnter t =>
    obtain ⟨hphase, hinit, rfl⟩ := ContextEvent.initEnter_ok hstep
    apply h.local_step
    · exact (h.configured t).setPhase hinit _
    · simp [ProcessorState.held, ExecutionContext.held, hphase, ExecutionContext.setPhase, hinit]
  | allocate t =>
    obtain ⟨hphase, i, hfree, rfl⟩ := ContextEvent.allocate_ok hstep
    have hinit := (h.configured t).not_initialized (by simp [hphase])
    apply h.allocate (Slots.firstFree_eq_some_iff.mp hfree).1
    · exact (h.configured t).setPhase hinit _
    · simp [ProcessorState.held, ExecutionContext.held, hphase]
    · rfl
  | initLeave t =>
    obtain ⟨id, hphase, rfl⟩ := ContextEvent.initLeave_ok hstep
    apply h.local_step
    · exact ⟨fun _ => rfl, rfl, rfl⟩
    · simp [ProcessorState.held, ExecutionContext.held, hphase, ExecutionContext.configure]
  | freeEnter t =>
    obtain ⟨hphase, rfl⟩ := ContextEvent.freeEnter_ok hstep
    have hinit : (s.threads t).initialized = true := howns
    apply h.local_step
    · exact ⟨by rintro ⟨⟩, rfl, rfl⟩
    · simp [ProcessorState.held, ExecutionContext.held, hphase, ExecutionContext.destroy, hinit]
  | release t =>
    obtain ⟨hphase, i, hid, rfl⟩ := ContextEvent.release_ok hstep
    have hinit := (h.configured t).not_initialized (by simp [hphase])
    apply h.release
    · exact (h.configured t).setPhase hinit _
    · simp [ProcessorState.held, ExecutionContext.held, hphase, hid]
    · simp [ExecutionContext.held, ExecutionContext.setPhase, hinit]

theorem of_run {events : List ContextEvent}
    (h : Run ContextEvent.step (fun s e => e.Owns s) .initial events s) : s.Sound :=
  h.invariant (fun _ _ _ hs howns hstep => hs.step howns hstep) .initial

/-- A JIT has the id that its thread holds. -/
theorem held_of_jit (h : s.Sound) {id : ℕ} (hjit : (s.threads t).jit = some id) :
    s.held t = some id := by
  rw [(h.configured t).jit] at hjit
  split_ifs at hjit with hinit
  rw [ProcessorState.held, ExecutionContext.held, (h.configured t).phase hinit]
  simpa [hinit] using hjit

/-- The process ends when all ids are out and only then. -/
theorem terminate_iff (h : s.Sound) (hphase : (s.threads t).phase = .entering) :
    ContextEvent.step s (.allocate t) = .error .terminate ↔ s.outstanding.length = maxCpus := by
  rw [← h.records.full_iff]
  cases hfree : Slots.firstFree s.usedProcessors with
  | none => simp [ContextEvent.step, hphase, allocateProcessorId, hfree, Except.map]
  | some i => simp [ContextEvent.allocate_of_free hphase hfree]

/-- While at most as many contexts exist as there are ids, one is free for the
context that is being made. -/
theorem not_terminate (h : s.Sound) (hphase : (s.threads t).phase = .entering)
    (hlive : Set.encard {t' | (s.threads t').Live} ≤ maxCpus) :
    ContextEvent.step s (.allocate t) ≠ .error .terminate := by
  rw [ne_eq, h.terminate_iff hphase]
  apply Nat.ne_of_lt
  apply h.owned.length_lt h.records.nodup _ hlive (a := t)
  · exact .inl (by simp [hphase])
  · simp [ProcessorState.held, ExecutionContext.held, hphase]
  · intro t' hheld
    by_contra hnot
    have hnot : ¬ (s.threads t').Live := hnot
    rw [ExecutionContext.Live, not_or, not_not] at hnot
    apply hheld
    simp [ProcessorState.held, ExecutionContext.held, hnot]

/-- A new thread can get the first free id. -/
theorem exists_allocating (h : s.Sound) {i : Fin maxCpus}
    (hfree : Slots.firstFree s.usedProcessors = some i) :
    ∃ t s₁ s₂, ContextEvent.step s (.initEnter t) = .ok s₁ ∧
      ContextEvent.step s₁ (.allocate t) = .ok s₂ ∧ s₂.outstanding = i.val :: s.outstanding ∧
      s₂.held t = some i.val := by
  obtain ⟨bound, hbound⟩ := h.bounded
  have hnew := hbound bound le_rfl
  have hstep : ContextEvent.step s (.initEnter bound) =
      .ok (s.setThread bound ((s.threads bound).setPhase .entering)) := by
    rw [ContextEvent.step, hnew]
    rfl
  have hphase : ((s.setThread bound ((s.threads bound).setPhase .entering)).threads bound).phase =
      .entering := by
    simp [setThread, ExecutionContext.setPhase]
  refine ⟨bound, _, _, hstep, ContextEvent.allocate_of_free hphase hfree, rfl, ?_⟩
  rw [held_setThread, Function.update_self]
  rfl

/-- Whatever id is not out can be allocated: the smaller ones are taken first. -/
theorem exists_run_allocating (h : s.Sound) {id : ℕ} (hid : id < maxCpus)
    (hout : id ∉ s.outstanding) :
    ∃ events s' t, Run ContextEvent.step (fun s e => e.Owns s) s events s' ∧
      s'.held t = some id := by
  -- by the number of smaller ids that are free
  induction hn : ((Finset.range id).filter (· ∉ s.outstanding)).card using Nat.strong_induction_on
    generalizing s with
  | _ n ih =>
    cases hfree : Slots.firstFree s.usedProcessors with
    | none =>
      have hused := Slots.firstFree_eq_none_iff.mp hfree ⟨id, hid⟩
      exact absurd ((h.records.mem_iff _).mp hused) hout
    | some i =>
      obtain ⟨t, s₁, s₂, hstep₁, hstep₂, hout₂, hheld₂⟩ := h.exists_allocating hfree
      by_cases hi : i.val = id
      · exact ⟨[.initEnter t, .allocate t], s₂, t,
          .cons trivial hstep₁ (.cons trivial hstep₂ (.nil _)), hi ▸ hheld₂⟩
      · obtain ⟨hiout, hbelow⟩ := h.records.firstFree_iff.mp hfree
        have hlt : i.val < id := by
          by_contra hle
          exact hout (hbelow id (by omega))
        have hs₂ : s₂.Sound := (h.step (e := .initEnter t) trivial hstep₁).step
          (e := .allocate t) trivial hstep₂
        have hfewer : ((Finset.range id).filter (· ∉ s₂.outstanding)).card < n := by
          rw [← hn]
          apply Finset.card_lt_card
          rw [Finset.ssubset_iff_of_subset]
          · exact ⟨i.val, by simp [hlt, hiout], by simp [hout₂]⟩
          · intro j hj
            simp only [hout₂, List.mem_cons, not_or, Finset.mem_filter] at hj ⊢
            exact ⟨hj.1, hj.2.2⟩
        obtain ⟨events, s', t', hrun, hheld⟩ := ih _ hfewer hs₂
          (by simp [hout₂, hout, Ne.symm hi]) rfl
        exact ⟨.initEnter t :: .allocate t :: events, s', t',
          .cons trivial hstep₁ (.cons trivial hstep₂ hrun), hheld⟩

/-- A thread that frees its context gives its id back, and the id is free again. -/
theorem release_frees (h : s.Sound) (hphase : (s.threads t).phase = .leaving) :
    ∃ s', ContextEvent.step s (.release t) = .ok s' ∧
      (s.threads t).processorId ∈ s.outstanding ∧ (s.threads t).processorId ∉ s'.outstanding := by
  have hheld : s.held t = some (s.threads t).processorId := by
    simp [ProcessorState.held, ExecutionContext.held, hphase]
  have hmem := (h.owned.mem_iff _).mpr ⟨t, hheld⟩
  have hlt := h.records.lt _ hmem
  refine ⟨ProcessorState.setThread { s with
      usedProcessors := Function.update s.usedProcessors ⟨_, hlt⟩ false
      outstanding := s.outstanding.erase (s.threads t).processorId } t
        ((s.threads t).setPhase .outside), ?_, hmem, ?_⟩
  · simp [ContextEvent.step, hphase, releaseProcessorId, hlt, Except.map]
  · exact h.records.nodup.not_mem_erase

end Sound
end ProcessorState

/-- After every interleaving of initialisations and frees, the ids allocated and
not yet released are distinct and in range, the table marks exactly these, each
is held by one thread, and no two JITs share one. Allocation ends the process
exactly when all ids are out, which needs more contexts than there are ids, and
an id that is released can be allocated again. -/
theorem processor_ids_unique (events : List ContextEvent) (s : ProcessorState)
    (h : Run ContextEvent.step (fun s e => e.Owns s) .initial events s) :
    s.outstanding.Nodup ∧ (∀ id ∈ s.outstanding, id < maxCpus) ∧
    (∀ i : Fin maxCpus, s.usedProcessors i = true ↔ i.val ∈ s.outstanding) ∧
    (∀ id, id ∈ s.outstanding ↔ ∃ t, s.held t = some id) ∧
    (∀ t t' id, s.held t = some id → s.held t' = some id → t = t') ∧
    (∀ t t' id, (s.threads t).jit = some id → (s.threads t').jit = some id → t = t') ∧
    (∀ t, (s.threads t).phase = .entering →
      (ContextEvent.step s (.allocate t) = .error .terminate ↔ s.outstanding.length = maxCpus) ∧
      (Set.encard {t' | (s.threads t').Live} ≤ maxCpus →
        ContextEvent.step s (.allocate t) ≠ .error .terminate)) ∧
    ∀ t, (s.threads t).phase = .leaving →
      ∃ s', ContextEvent.step s (.release t) = .ok s' ∧
        (s.threads t).processorId ∈ s.outstanding ∧
        (s.threads t).processorId ∉ s'.outstanding ∧
        ∃ more s'' t', Run ContextEvent.step (fun s e => e.Owns s) s' more s'' ∧
          s''.held t' = some (s.threads t).processorId := by
  have hs := ProcessorState.Sound.of_run h
  refine ⟨hs.records.nodup, hs.records.lt, hs.records.mem_iff, hs.owned.mem_iff,
    fun _ _ _ => hs.owned.inj, ?_, ?_, ?_⟩
  · intro t t' id ht ht'
    exact hs.owned.inj (hs.held_of_jit ht) (hs.held_of_jit ht')
  · exact fun t hphase => ⟨hs.terminate_iff hphase, hs.not_terminate hphase⟩
  · intro t hphase
    obtain ⟨s', hstep, hmem, hfreed⟩ := hs.release_frees hphase
    have hs' := hs.step (e := .release t) trivial hstep
    exact ⟨s', hstep, hmem, hfreed, hs'.exists_run_allocating (hs.records.lt _ hmem) hfreed⟩

/-- The second thread gets the id that the first one released. -/
theorem processor_ids_unique_reused : ∃ s,
    Run ContextEvent.step (fun s e => e.Owns s) .initial
      [.initEnter 0, .allocate 0, .initLeave 0, .freeEnter 0, .release 0, .initEnter 1,
        .allocate 1, .initLeave 1] s ∧
    (s.threads 1).jit = some 0 ∧ (∀ t, (s.threads t).jit = some 0 → t = 1) ∧
    s.outstanding.Nodup := by
  have hfirst : ∀ used : Slots.Table maxCpus, used 0 = false →
      Slots.firstFree used = some 0 := fun used h =>
    Slots.firstFree_eq_some_iff.mpr ⟨h, fun j hj => absurd hj (Fin.not_lt_zero j)⟩
  have hrun : ∃ s, Run ContextEvent.step (fun s e => e.Owns s) .initial
      [.initEnter 0, .allocate 0, .initLeave 0, .freeEnter 0, .release 0, .initEnter 1,
        .allocate 1, .initLeave 1] s ∧ (s.threads 1).jit = some 0 := by
    refine ⟨_, .cons trivial rfl (.cons trivial (ContextEvent.allocate_of_free rfl (hfirst _ rfl))
      (.cons trivial rfl (.cons rfl rfl (.cons trivial rfl (.cons trivial rfl
        (.cons trivial (ContextEvent.allocate_of_free rfl (hfirst _ rfl))
          (.cons trivial rfl (.nil _)))))))), rfl⟩
  obtain ⟨s, hrun, hjit⟩ := hrun
  obtain ⟨hnodup, -, -, -, -, hinj, -⟩ := processor_ids_unique _ s hrun
  exact ⟨s, hrun, hjit, fun t ht => hinj t 1 0 ht hjit, hnodup⟩
end Sober
