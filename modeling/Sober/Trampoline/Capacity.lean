import Sober.Trampoline.Layout

/-! # How many creations the code buffer survives

A creation is safe when it throws without touching anything or writes its two
words inside an allocated buffer under a fresh identifier. The guard of
`trampoline_create` never fires, so a run is safe exactly as long as the
mapping succeeded and the words fit.
-/
namespace Sober
open Machine

def CreateSafe (s : TrampolineState) : CreateOutcome → Prop
  | .threw _ s' => s'.trampolines = s.trampolines ∧
      s'.trampolineCodeIndex = s.trampolineCodeIndex ∧ s'.tempCodeGenBuf = s.tempCodeGenBuf ∧
      s'.trampolineCode = s.trampolineCode
  | .returned s' => ∃ m words words' t, s.trampolineCode = .mapped m words ∧
      s'.trampolineCode = .mapped m words' ∧
      s.trampolineCodeIndex + 1 < trampolineCodeSize / 4 ∧
      (∀ i, i.val ≠ s.trampolineCodeIndex → i.val ≠ s.trampolineCodeIndex + 1 →
        words' i = words i) ∧
      s'.trampolines = s.trampolines ++ [t] ∧
      t.id.toNat + trampolineIdOffset.toNat < 2 ^ 16 ∧ ∀ u ∈ s.trampolines, u.id ≠ t.id
  | .outOfBounds => False

def RunSafe : TrampolineState → List CreateArgs → Prop
  | _, [] => True
  | s, c :: cs => CreateSafe s (trampolineCreate c s) ∧
      ∀ s', (trampolineCreate c s).next = some s' → RunSafe s' cs

theorem entry_id_toNat (c : CreateArgs) (base : Word) {i : ℕ} (hi : i < 2 ^ 16) :
    (c.entry base i).id.toNat = i := by
  simp only [CreateArgs.entry, CreateArgs.trampoline, BitVec.toNat_setWidth, BitVec.toNat_ofNat]
  rw [Nat.mod_eq_of_lt hi, Nat.mod_eq_of_lt (by omega)]

namespace Layout
variable {m : Mapping} {calls : List CreateArgs} {s s' : TrampolineState}

/-- Earlier entries carry smaller identifiers. -/
theorem id_lt (h : Layout m calls s) (hn : calls.length ≤ 8191) {u : Trampoline}
    (hu : u ∈ s.trampolines) : u.id.toNat < calls.length := by
  rw [h.trampolines, List.mem_mapIdx] at hu
  rcases hu with ⟨i, hi, rfl⟩
  rw [entry_id_toNat _ _ (by omega)]
  exact hi

theorem createSafe (h : Layout m calls s) (hn : calls.length < 8191) {c : CreateArgs}
    (h' : Layout m (calls ++ [c]) s') : CreateSafe s (.returned s') := by
  refine ⟨m, _, _, c.entry m.base calls.length, h.code, h'.code, ?_, ?_, ?_, ?_, ?_⟩
  · rw [h.index]
    simp only [trampolineCodeSize]
    omega
  · intro i h1 h2
    rw [h.index] at h1 h2
    have ho : 2 * calls.length < i.val ↔ 2 * (calls.length + 1) < i.val := by omega
    simp only [layoutWords, layoutWord, List.length_append, List.length_singleton, ho]
  · rw [h'.trampolines, h.trampolines, List.mapIdx_append]
    simp
  · rw [entry_id_toNat _ _ (by omega)]
    have ho : trampolineIdOffset.toNat = 16 := rfl
    omega
  · intro u hu he
    have hlt := h.id_lt (by omega) hu
    rw [he, entry_id_toNat _ _ (by omega)] at hlt
    exact lt_irrefl _ hlt

theorem runSafe_iff (h : Layout m calls s) (hn : calls.length ≤ 8191) (cs : List CreateArgs) :
    RunSafe s cs ↔ calls.length + cs.length ≤ 8191 := by
  induction cs generalizing calls s with
  | nil => simpa [RunSafe] using hn
  | cons c cs ih =>
    rcases hn.lt_or_eq with hlt | heq
    · rcases h.create hlt c with ⟨s', hc, hl⟩
      have hi := ih hl (by simp only [List.length_append, List.length_singleton]; omega)
      rw [RunSafe, hc]
      simp only [CreateOutcome.next, Option.some.injEq, forall_eq']
      rw [and_iff_right (h.createSafe hlt hl), hi]
      simp only [List.length_append, List.length_cons, List.length_nil]
      omega
    · rw [RunSafe, h.create_full heq c]
      simp only [CreateSafe, false_and, List.length_cons, false_iff]
      omega

end Layout

/-- After a failed mapping the pointer is not null, and the first creation
already dereferences it. -/
theorem runSafe_mapFailed (cs : List CreateArgs) :
    RunSafe { TrampolineState.initial with trampolineCode := .mapFailed } cs ↔ cs = [] := by
  cases cs with
  | nil => simp [RunSafe]
  | cons c cs => simp [RunSafe, trampolineCreate, CreateSafe]

/-- Initialisation always returns, and the creations that follow it are all
safe if and only if there are none, or the mapping succeeded and there are at
most 8191. -/
theorem creations_safe_iff (mapping : Option Mapping) (calls : List CreateArgs) :
    ∃ status s, trampolineInit mapping .initial = some (status, s) ∧
      (RunSafe s calls ↔ calls = [] ∨ (mapping.isSome ∧ calls.length ≤ 8191)) := by
  cases mapping with
  | none =>
    refine ⟨_, _, rfl, ?_⟩
    rw [runSafe_mapFailed]
    simp
  | some m =>
    rcases trampolineInit_layout m with ⟨s, hi, hl⟩
    refine ⟨0, s, hi, ?_⟩
    rw [hl.runSafe_iff (by simp)]
    cases calls <;> simp

/-- The 8192nd creation leaves the buffer, and so does the first one after a
failed mapping. -/
theorem creations_not_always_safe :
    (∃ s, trampolineInit (some lowMapping) .initial = some (0, s) ∧
      ¬ RunSafe s (List.replicate 8192 plainCall)) ∧
    (∃ s, trampolineInit none .initial = some (-1, s) ∧ ¬ RunSafe s [plainCall]) := by
  constructor
  · rcases trampolineInit_layout lowMapping with ⟨s, hi, hl⟩
    refine ⟨s, hi, ?_⟩
    rw [hl.runSafe_iff (by simp), List.length_replicate]
    decide
  · refine ⟨_, rfl, ?_⟩
    rw [runSafe_mapFailed]
    simp

end Sober
