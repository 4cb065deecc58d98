import Sober.Trampoline.Code

/-! # The layout of a filled code buffer

After a successful initialisation and `n` creations the registry, the code
index and every word of the buffer are determined by the creation arguments.
One creation extends this layout by one entry while the buffer has room, and
all facts about reachable registries are read from it.
-/
namespace Sober
open Machine

def svcWord (i : ℕ) : BitVec 32 := 0xD4000001 ||| BitVec.ofNat 32 (i + 16) <<< 5

theorem encodeSvc_of_lt {i : ℕ} (hi : i + 16 < 2 ^ 16) :
    encodeSvc ((BitVec.ofNat 16 i).setWidth 32 + trampolineIdOffset) = .ok (svcWord i) := by
  have he : (BitVec.ofNat 16 i).setWidth 32 + trampolineIdOffset = BitVec.ofNat 32 (i + 16) := by
    simp only [trampolineIdOffset]
    bv_omega
  have hm : BitVec.ofNat 32 (i + 16) &&& 0xFFFF = BitVec.ofNat 32 (i + 16) := by
    apply BitVec.eq_of_toNat_eq
    rw [BitVec.toNat_and, BitVec.toNat_ofNat, Nat.mod_eq_of_lt (show i + 16 < 2 ^ 32 by omega)]
    exact (Nat.and_two_pow_sub_one_eq_mod (i + 16) 16).trans (Nat.mod_eq_of_lt hi)
  rw [encodeSvc, he, if_pos hm, svcWord]

/-- Contents of the buffer once it holds `n` entries: the exit stub, then a
supervisor call and a return for each entry, then untouched zero words. -/
def layoutWord (n i : ℕ) : BitVec 32 :=
  if i = 0 then encodeYield
  else if 2 * n < i then 0
  else if i % 2 = 1 then svcWord (i / 2) else encodeRet

def layoutWords (n : ℕ) : Fin trampolineCodeWords → BitVec 32 := fun i => layoutWord n i.val

def CreateArgs.entry (c : CreateArgs) (base : Word) (i : ℕ) : Trampoline :=
  c.trampoline (BitVec.ofNat 16 i) (wordAddress base (1 + 2 * i))

structure Layout (m : Mapping) (calls : List CreateArgs) (s : TrampolineState) : Prop where
  trampolines : s.trampolines = calls.mapIdx (fun i c => c.entry m.base i)
  code : s.trampolineCode = .mapped m (layoutWords calls.length)
  index : s.trampolineCodeIndex = 1 + 2 * calls.length
  buf : s.tempCodeGenBuf = []
  guestExit : s.guestExitTrampoline = wordAddress m.base 0

namespace Layout
variable {m : Mapping} {calls : List CreateArgs} {s : TrampolineState}

theorem length (h : Layout m calls s) : s.trampolines.length = calls.length := by
  rw [h.trampolines, List.length_mapIdx]

/-- The words a creation reads ahead are still zero. -/
theorem word_ahead (n : ℕ) : layoutWord n (1 + 2 * n + 2) = 0 := by
  have h : 2 * n < 1 + 2 * n + 2 := by omega
  simp [layoutWord, h]

theorem loadWord_ahead {n : ℕ} (hn : n < 8191) :
    loadWord (layoutWords n) (1 + 2 * n + 2) = some 0 := by
  rw [loadWord, dif_pos (by simp only [trampolineCodeWords, trampolineCodeSize]; omega)]
  simp only [layoutWords, word_ahead]

/-- Writing the two words of entry `n` gives the buffer of `n + 1` entries. -/
theorem layoutWords_succ {n : ℕ} (h1 : 1 + 2 * n < trampolineCodeWords)
    (h2 : 1 + 2 * n + 1 < trampolineCodeWords) :
    Function.update (Function.update (layoutWords n) ⟨1 + 2 * n, h1⟩ (svcWord n))
      ⟨1 + 2 * n + 1, h2⟩ encodeRet = layoutWords (n + 1) := by
  funext i
  by_cases hret : i = ⟨1 + 2 * n + 1, h2⟩
  · subst hret
    have ho : ¬ 2 * (n + 1) < 1 + 2 * n + 1 := by omega
    have hp : (1 + 2 * n + 1) % 2 ≠ 1 := by omega
    simp [layoutWords, layoutWord, ho, hp]
  · rw [Function.update_of_ne hret]
    by_cases hsvc : i = ⟨1 + 2 * n, h1⟩
    · subst hsvc
      have ho : ¬ 2 * (n + 1) < 1 + 2 * n := by omega
      have hp : (1 + 2 * n) % 2 = 1 := by omega
      have hd : (1 + 2 * n) / 2 = n := by omega
      simp [layoutWords, layoutWord, ho, hp, hd]
    · rw [Function.update_of_ne hsvc]
      have hne1 : i.val ≠ 1 + 2 * n := fun e => hsvc (Fin.ext e)
      have hne2 : i.val ≠ 1 + 2 * n + 1 := fun e => hret (Fin.ext e)
      have ho : 2 * n < i.val ↔ 2 * (n + 1) < i.val := by omega
      simp only [layoutWords, layoutWord, ho]

/-- A creation that finds room returns, and extends the layout by its entry. -/
theorem create (h : Layout m calls s) (hn : calls.length < 8191) (c : CreateArgs) :
    ∃ s', trampolineCreate c s = .returned s' ∧ Layout m (calls ++ [c]) s' := by
  have h1 : 1 + 2 * calls.length < trampolineCodeWords := by
    simp only [trampolineCodeWords, trampolineCodeSize]
    omega
  have h2 : 1 + 2 * calls.length + 1 < trampolineCodeWords := by
    simp only [trampolineCodeWords, trampolineCodeSize] at h1 ⊢
    omega
  have hguard : ¬ m.base.toNat + 4 * (0 : BitVec 32).toNat ≥
      m.base.toNat + 4 * trampolineCodeSize := by
    simp [trampolineCodeSize]
  refine ⟨{ s with
    trampolines := s.trampolines ++ [c.entry m.base calls.length]
    trampolineCode := .mapped m (layoutWords (calls.length + 1))
    trampolineCodeIndex := 1 + 2 * calls.length + 1 + 1
    tempCodeGenBuf := [] }, ?_, ?_⟩
  · simp only [trampolineCreate, h.code, h.index, loadWord_ahead hn, if_neg hguard,
      emitTrampoline, h.length, encodeSvc_of_lt (show calls.length + 16 < 2 ^ 16 by omega),
      h.buf, List.nil_append, List.getD_cons_zero, List.getD_cons_succ, storeWord, dif_pos h1,
      dif_pos h2, layoutWords_succ h1 h2]
    rfl
  · refine ⟨?_, ?_, ?_, rfl, h.guestExit⟩
    · simp [h.trampolines, List.mapIdx_append]
    · simp
    · simp only [List.length_append, List.length_singleton]
      omega

/-- Once the buffer is full the guard itself reads past its end. -/
theorem create_full (h : Layout m calls s) (hn : calls.length = 8191) (c : CreateArgs) :
    trampolineCreate c s = .outOfBounds := by
  have hl : loadWord (layoutWords calls.length) (1 + 2 * calls.length + 2) = none := by
    rw [loadWord, dif_neg]
    simp only [trampolineCodeWords, trampolineCodeSize]
    omega
  simp only [trampolineCreate, h.code, h.index, hl]

end Layout

/-- Where the program continues after a creation, also after an exception. -/
def CreateOutcome.next : CreateOutcome → Option TrampolineState
  | .returned s => some s
  | .threw _ s => some s
  | .outOfBounds => none

/-- A sequence of creations, as long as none leaves the buffer. -/
def createAll : TrampolineState → List CreateArgs → Option TrampolineState
  | s, [] => some s
  | s, c :: cs => (trampolineCreate c s).next.bind (fun s' => createAll s' cs)

def startUp (mapping : Option Mapping) (calls : List CreateArgs) : Option TrampolineState :=
  (trampolineInit mapping .initial).bind (fun r => createAll r.2 calls)

theorem trampolineInit_layout (m : Mapping) :
    ∃ s, trampolineInit (some m) .initial = some (0, s) ∧ Layout m [] s := by
  refine ⟨{ TrampolineState.initial with
    trampolineCode := .mapped m (layoutWords 0)
    trampolineCodeIndex := 1
    guestExitTrampoline := wordAddress m.base 0 }, ?_, rfl, rfl, rfl, rfl, rfl⟩
  have hw : Function.update (fun _ : Fin trampolineCodeWords => (0 : BitVec 32))
      ⟨0, by decide⟩ encodeYield = layoutWords 0 := by
    funext i
    by_cases hi : i = ⟨0, by decide⟩
    · subst hi
      simp [layoutWords, layoutWord]
    · have hz : i.val ≠ 0 := fun e => hi (Fin.ext e)
      have hp : 0 < i.val := by omega
      simp [hi, layoutWords, layoutWord, hz, hp]
  simp only [trampolineInit, TrampolineState.initial, List.nil_append, List.getD_cons_zero,
    storeWord, dif_pos (show 0 < trampolineCodeWords by decide), hw]

theorem layout_of_init {m : Mapping} {s : TrampolineState}
    (h : trampolineInit (some m) .initial = some (0, s)) : Layout m [] s := by
  rcases trampolineInit_layout m with ⟨s', hs', hl⟩
  rw [h] at hs'
  cases hs'
  exact hl

theorem Layout.createAll {m : Mapping} {calls : List CreateArgs} {s : TrampolineState}
    (h : Layout m calls s) (cs : List CreateArgs) (hn : calls.length + cs.length ≤ 8191) :
    ∃ s', Sober.createAll s cs = some s' ∧ Layout m (calls ++ cs) s' := by
  induction cs generalizing calls s with
  | nil => exact ⟨s, rfl, by simpa using h⟩
  | cons c cs ih =>
    simp only [List.length_cons] at hn
    rcases h.create (by omega) c with ⟨s', hc, hl⟩
    obtain ⟨s'', hs, hl'⟩ := ih hl (by simp only [List.length_append, List.length_singleton]; omega)
    refine ⟨s'', ?_, by simpa using hl'⟩
    simp only [Sober.createAll, hc, CreateOutcome.next, Option.bind_some, hs]

/-- Every start-up with at most 8191 creations ends in their layout. -/
theorem startUp_layout (m : Mapping) (calls : List CreateArgs) (hn : calls.length ≤ 8191) :
    ∃ s, startUp (some m) calls = some s ∧ Layout m calls s := by
  rcases trampolineInit_layout m with ⟨s, hi, hl⟩
  rcases hl.createAll calls (by simpa using hn) with ⟨s', hs, hl'⟩
  exact ⟨s', by simp only [startUp, hi, Option.bind_some, hs], by simpa using hl'⟩

theorem Layout.length_le_of_createAll {m : Mapping} {calls : List CreateArgs}
    {s s' : TrampolineState} (h : Layout m calls s) (hn : calls.length ≤ 8191)
    (cs : List CreateArgs) (hrun : Sober.createAll s cs = some s') :
    (calls ++ cs).length ≤ 8191 := by
  induction cs generalizing calls s with
  | nil => simpa using hn
  | cons c cs ih =>
    by_cases hfull : calls.length = 8191
    · rw [Sober.createAll, h.create_full hfull c] at hrun
      cases hrun
    · rcases h.create (by omega) c with ⟨s₁, hcreate, hlayout⟩
      rw [Sober.createAll, hcreate] at hrun
      have hle := ih hlayout (by rw [List.length_append, List.length_singleton]; omega) hrun
      rwa [List.append_assoc] at hle

/-- A start-up that stays inside the buffer has its layout. -/
theorem layout_of_startUp {m : Mapping} {calls : List CreateArgs} {s : TrampolineState}
    (h : startUp (some m) calls = some s) : calls.length ≤ 8191 ∧ Layout m calls s := by
  rcases trampolineInit_layout m with ⟨s₀, hinit, hlayout⟩
  have hrun : createAll s₀ calls = some s := by
    simpa only [startUp, hinit, Option.bind_some] using h
  have hn := hlayout.length_le_of_createAll (by simp) calls hrun
  rcases startUp_layout m calls hn with ⟨s', hs', hl⟩
  rw [h] at hs'
  cases hs'
  exact ⟨hn, hl⟩

/-- A concrete mapping and creation, for the runs on fixed inputs. -/
def lowMapping : Mapping := ⟨0x10000, by decide, by decide⟩

def plainCall : CreateArgs := ⟨"getpid", 0x1000, FunctionTypes.of .signedWord [], false, false⟩

end Sober
