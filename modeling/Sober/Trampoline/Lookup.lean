import Sober.Trampoline.Layout

/-! # The registry and the generated code agree

Read from the layout: what the guest executes at the address of an entry is
the supervisor call that looks that very entry up again.
-/
namespace Sober
open Machine

namespace Layout
variable {m : Mapping} {calls : List CreateArgs} {s : TrampolineState}

theorem trampolines_getElem? (h : Layout m calls s) {i : ℕ} (hi : i < calls.length) :
    s.trampolines[i]? = some (calls[i].entry m.base i) := by
  simp [h.trampolines, hi]

theorem loadWord_layout (n : ℕ) {i : ℕ} (hi : i < trampolineCodeWords) :
    loadWord (layoutWords n) i = some (layoutWord n i) := by
  rw [loadWord, dif_pos hi]
  rfl

theorem loadWord_svc {n i : ℕ} (hn : n ≤ 8191) (hi : i < n) :
    loadWord (layoutWords n) (1 + 2 * i) = some (svcWord i) := by
  rw [loadWord_layout n (by simp only [trampolineCodeWords, trampolineCodeSize]; omega)]
  have ho : ¬ 2 * n < 1 + 2 * i := by omega
  have hp : (1 + 2 * i) % 2 = 1 := by omega
  have hd : (1 + 2 * i) / 2 = i := by omega
  simp [layoutWord, ho, hp, hd]

theorem loadWord_ret {n i : ℕ} (hn : n ≤ 8191) (hi : i < n) :
    loadWord (layoutWords n) (1 + 2 * i + 1) = some encodeRet := by
  rw [loadWord_layout n (by simp only [trampolineCodeWords, trampolineCodeSize]; omega)]
  have ho : ¬ 2 * n < 1 + 2 * i + 1 := by omega
  have hp : (1 + 2 * i + 1) % 2 ≠ 1 := by omega
  simp [layoutWord, ho, hp]

theorem maybeGetById (h : Layout m calls s) (hn : calls.length ≤ 8191) {i : ℕ}
    (hi : i < calls.length) :
    trampolineMaybeGetById s.trampolines (BitVec.ofNat 32 (i + 16)) =
      some (calls[i].entry m.base i) := by
  have ht : (BitVec.ofNat 32 (i + 16)).toNat = i + 16 := by
    rw [BitVec.toNat_ofNat, Nat.mod_eq_of_lt (by omega)]
  rw [trampolineMaybeGetById_eq, ht, if_neg (by omega), Nat.add_sub_cancel,
    h.trampolines_getElem? hi]

theorem maybeGetById_none (h : Layout m calls s) (v : BitVec 16)
    (hv : ∀ i < calls.length, v.toNat ≠ i + 16) :
    trampolineMaybeGetById s.trampolines (v.setWidth 32) = none := by
  have ht : (v.setWidth 32).toNat = v.toNat := by
    rw [BitVec.toNat_setWidth, Nat.mod_eq_of_lt (by omega)]
  rw [trampolineMaybeGetById_eq, ht]
  split_ifs with hlt
  · rfl
  · rw [List.getElem?_eq_none]
    rw [h.length]
    by_contra hc
    exact hv (v.toNat - 16) (by omega) (by omega)

end Layout

theorem wordAddress_inj {base : Word} {i j : ℕ} (hi : i < trampolineCodeWords)
    (hj : j < trampolineCodeWords) (h : wordAddress base i = wordAddress base j) : i = j := by
  have he := congrArg BitVec.toNat ((BitVec.add_right_inj base).mp h)
  simp only [trampolineCodeWords, trampolineCodeSize] at hi hj
  rw [BitVec.toNat_ofNat, BitVec.toNat_ofNat, Nat.mod_eq_of_lt (by omega),
    Nat.mod_eq_of_lt (by omega)] at he
  omega

/-- The code words of two entries never share an address. -/
theorem entry_words_disjoint {base : Word} {n i j a b : ℕ} (hn : n ≤ 8191) (hi : i < n)
    (hj : j < n) (hij : i ≠ j) (ha : a < 2) (hb : b < 2) :
    wordAddress base (1 + 2 * i + a) ≠ wordAddress base (1 + 2 * j + b) := by
  intro h
  have hw : trampolineCodeWords = 16384 := rfl
  have := wordAddress_inj (by omega) (by omega) h
  omega

/-- In every state reached from a successful initialisation by at most 8191
creations the exit stub is intact, each entry's code address holds its own
supervisor call and a return, no two entries share a word, and an immediate
looks up the entry it was generated for, with its creation data, and no other. -/
theorem registry_matches_code (m : Mapping) (calls : List CreateArgs)
    (hn : calls.length ≤ 8191) :
    ∃ s words, startUp (some m) calls = some s ∧ s.trampolineCode = .mapped m words ∧
      s.trampolines.length = calls.length ∧
      loadWord words 0 = some encodeYield ∧ s.guestExitTrampoline = wordAddress m.base 0 ∧
      (∀ i (hi : i < calls.length), ∃ t, s.trampolines[i]? = some t ∧
        t.name = calls[i].name ∧ t.nativeFunc = calls[i].nativeFunc ∧ t.types = calls[i].types ∧
        t.isEllipsisFunction = calls[i].isEllipsisFunction ∧
        t.hasExecutionSideEffects = calls[i].hasExecutionSideEffects ∧
        t.guestTrampoline = wordAddress m.base (1 + 2 * i) ∧
        (loadWord words (1 + 2 * i)).map Except.ok =
          some (encodeSvc (BitVec.ofNat 32 i + trampolineIdOffset)) ∧
        loadWord words (1 + 2 * i + 1) = some encodeRet ∧
        trampolineMaybeGetById s.trampolines (BitVec.ofNat 32 i + trampolineIdOffset) = some t ∧
        trampolineGetById s.trampolines (BitVec.ofNat 32 i + trampolineIdOffset) = some t) ∧
      (∀ i j a b, i < calls.length → j < calls.length → i ≠ j → a < 2 → b < 2 →
        wordAddress m.base (1 + 2 * i + a) ≠ wordAddress m.base (1 + 2 * j + b)) ∧
      (∀ v : BitVec 16, (∀ i < calls.length, v.toNat ≠ i + trampolineIdOffset.toNat) →
        trampolineMaybeGetById s.trampolines (v.setWidth 32) = none) := by
  rcases startUp_layout m calls hn with ⟨s, hs, hl⟩
  refine ⟨s, _, hs, hl.code, hl.length, rfl, hl.guestExit, ?_,
    fun i j a b hi hj => entry_words_disjoint hn hi hj, fun v hv => hl.maybeGetById_none v hv⟩
  intro i hi
  have hid : BitVec.ofNat 32 i + trampolineIdOffset = BitVec.ofNat 32 (i + 16) := by
    rw [BitVec.ofNat_add]
    rfl
  have hsvc : encodeSvc (BitVec.ofNat 32 i + trampolineIdOffset) = .ok (svcWord i) := by
    rw [← encodeSvc_of_lt (show i + 16 < 2 ^ 16 by omega)]
    congr 2
    bv_omega
  have hget := hl.maybeGetById hn hi
  refine ⟨_, hl.trampolines_getElem? hi, rfl, rfl, rfl, rfl, rfl, rfl, ?_,
    Layout.loadWord_ret hn hi, hid ▸ hget, hid ▸ trampolineGetById_of_maybe hget⟩
  rw [Layout.loadWord_svc hn hi, hsvc]
  rfl

def printfCall : CreateArgs := ⟨"printf", 0x2000, .of .signedWord [.pointer], true, true⟩

theorem registry_matches_code_getpid :
    ∃ s t t', startUp (some lowMapping) [plainCall, printfCall] = some s ∧
      s.trampolines[0]? = some t ∧ s.trampolines[1]? = some t' ∧
      t.name = "getpid" ∧ t'.name = "printf" ∧ t'.isEllipsisFunction = true ∧
      t'.guestTrampoline = wordAddress lowMapping.base 3 ∧
      trampolineMaybeGetById s.trampolines 0x10 = some t ∧
      trampolineMaybeGetById s.trampolines 0x11 = some t' ∧
      trampolineMaybeGetById s.trampolines 0x12 = none := by
  obtain ⟨s, _, hs, -, -, -, -, he, -, hnone⟩ :=
    registry_matches_code lowMapping [plainCall, printfCall] (by decide)
  rcases he 0 (by decide) with ⟨t, ht, hname, -, -, -, -, -, -, -, hget, -⟩
  rcases he 1 (by decide) with ⟨t', ht', hname', -, -, hellipsis, -, haddress, -, -, hget', -⟩
  exact ⟨s, t, t', hs, ht, ht', hname, hname', hellipsis, haddress, hget, hget',
    hnone 0x12 (by decide)⟩

end Sober
