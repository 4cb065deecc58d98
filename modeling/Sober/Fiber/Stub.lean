import Sober.Fiber.Execution
import Sober.Trampoline.Lookup
import Mathlib.Tactic.IntervalCases

/-! # The generated words as guest code

What the translator makes of the words in the code buffer: a supervisor call
carries the identifier of its entry, the exit stub raises the yield exception,
and a return is an ordinary instruction.
-/
namespace Sober
open Machine

theorem setWidth_identifier {i : ℕ} (hi : i + 16 < 2 ^ 16) :
    (BitVec.ofNat 16 (i + 16)).setWidth 32 = BitVec.ofNat 32 (i + 16) := by
  bv_omega

theorem svcWord_eq {i : ℕ} (hi : i + 16 < 2 ^ 16) :
    svcWord i = 0xD4000001#32 ||| (BitVec.ofNat 16 (i + 16)).setWidth 32 <<< 5 := by
  rw [svcWord, setWidth_identifier hi]
  rfl

theorem decodeSvc_encoded (imm : BitVec 16) :
    decodeSvc (0xD4000001#32 ||| imm.setWidth 32 <<< 5) = some imm := by
  have hmask : (0xD4000001#32 ||| imm.setWidth 32 <<< 5) &&& 0xFFE0001F = 0xD4000001 := by
    ext k hk
    interval_cases k <;> simp
  have himm : ((0xD4000001#32 ||| imm.setWidth 32 <<< 5) >>> 5).setWidth 16 = imm := by
    ext k hk
    interval_cases k <;> simp
  rw [decodeSvc, if_pos hmask, himm]

/-- The immediate of an entry's supervisor call is the identifier of the entry. -/
theorem decodeSvc_svcWord {i : ℕ} (hi : i + 16 < 2 ^ 16) :
    decodeSvc (svcWord i) = some (BitVec.ofNat 16 (i + 16)) := by
  rw [svcWord_eq hi, decodeSvc_encoded]

theorem decodeSvc_encodeRet : decodeSvc encodeRet = none := by decide

theorem hintException_encodeRet : hintException encodeRet = none := by decide

/-- The word of the code buffer at an address, if there is one. -/
def TrampolineState.loadAt (s : TrampolineState) (address : Word) : Option (BitVec 32) :=
  match s.trampolineCode with
  | .mapped m words =>
    let offset := (address - m.base).toNat
    if offset % 4 = 0 then loadWord words (offset / 4) else none
  | _ => none

namespace Layout
variable {m : Mapping} {calls : List CreateArgs} {s : TrampolineState}

theorem loadAt_wordAddress (h : Layout m calls s) {i : ℕ} (hi : i < trampolineCodeWords) :
    s.loadAt (wordAddress m.base i) = some (layoutWord calls.length i) := by
  have ho : (wordAddress m.base i - m.base).toNat = 4 * i := by
    simp only [trampolineCodeWords, trampolineCodeSize] at hi
    simp only [wordAddress]
    bv_omega
  have hq : 4 * i / 4 = i := by omega
  simp only [TrampolineState.loadAt, h.code, ho, Nat.mul_mod_right, if_true, hq]
  exact loadWord_layout calls.length hi

/-- The code address of an entry holds the supervisor call that names it. -/
theorem loadAt_entry (h : Layout m calls s) (hn : calls.length ≤ 8191) {i : ℕ}
    (hi : i < calls.length) : s.loadAt (wordAddress m.base (1 + 2 * i)) = some (svcWord i) := by
  have hw : 1 + 2 * i < trampolineCodeWords := by
    simp only [trampolineCodeWords, trampolineCodeSize]
    omega
  rw [h.loadAt_wordAddress hw, ← loadWord_layout calls.length hw, loadWord_svc hn hi]

end Layout
end Sober
