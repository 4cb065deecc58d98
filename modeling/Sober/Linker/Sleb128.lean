import Sober.Machine.Memory

/-! # Signed LEB128 numbers

Packed relocations are sequences of numbers in groups of seven bits, the lowest first;
the top bit of a byte says that another one follows, and the sign is that of the last
group. The decoder reads what an encoder writes, for every 64-bit number.
-/
namespace Sober
open Machine

inductive PackedFault where
  /-- `async_safe_fatal` -/
  | outOfBounds
  /-- A shift by the width of the type or more. -/
  | undefinedShift
  deriving DecidableEq

/-- The loop of `sleb128_decoder::pop_front` and the sign extension after it. -/
def popFrontLoop : List Byte → ℕ → Word → Except PackedFault (Word × List Byte)
  | [], _, _ => .error .outOfBounds
  | byte :: rest, shift, value =>
    if 64 ≤ shift then .error .undefinedShift
    else
      let value := value ||| (byte &&& 127).setWidth 64 <<< shift
      let shift := shift + 7
      if byte &&& 128 ≠ 0 then popFrontLoop rest shift value
      else if shift < 64 ∧ byte &&& 64 ≠ 0 then .ok (value ||| -(1#64 <<< shift), rest)
      else .ok (value, rest)

def popFront (bytes : List Byte) : Except PackedFault (Word × List Byte) := popFrontLoop bytes 0 0

section Encoding

def encodeSleb128 (x : ℤ) : List Byte :=
  if x / 128 = 0 ∧ (x % 128).toNat < 64 ∨ x / 128 = -1 ∧ 64 ≤ (x % 128).toNat then
    [BitVec.ofNat 8 (x % 128).toNat]
  else BitVec.ofNat 8 ((x % 128).toNat + 128) :: encodeSleb128 (x / 128)
termination_by x.natAbs
decreasing_by omega

theorem last_byte : ∀ group < 128,
    (BitVec.ofNat 8 group &&& 127).setWidth 64 = BitVec.ofNat 64 group ∧
    BitVec.ofNat 8 group &&& 128 = 0 ∧ (BitVec.ofNat 8 group &&& 64 ≠ 0 ↔ 64 ≤ group) := by
  decide

theorem more_byte : ∀ group < 128,
    (BitVec.ofNat 8 (group + 128) &&& 127).setWidth 64 = BitVec.ofNat 64 group ∧
      BitVec.ofNat 8 (group + 128) &&& 128 ≠ 0 := by
  decide

/-- The lowest seven bits of a number, and the others. -/
theorem ofInt_eq_or (x : ℤ) :
    BitVec.ofInt 64 x = BitVec.ofNat 64 (x % 128).toNat ||| BitVec.ofInt 64 (x / 128) <<< 7 := by
  have hlow : (x % 128).toNat < 2 ^ 7 := by omega
  have hdisjoint : BitVec.ofNat 64 (x % 128).toNat &&& BitVec.ofInt 64 (x / 128) <<< 7 = 0#64 := by
    apply BitVec.eq_of_getLsbD_eq
    intro i hi
    rw [BitVec.getLsbD_and, BitVec.getLsbD_shiftLeft, BitVec.getLsbD_zero, BitVec.getLsbD_ofNat]
    rcases Nat.lt_or_ge i 7 with hlt | hge
    · simp [hlt]
    · have hbit : (x % 128).toNat.testBit i = false :=
        Nat.testBit_lt_two_pow (hlow.trans_le (Nat.pow_le_pow_right (by decide) hge))
      simp [hbit]
  rw [← BitVec.add_eq_or_of_and_eq_zero _ _ hdisjoint, BitVec.shiftLeft_eq_mul_twoPow,
    ← BitVec.ofInt_natCast]
  have htwoPow : BitVec.twoPow 64 7 = BitVec.ofInt 64 128 := by decide
  rw [htwoPow, ← BitVec.ofInt_mul, ← BitVec.ofInt_add]
  congr 1
  omega

theorem neg_one_shiftLeft (shift : ℕ) : (-1#64) <<< shift = -(1#64 <<< shift) := by
  rw [BitVec.shiftLeft_eq_mul_twoPow, BitVec.shiftLeft_eq_mul_twoPow, BitVec.neg_mul]

theorem or_shiftLeft (value a b : Word) (shift : ℕ) :
    (value ||| a <<< shift) ||| b <<< (shift + 7) = value ||| (a ||| b <<< 7) <<< shift := by
  rw [BitVec.shiftLeft_or_distrib, BitVec.or_assoc, ← BitVec.shiftLeft_add, Nat.add_comm]

theorem ofInt_shiftLeft (value : Word) (x : ℤ) (shift : ℕ) :
    (value ||| BitVec.ofNat 64 (x % 128).toNat <<< shift) |||
        BitVec.ofInt 64 (x / 128) <<< (shift + 7) =
      value ||| BitVec.ofInt 64 x <<< shift := by
  rw [or_shiftLeft, ← ofInt_eq_or]

/-- Within the last group of a 64-bit number the encoder stops. -/
theorem sleb128_stops {x : ℤ} {shift : ℕ} (hlast : 64 ≤ shift + 7)
    (hlower : -2 ^ (63 - shift) ≤ x) (hupper : x < 2 ^ (63 - shift)) :
    x / 128 = 0 ∧ (x % 128).toNat < 64 ∨ x / 128 = -1 ∧ 64 ≤ (x % 128).toNat := by
  have hpow : (2 : ℤ) ^ (63 - shift) ≤ 2 ^ 6 := pow_le_pow_right₀ (by norm_num) (by omega)
  omega

/-- Decoding an encoding that starts at bit `shift`. -/
theorem popFrontLoop_encodeSleb128 {x : ℤ} {shift : ℕ} (hshift : shift < 64)
    (hlower : -2 ^ (63 - shift) ≤ x) (hupper : x < 2 ^ (63 - shift)) (value : Word)
    (rest : List Byte) :
    popFrontLoop (encodeSleb128 x ++ rest) shift value =
      .ok (value ||| BitVec.ofInt 64 x <<< shift, rest) := by
  induction x using encodeSleb128.induct generalizing shift value with
  | case1 x hstop =>
    obtain ⟨hlow, hmore, hsign⟩ := last_byte (x % 128).toNat (by omega)
    rw [encodeSleb128, if_pos hstop, List.singleton_append, popFrontLoop, if_neg (by omega),
      ← ofInt_shiftLeft]
    dsimp only
    rw [hlow, if_neg (not_not.mpr hmore)]
    simp only [hsign]
    rcases hstop with ⟨hzero, hgroup⟩ | ⟨hneg, hgroup⟩
    · rw [if_neg fun h => by omega, hzero]
      simp
    · rw [hneg, show BitVec.ofInt 64 (-1) = -1#64 from rfl, neg_one_shiftLeft]
      split_ifs with hsmall
      · rfl
      · have hpast : 64 ≤ shift + 7 := by
          by_contra hlt
          exact hsmall ⟨by omega, hgroup⟩
        rw [BitVec.shiftLeft_eq_zero hpast]
        simp
  | case2 x hmore ih =>
    obtain ⟨hlow, hbit⟩ := more_byte (x % 128).toNat (by omega)
    have hnext : shift + 7 < 64 := by
      by_contra hlast
      exact hmore (sleb128_stops (by omega) hlower hupper)
    have hpow : (2 : ℤ) ^ (63 - shift) = 128 * 2 ^ (63 - (shift + 7)) := by
      rw [show 63 - shift = 63 - (shift + 7) + 7 by omega, pow_add]
      ring
    rw [encodeSleb128, if_neg hmore, List.cons_append, popFrontLoop, if_neg (by omega)]
    dsimp only
    rw [hlow, if_pos hbit, ih hnext (by omega) (by omega), ofInt_shiftLeft]

theorem popFront_encodeSleb128 (w : Word) (rest : List Byte) :
    popFront (encodeSleb128 w.toInt ++ rest) = .ok (w, rest) := by
  have hlower := BitVec.le_toInt w
  have hupper := BitVec.toInt_lt (x := w)
  rw [popFront, popFrontLoop_encodeSleb128 (by decide) hlower hupper]
  simp

end Encoding
end Sober
