import Sober.Ir.Folds

/-!
# One turn of the constant propagation loop

The folds of shifts and of `MostSignificantWord` also give the pseudo-operation that asks
for the carry its value. With them, every turn of the loop leaves an instruction that can
take the place of the one it found.
-/

namespace Sober.Ir

open Propagation

variable {D : Type} {other : D → List Word → Datum Flags} {types : ℕ → Ty}
  {env : ℕ → Datum Flags} {before after : List (DataInst D)} {inst : DataInst D}

section Carries

/-- The pseudo-operation that asks for the carry may be given its value at once. -/
structure CarryReplaced (types : ℕ → Ty) (env : ℕ → Datum Flags) (before : List (DataInst D))
    (inst : DataInst D) (carry : Bool) (replacement : Arg) : Prop where
  known : Known before inst replacement
  typed : replacement.ty types = .u1
  value : (replacement.eval env).bits = (BitVec.ofBool carry).setWidth 128

/-- At most one pseudo-operation asks for the carry of an instruction. -/
def CarryOnce (name : ℕ) (after : List (DataInst D)) : Prop :=
  after.Pairwise fun p q => isCarryOf name p = true → isCarryOf name q = false

variable {name : ℕ} {replacement : Arg}

theorem isCarryOf_iff {p : DataInst D} :
    isCarryOf name p = true ↔
      p.op = .data .getCarryFromOp ∧ p.args.head? = some (.inst name) := by
  unfold isCarryOf
  constructor
  · intro h
    simp only [Bool.and_eq_true, decide_eq_true_eq] at h
    refine ⟨?_, h.2⟩
    have hop := h.1
    split at hop
    · assumption
    · cases hop
  · rintro ⟨hop, hhead⟩
    simp [hop, hhead]

theorem isCarryOf_replaceUsesWith (p : DataInst D) :
    isCarryOf name (p.replaceUsesWith replacement) = false := rfl

/-- After that nobody asks any more. -/
theorem not_isCarryOf_of_mem (honce : CarryOnce name after) {p : DataInst D}
    (hp : p ∈ replaceCarry name replacement after) : isCarryOf name p = false := by
  induction after with
  | nil => cases hp
  | cons q after ih =>
    rw [CarryOnce, List.pairwise_cons] at honce
    rw [replaceCarry] at hp
    split_ifs at hp with hcarry
    · rcases List.mem_cons.mp hp with rfl | hp
      · exact isCarryOf_replaceUsesWith q
      · exact honce.1 p hp hcarry
    · rcases List.mem_cons.mp hp with rfl | hp
      · simpa using hcarry
      · exact ih honce.2 hp

/-- Flags that differ in the carry alone look the same to all others. -/
theorem sameFlags_of_no_carry {p : DataInst D} (hcarry : isCarryOf name p = false)
    {op : DataOp D} (hop : p.op = .data op) (hhead : p.args.head? = some (.inst name))
    {f f' : Flags} (hoverflow : f'.overflow = f.overflow) (hnzcv : f'.nzcv = f.nzcv) :
    op.SameFlags f f' := by
  cases op with
  | getCarryFromOp =>
    rw [isCarryOf_iff.mpr ⟨hop, hhead⟩] at hcarry
    cases hcarry
  | getOverflowFromOp => exact hoverflow
  | getNZCVFromOp s => exact hnzcv
  | _ => trivial

end Carries

section ShiftFolds

variable {kind : Shift} {s : Size}

theorem result_shift (hop : inst.op = .data (.shift kind s)) :
    result other env inst =
      ⟨(kind.eval (((inst.arg 0).eval env).bits.setWidth s.n)
          (((inst.arg 1).eval env).bits.setWidth 8).toNat).setWidth 128,
        { (default : Flags) with
          carry := kind.carryOut (((inst.arg 0).eval env).bits.setWidth s.n)
            (((inst.arg 1).eval env).bits.setWidth 8).toNat
            (((inst.arg 2).eval env).bits.getLsbD 0) }⟩ := by
  simp only [result, hop, DataOp.meaning, operand_eval, carryOperand_eval]

theorem folded_dropCarryArg (htyped : WellTyped types inst)
    (hop : inst.op = .data (.shift kind s))
    (hunseen : after.any (isCarryOf inst.name) = false ∨
      (((inst.arg 1).eval env).bits.setWidth 8).toNat ≠ 0) :
    Folded other types env before after inst (dropCarryArg inst s) := by
  cases s with
  | w64 => exact .refl (by simp [isValue, hop]) htyped
  | w32 =>
    have hop' : ({ inst with args := [inst.arg 0, inst.arg 1, .imm (.u1 false)] } :
      DataInst D).op = .data (.shift kind .w32) := hop
    refine .withArgs htyped hop ?_ ?_ ?_ ?_
    · intro arg harg
      simp only [List.mem_cons, List.not_mem_nil, or_false] at harg
      rcases harg with rfl | rfl | rfl
      · exact known_arg 0
      · exact known_arg 1
      · exact known_imm _
    · have h₀ : (inst.arg 0).ty types = .u32 := htyped.arg hop rfl
      have h₁ : (inst.arg 1).ty types = .u8 := htyped.arg hop rfl
      rw [List.map_cons, List.map_cons, h₀, h₁]
      rfl
    · rw [result_shift hop, result_shift hop']
      rfl
    · intro p hp op hpop hhead
      rcases hunseen with hnone | hamount
      · have hcarry : isCarryOf inst.name p = false := by
          simpa using List.any_eq_false.mp hnone p hp
        refine sameFlags_of_no_carry hcarry hpop hhead ?_ ?_ <;>
          rw [result_shift hop, result_shift hop']
      · have hsame : (result other env { inst with args := [inst.arg 0, inst.arg 1,
            .imm (.u1 false)] }).extra = (result other env inst).extra := by
          rw [result_shift hop, result_shift hop']
          have harg : ({ inst with args := [inst.arg 0, inst.arg 1, .imm (.u1 false)] } :
            DataInst D).arg 1 = inst.arg 1 := rfl
          simp only [Shift.carryOut, harg, if_neg hamount]
          rfl
        rw [hsame]
        exact .refl _ _

theorem Shift.carryOut_zero {n : ℕ} (a : BitVec n) (carryIn : Bool) (kind : Shift) :
    kind.carryOut a 0 carryIn = carryIn := by
  cases kind <;> rfl

/-- The carry argument of a shift; the 64-bit ones do not have it. -/
theorem WellTyped.shift_carry (htyped : WellTyped types inst)
    (hop : inst.op = .data (.shift kind s)) : (inst.arg 2).ty types = .u1 := by
  cases s with
  | w32 => exact htyped.arg hop rfl
  | w64 =>
    have hargs := htyped.operands _ hop nofun
    have hlength : inst.args.length = 2 := by
      simpa [DataOp.operandTypes] using congrArg List.length hargs
    have hnone : inst.args[2]? = none := List.getElem?_eq_none (by omega)
    rw [Inst.arg, List.getD_eq_getElem?_getD, hnone]
    rfl

theorem Ty.Fits.eq_ofBool {t : Ty} {word : Word} (h : t.Fits word) (ht : t = .u1) :
    word = (BitVec.ofBool (word.getLsbD 0)).setWidth 128 := by
  subst ht
  have hbit : word.setWidth 1 = BitVec.ofBool (word.getLsbD 0) := by
    ext i hi
    have : i = 0 := by omega
    subst this
    simp
  rw [← hbit]
  exact h.symm

/-- The amount of a shift that is an immediate. -/
theorem Imm.amount_setWidth {imm : Imm} (hty : imm.ty = .u8) :
    imm.bits.setWidth 8 = imm.asU64.setWidth 8 ∧
      (imm.asU64 = 0 ↔ (imm.asU64.setWidth 8).toNat = 0) := by
  refine ⟨imm.bits_setWidth (by decide), ?_⟩
  cases imm <;> cases hty
  rename_i value
  have := value.isLt
  rw [asU64, ← BitVec.toNat_inj, BitVec.toNat_setWidth, BitVec.toNat_setWidth,
    BitVec.toNat_setWidth]
  change _ = 0 ↔ _
  omega

theorem folded_foldShift (hctx : Context other types env before) (htyped : WellTyped types inst)
    (hfits : ∀ arg ∈ inst.args, (arg.ty types).Fits (arg.eval env).bits)
    (hop : inst.op = .data (.shift kind s)) (honce : CarryOnce inst.name after)
    {inst' : DataInst D} {after' : List (DataInst D)}
    (hfold : foldShift before after inst kind s = (inst', after')) :
    Folded other types env before after' inst inst' ∧
      (after' = after ∨ ∃ replacement, after' = replaceCarry inst.name replacement after ∧
        CarryReplaced types env before inst (result other env inst).extra.carry replacement) := by
  have hty₀ : (inst.arg 0).ty types = s.ty := htyped.arg hop (by cases s <;> rfl)
  have hty₁ : (inst.arg 1).ty types = .u8 := htyped.arg hop (by cases s <;> rfl)
  cases hamount : immediate before (inst.arg 1) with
  | none =>
    simp only [foldShift, hamount, Prod.mk.injEq] at hfold
    obtain ⟨rfl, rfl⟩ := hfold
    refine ⟨?_, .inl rfl⟩
    split_ifs with hcarry
    · exact .refl (by simp [isValue, hop]) htyped
    · exact folded_dropCarryArg htyped hop (.inl (by simpa using hcarry))
  | some amount =>
    obtain ⟨hbits, hty⟩ := hctx.immediate hamount
    obtain ⟨hvalue, hzero⟩ := Imm.amount_setWidth (hty.symm.trans hty₁)
    by_cases h₀ : amount.asU64 = 0
    · simp only [foldShift, hamount, if_pos h₀, Prod.mk.injEq] at hfold
      obtain ⟨rfl, rfl⟩ := hfold
      have hnat : (((inst.arg 1).eval env).bits.setWidth 8).toNat = 0 := by
        rw [hbits, hvalue]
        exact hzero.mp h₀
      have hresult : result other env inst = ⟨((inst.arg 0).eval env).bits,
          { (default : Flags) with carry := ((inst.arg 2).eval env).bits.getLsbD 0 }⟩ := by
        rw [result_shift hop, hnat, Shift.eval_zero, Shift.carryOut_zero,
          (fits_arg hfits 0).setWidth_size hty₀]
      refine ⟨.identity htyped hop (by cases s <;> rfl) (known_arg 0) hty₀ (by rw [hresult]) ?_,
        .inr ⟨inst.arg 2, rfl, known_arg 2, ?_, ?_⟩⟩
      · intro p hp op hpop hhead
        refine sameFlags_of_no_carry (not_isCarryOf_of_mem honce hp) hpop hhead ?_ ?_ <;>
          rw [hresult]
      · exact htyped.shift_carry hop
      · rw [hresult]
        exact (fits_arg hfits 2).eq_ofBool (htyped.shift_carry hop)
    · have hnat : (((inst.arg 1).eval env).bits.setWidth 8).toNat ≠ 0 := by
        rw [hbits, hvalue]
        exact fun h => h₀ (hzero.mpr h)
      have hdrop : Folded other types env before after inst (dropCarryArg inst s) :=
        folded_dropCarryArg htyped hop (.inr hnat)
      cases hl : immediate before (inst.arg 0) with
      | none =>
        simp only [foldShift, hamount, if_neg h₀, hl, Prod.mk.injEq] at hfold
        obtain ⟨rfl, rfl⟩ := hfold
        exact ⟨hdrop, .inl rfl⟩
      | some l =>
        by_cases hcarry : after.any (isCarryOf inst.name) = true
        · simp only [foldShift, hamount, if_neg h₀, hl, if_pos hcarry, Prod.mk.injEq] at hfold
          obtain ⟨rfl, rfl⟩ := hfold
          exact ⟨hdrop, .inl rfl⟩
        · simp only [foldShift, hamount, if_neg h₀, hl, if_neg hcarry, Prod.mk.injEq] at hfold
          obtain ⟨rfl, rfl⟩ := hfold
          obtain ⟨hlbits, -⟩ := hctx.immediate hl
          refine ⟨.identity htyped hop rfl (known_imm _) (by cases s <;> rfl) ?_ ?_, .inl rfl⟩
          · rw [result_shift hop, hlbits, hbits, hvalue, l.bits_setWidth s.n_le, eval_imm,
              Datum.plain]
            cases s
            · rw [Imm.bits, Shift.fold_eq]
            · rw [Imm.bits, Shift.fold_eq, BitVec.setWidth_eq]
          · intro p hp op hpop hhead
            have hnone : isCarryOf inst.name p = false := by
              have := List.any_eq_false.mp (by simpa using hcarry) p hp
              simpa using this
            refine sameFlags_of_no_carry hnone hpop hhead ?_ ?_ <;> rw [result_shift hop]

end ShiftFolds

section Turn

theorem folded_foldMostSignificantWord (hctx : Context other types env before)
    (htyped : WellTyped types inst) (hop : inst.op = .data .mostSignificantWord)
    (honce : CarryOnce inst.name after) {inst' : DataInst D} {after' : List (DataInst D)}
    (hfold : foldMostSignificantWord before after inst = (inst', after')) :
    Folded other types env before after' inst inst' ∧
      (after' = after ∨ ∃ replacement, after' = replaceCarry inst.name replacement after ∧
        CarryReplaced types env before inst (result other env inst).extra.carry replacement) := by
  cases himm : immediate before (inst.arg 0) with
  | none =>
    simp only [foldMostSignificantWord, himm, Prod.mk.injEq] at hfold
    obtain ⟨rfl, rfl⟩ := hfold
    exact ⟨.refl (by simp [isValue, hop]) htyped, .inl rfl⟩
  | some imm =>
    simp only [foldMostSignificantWord, himm, Prod.mk.injEq] at hfold
    obtain ⟨rfl, rfl⟩ := hfold
    obtain ⟨hbits, -⟩ := hctx.immediate himm
    have hresult : result other env inst = ⟨((imm.asU64 >>> 32).setWidth 32).setWidth 128,
        { (default : Flags) with carry := imm.asU64.getLsbD 31 }⟩ := by
      simp only [result, hop, DataOp.meaning, operand_eval, hbits,
        imm.bits_setWidth (Nat.le_refl 64), BitVec.setWidth_eq]
    refine ⟨.identity htyped hop rfl (known_imm _) rfl (by rw [hresult]; rfl) ?_,
      .inr ⟨_, rfl, known_imm _, rfl, by rw [hresult]; rfl⟩⟩
    intro p hp op hpop hhead
    refine sameFlags_of_no_carry (not_isCarryOf_of_mem honce hp) hpop hhead ?_ ?_ <;>
      rw [hresult]

theorem foldUnary_operand {op : DataOp D} {imm imm' : Imm} (h : foldUnary imm op = some imm') :
    ∃ t, op.operandTypes[0]? = some t := by
  cases op <;> first | exact ⟨_, rfl⟩ | cases h

theorem folded_unary {op : DataOp D} (hctx : Context other types env before)
    (htyped : WellTyped types inst) (hop : inst.op = .data op) (hvalue : isValue inst = true)
    {inst' : DataInst D} {after' : List (DataInst D)}
    (hfold : (match (immediate before (inst.arg 0)).bind (foldUnary · op) with
      | some imm => some (inst.replaceUsesWith (.imm imm), after)
      | none => some (inst, after)) = some (inst', after')) :
    Folded other types env before after' inst inst' ∧
      (after' = after ∨ ∃ replacement, after' = replaceCarry inst.name replacement after ∧
        CarryReplaced types env before inst (result other env inst).extra.carry replacement) := by
  split at hfold
  · rename_i imm' hunary
    cases hfold
    obtain ⟨imm, himm, hfold⟩ := Option.bind_eq_some_iff.mp hunary
    obtain ⟨hbits, hty⟩ := hctx.immediate himm
    obtain ⟨t, ht⟩ := foldUnary_operand hfold
    have hoperand : op.operandTypes[0]? = some imm.ty := by
      rw [ht, ← hty, htyped.arg hop ht]
    have hfirst : bitsOf (inst.args.map (Arg.eval env)) 0 = imm.bits := by
      rw [Inst.bitsOf_eval, hbits]
    obtain ⟨hresult, hmeaning⟩ : _ ∧ op.meaning other (inst.args.map (Arg.eval env)) = _ :=
      foldUnary_sound hfirst hoperand hfold
    refine ⟨.identity_imm htyped hop hresult ?_, .inl rfl⟩
    simp only [result, hop, hmeaning]
  · cases hfold
    exact ⟨.refl hvalue htyped, .inl rfl⟩

variable [DecidableEq D]

/-- An addition takes a carry only where its flags are used. -/
def CarryInUse (inst : DataInst D) (after : List (DataInst D)) : Prop :=
  ∀ s, inst.op = .data (.add s) → inst.arg 2 = .imm (.u1 false) ∨
    hasAssociatedPseudoOperation inst.name after = true

/-- One turn of the loop on an operation or an `Identity`. -/
theorem folded_fold (hctx : Context other types env before) (htyped : WellTyped types inst)
    (hfits : ∀ arg ∈ inst.args, (arg.ty types).Fits (arg.eval env).bits)
    (honce : CarryOnce inst.name after) (hcarry : CarryInUse inst after)
    (hvalue : isValue inst = true) {inst' : DataInst D} {after' : List (DataInst D)}
    (hfold : fold before after inst = some (inst', after')) :
    Folded other types env before after' inst inst' ∧
      (after' = after ∨ ∃ replacement, after' = replaceCarry inst.name replacement after ∧
        CarryReplaced types env before inst (result other env inst).extra.carry replacement) := by
  cases hop : inst.op with
  | identity =>
    simp only [fold, hop, Option.some.injEq, Prod.mk.injEq] at hfold
    obtain ⟨rfl, rfl⟩ := hfold
    exact ⟨.refl hvalue htyped, .inl rfl⟩
  | data op =>
    cases op with
    | mostSignificantWord =>
      simp only [fold, hop, Option.some.injEq] at hfold
      exact folded_foldMostSignificantWord hctx htyped hop honce hfold
    | shift kind s =>
      simp only [fold, hop, Option.some.injEq] at hfold
      exact folded_foldShift hctx htyped hfits hop honce hfold
    | shiftMasked kind s =>
      simp only [fold, hop, Option.some.injEq, Prod.mk.injEq] at hfold
      obtain ⟨rfl, rfl⟩ := hfold
      exact ⟨folded_foldShiftMasked hctx htyped hop, .inl rfl⟩
    | add s =>
      simp only [fold, hop, Option.some.injEq, Prod.mk.injEq] at hfold
      obtain ⟨rfl, rfl⟩ := hfold
      exact ⟨folded_foldAdd hctx htyped hfits hop (hcarry s hop), .inl rfl⟩
    | sub s =>
      simp only [fold, hop, Option.some.injEq, Prod.mk.injEq] at hfold
      obtain ⟨rfl, rfl⟩ := hfold
      exact ⟨folded_foldSub hctx htyped hop, .inl rfl⟩
    | commutative kind s =>
      simp only [fold, hop, Option.some.injEq, Prod.mk.injEq] at hfold
      obtain ⟨rfl, rfl⟩ := hfold
      exact ⟨folded_foldBinary hctx htyped hfits hop, .inl rfl⟩
    | signedDiv s =>
      simp only [fold, hop, Option.map_eq_some_iff, Prod.mk.injEq] at hfold
      obtain ⟨folded, hdiv, rfl, rfl⟩ := hfold
      exact ⟨folded_foldDivide hctx htyped hfits hop (if_pos rfl).symm hdiv, .inl rfl⟩
    | unsignedDiv s =>
      simp only [fold, hop, Option.map_eq_some_iff, Prod.mk.injEq] at hfold
      obtain ⟨folded, hdiv, rfl, rfl⟩ := hfold
      exact ⟨folded_foldDivide hctx htyped hfits hop (if_neg Bool.false_ne_true).symm hdiv,
        .inl rfl⟩
    | _ =>
      simp only [fold, hop] at hfold
      exact folded_unary hctx htyped hop hvalue hfold
  | _ => simp [isValue, hop] at hvalue

theorem asS64_ne_intMin {imm : Imm} (hty : imm.ty = .u32) : imm.asS64 ≠ BitVec.intMin 64 := by
  cases imm <;> cases hty
  rename_i value
  intro hmin
  have hext : (value.signExtend 64).toInt = value.toInt :=
    BitVec.toInt_signExtend_of_le (by decide)
  have hle := BitVec.le_toInt value
  rw [← hext, ← Imm.asS64, hmin] at hle
  exact absurd hle (by decide)

omit [DecidableEq D] in
/-- A quotient of 32 bits exists in 64. -/
theorem exists_foldDivide (hctx : Context other types env before) {s : Size} {isSigned : Bool}
    (hty : (inst.arg 0).ty types = s.ty) (hs : isSigned = true → s = .w32) :
    ∃ inst', foldDivide before inst s isSigned = some inst' := by
  cases hr : immediate before (inst.arg 1) with
  | none => exact ⟨inst, by simp only [foldDivide, hr]⟩
  | some r =>
    simp only [foldDivide, hr]
    by_cases hzero : r.asU64 = 0
    · exact ⟨_, if_pos hzero⟩
    · rw [if_neg hzero]
      cases hl : immediate before (inst.arg 0) with
      | none => dsimp only; split <;> exact ⟨_, rfl⟩
      | some l =>
        cases isSigned with
        | false => exact ⟨_, rfl⟩
        | true =>
          have hl32 : l.ty = .u32 := by
            rw [← (hctx.immediate hl).2, hty, hs rfl]
            rfl
          simp only [asS64_ne_intMin hl32, false_and, if_false, if_true]
          exact ⟨_, rfl⟩

/-- Only a 64-bit signed division can stop the pass. -/
theorem exists_fold (hctx : Context other types env before) (htyped : WellTyped types inst)
    (hdiv : inst.op ≠ .data (.signedDiv .w64)) : ∃ r, fold before after inst = some r := by
  unfold fold
  split
  · rename_i op hop
    split
    case h_7 s =>
      have hs : s = .w32 := by
        cases s with
        | w32 => rfl
        | w64 => exact absurd hop hdiv
      obtain ⟨inst', hfold⟩ : ∃ inst', foldDivide before inst s true = some inst' :=
        exists_foldDivide hctx (htyped.arg hop rfl) fun _ => hs
      exact ⟨_, by rw [hfold]; rfl⟩
    case h_8 s =>
      obtain ⟨inst', hfold⟩ : ∃ inst', foldDivide before inst s false = some inst' :=
        exists_foldDivide hctx (htyped.arg hop rfl) nofun
      exact ⟨_, by rw [hfold]; rfl⟩
    case h_9 => split <;> exact ⟨_, rfl⟩
    all_goals exact ⟨_, rfl⟩
  · exact ⟨_, rfl⟩

end Turn

end Sober.Ir
