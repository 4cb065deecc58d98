import Mathlib.Data.BitVec
import Sober.Ir.Propagated

/-!
# Where folding changes a block

Two blocks that constant propagation does not keep as they are: an addition with carry that
undoes the one before it, and the signed quotient that does not exist.
-/

namespace Sober.Ir

open Propagation

variable {D R : Type} {b : Behaviour D R}

section LostCarry

variable [DecidableEq D]

/-- What `ADD X, Xr, a` and `ADC Xd, X, -a` in one block come to once the register in
between is looked through. -/
def addAdcBlock (a : BitVec 64) (r d : Fin 31) : List (DataInst D) :=
  [⟨0, .a64GetX r, []⟩,
    ⟨1, .data (.add .w64), [.inst 0, .imm (.u64 a), .imm (.u1 false)]⟩,
    ⟨2, .a64GetCFlag, []⟩,
    ⟨3, .data (.add .w64), [.inst 1, .imm (.u64 (-a)), .inst 2]⟩,
    ⟨4, .a64SetX d, [.inst 3]⟩]

theorem constantPropagation_addAdcBlock {a : BitVec 64} (ha : a ≠ 0#64) (r d : Fin 31) :
    constantPropagation (addAdcBlock a r d : List (DataInst D)) =
      some [⟨0, .a64GetX r, []⟩,
        ⟨1, .data (.add .w64), [.inst 0, .imm (.u64 a), .imm (.u1 false)]⟩,
        ⟨2, .a64GetCFlag, []⟩, ⟨3, .identity, [.inst 0]⟩, ⟨4, .a64SetX d, [.inst 3]⟩] := by
  simp [constantPropagation, addAdcBlock, propagate, fold, foldAdd, normalizeAdd, foldAddOrdered,
    hasAssociatedPseudoOperation, hangsOn, immediate, definition, resolve, Inst.arg, Imm.asU64,
    Inst.replaceUsesWith, DataOp.isAPseudoOperation, ha]

/-- A second addition whose immediate undoes that of the first loses its carry: the block
adds the carry flag to the register, and the block after the pass does not. -/
theorem addAdcBlock_loses_carry {a : BitVec 64} (ha : a ≠ 0#64) (r d : Fin 31)
    (st : State R Flags) :
    let value := (st.file (.reg r)).setWidth 64
    let carry := (BitVec.ofBool ((st.file .nzcv).getLsbD 8)).setWidth 64
    (exec b.semantics (addAdcBlock a r d) st).file (.reg d) = (value + carry).setWidth 128 ∧
      ∃ block', constantPropagation (addAdcBlock a r d) = some block' ∧
        (exec b.semantics (deadCodeElimination block') st).file (.reg d) =
          value.setWidth 128 := by
  intro value carry
  refine ⟨?_, _, constantPropagation_addAdcBlock ha r d, ?_⟩
  · have hundo : ((value + a).setWidth 128).setWidth 64 + -a = value := by
      rw [BitVec.setWidth_setWidth_of_le _ (by decide), BitVec.setWidth_eq, BitVec.add_assoc,
        BitVec.add_right_neg, BitVec.add_zero]
    simp [addAdcBlock, Inst.exec, Opcode.apply, TrackingType.load, TrackingType.store, bitsOf,
      Arg.eval, Datum.plain, Behaviour.semantics, DataOp.meaning, addWithCarry, operand,
      carryOperand, Imm.bits, value, carry]
    exact congrArg (fun sum : BitVec 64 => (sum + carry).setWidth 128) hundo
  · rw [deadCodeElimination_file (keepsStatus_of_listed (by simp [Opcode.isUnlisted]))]
    simp [Inst.exec, Opcode.apply, TrackingType.load, TrackingType.store, bitsOf,
      Arg.eval, Datum.plain, Behaviour.semantics, value]

theorem addAdcBlock_loses_carry_example :
    (exec exampleBehaviour.semantics (addAdcBlock 1 0 1)
        ⟨fun _ => .plain 0, fun _ => 0x100, ()⟩).file (.reg 1) = 0x101#128 ∧
      ∃ block', constantPropagation (addAdcBlock 1 0 1) = some block' ∧
        (exec exampleBehaviour.semantics (deadCodeElimination block')
          ⟨fun _ => .plain 0, fun _ => 0x100, ()⟩).file (.reg 1) = 0x100#128 :=
  addAdcBlock_loses_carry (by decide) 0 1 _

end LostCarry

section Division

theorem mem_replaceCarry_of_mem {inst : DataInst D} {after : List (DataInst D)} {name : ℕ}
    {replacement : Arg} (hinst : inst ∈ after) (hop : inst.op ≠ .data .getCarryFromOp) :
    inst ∈ replaceCarry name replacement after := by
  induction after with
  | nil => cases hinst
  | cons p after ih =>
    rw [replaceCarry]
    split_ifs with hcarry
    · rcases List.mem_cons.mp hinst with rfl | hinst
      · exact absurd (isCarryOf_iff.mp hcarry).1 hop
      · exact List.mem_cons_of_mem _ hinst
    · rcases List.mem_cons.mp hinst with rfl | hinst
      · exact List.mem_cons_self
      · exact List.mem_cons_of_mem _ (ih hinst)

theorem length_replaceCarry (name : ℕ) (replacement : Arg) (after : List (DataInst D)) :
    (replaceCarry name replacement after).length = after.length := by
  induction after with
  | nil => rfl
  | cons p after ih =>
    rw [replaceCarry]
    split_ifs
    · rfl
    · rw [List.length_cons, ih, List.length_cons]

theorem fold_after [DecidableEq D] {before after after' : List (DataInst D)}
    {inst inst' : DataInst D} (hfold : fold before after inst = some (inst', after')) :
    after' = after ∨ ∃ replacement, after' = replaceCarry inst.name replacement after := by
  cases hop : inst.op with
  | data op =>
    cases op with
    | mostSignificantWord =>
      simp only [fold, hop, Option.some.injEq, foldMostSignificantWord] at hfold
      split at hfold <;> cases hfold
      · exact .inr ⟨_, rfl⟩
      · exact .inl rfl
    | shift kind s =>
      simp only [fold, hop, Option.some.injEq, foldShift] at hfold
      repeat' split at hfold
      all_goals cases hfold
      all_goals first | exact .inl rfl | exact .inr ⟨_, rfl⟩
    | signedDiv s | unsignedDiv s =>
      simp only [fold, hop, Option.map_eq_some_iff, Prod.mk.injEq] at hfold
      obtain ⟨_, _, _, rfl⟩ := hfold
      exact .inl rfl
    | _ =>
      simp only [fold, hop] at hfold
      try split at hfold
      all_goals cases hfold; exact .inl rfl
  | _ =>
    simp only [fold, hop] at hfold
    cases hfold
    exact .inl rfl

def overflowingDiv (name : ℕ) : DataInst D :=
  ⟨name, .data (.signedDiv .w64), [.imm (.u64 (BitVec.intMin 64)), .imm (.u64 (-1))]⟩

theorem fold_overflowingDiv [DecidableEq D] (before after : List (DataInst D)) (name : ℕ) :
    fold before after (overflowingDiv name) = none := by
  have himm : ∀ imm, immediate before (.imm imm) = some imm := by
    intro imm
    cases before <;> rfl
  simp [fold, overflowingDiv, foldDivide, Inst.arg, himm, Imm.asU64, Imm.asS64]

/-- The division is still there when its turn comes. -/
theorem propagate_of_mem [DecidableEq D] {name fuel : ℕ} {before todo : List (DataInst D)}
    (hmem : overflowingDiv name ∈ todo) (hfuel : todo.length ≤ fuel) :
    propagate fuel before todo = none := by
  induction fuel generalizing before todo with
  | zero =>
    rw [List.length_eq_zero_iff.mp (Nat.le_zero.mp hfuel)] at hmem
    cases hmem
  | succ fuel ih =>
    cases todo with
    | nil => cases hmem
    | cons inst after =>
      rw [propagate, Option.bind_eq_none_iff]
      rintro ⟨inst', after'⟩ hfold
      rcases List.mem_cons.mp hmem with rfl | hmem
      · rw [fold_overflowingDiv] at hfold
        cases hfold
      · rw [List.length_cons, Nat.succ_le_succ_iff] at hfuel
        rcases fold_after hfold with rfl | ⟨replacement, rfl⟩
        · exact ih hmem hfuel
        · refine ih (mem_replaceCarry_of_mem hmem (by simp [overflowingDiv])) ?_
          rwa [length_replaceCarry]

/-- In whatever block such a division stands, the pass has no quotient to put in its place,
while the emitted code leaves the least number. -/
theorem overflowingDiv_stops_pass [DecidableEq D] (pre post : List (DataInst D)) (name : ℕ)
    (st : State R Flags) :
    constantPropagation (pre ++ overflowingDiv name :: post) = none ∧
      (((overflowingDiv name).exec b.semantics st).env name).bits =
        (BitVec.intMin 64).setWidth 128 := by
  have hmem : overflowingDiv name ∈ pre ++ overflowingDiv name :: post := by simp
  refine ⟨propagate_of_mem hmem (Nat.le_refl _), ?_⟩
  have hquotient : (((BitVec.intMin 64).setWidth 128).setWidth 64).sdiv
      (((-1 : BitVec 64).setWidth 128).setWidth 64) = BitVec.intMin 64 := by decide
  rw [Inst.exec]
  simp only [overflowingDiv, Opcode.apply, Option.elim_some, Function.update_self]
  exact congrArg (BitVec.setWidth 128) hquotient

end Division

end Sober.Ir
