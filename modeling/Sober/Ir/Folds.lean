import Sober.Ir.ConstantFolding

/-!
# Every fold keeps the value

One lemma for each fold of the pass, and from them what one turn of its loop does.
-/

namespace Sober.Ir

open Propagation

variable {D : Type} {other : D → List Word → Datum Flags} {types : ℕ → Ty}
  {env : ℕ → Datum Flags} {before after : List (DataInst D)} {inst : DataInst D}

section Words

variable {s : Size}

theorem Ty.Fits.setWidth_size {t : Ty} {word : Word} (h : t.Fits word) (ht : t = s.ty) :
    (word.setWidth s.n).setWidth 128 = word := by
  subst ht
  rw [Ty.Fits, Size.width_ty] at h
  exact h

theorem Imm.setWidth_of_asU64 {imm : Imm} {value : BitVec 64} (h : imm.asU64 = value) :
    imm.bits.setWidth s.n = value.setWidth s.n := by
  rw [imm.bits_setWidth s.n_le, h]

theorem Imm.setWidth_of_asS64 {imm : Imm} (hty : imm.ty = s.ty) (h : imm.asS64 = -1) :
    imm.bits.setWidth s.n = BitVec.allOnes s.n := by
  cases s <;> cases imm <;> cases hty
  · rename_i value
    have hvalue : value = -1#32 := by
      apply BitVec.eq_of_toInt_eq
      have hint := congrArg BitVec.toInt h
      rwa [asS64, BitVec.toInt_signExtend_of_le (by decide)] at hint
    rw [hvalue]
    decide
  · rename_i value
    have hvalue : value = -1 := h
    rw [hvalue]
    decide

theorem setWidth_ofBits (value : BitVec s.n) : (value.setWidth 128).setWidth s.n = value := by
  have hn := s.n_le
  rw [BitVec.setWidth_setWidth_of_le _ (by omega), BitVec.setWidth_eq]

theorem Size.imm_setWidth (value : BitVec 64) :
    (s.imm value).bits.setWidth s.n = value.setWidth s.n := by
  rw [Size.imm_bits, setWidth_ofBits]

end Words

theorem eval_imm (value : Imm) : (Arg.imm value).eval env = .plain value.bits := rfl

section CommutativeFolds

variable {kind : Commutative} {s : Size}

theorem result_commutative (hop : inst.op = .data (.commutative kind s)) :
    result other env inst = ofBits (kind.eval (((inst.arg 0).eval env).bits.setWidth s.n)
      (((inst.arg 1).eval env).bits.setWidth s.n)) := by
  simp only [result, hop, DataOp.meaning, operand_eval]

theorem result_commutative_args (hop : inst.op = .data (.commutative kind s)) (a b : Arg) :
    result other env { inst with args := [a, b] } =
      ofBits (kind.eval ((a.eval env).bits.setWidth s.n) ((b.eval env).bits.setWidth s.n)) := by
  have hop' : ({ inst with args := [a, b] } : DataInst D).op = .data (.commutative kind s) := hop
  exact result_commutative hop'

/-- An operation on two other operands with the same value. -/
theorem folded_commutative_args (htyped : WellTyped types inst)
    (hop : inst.op = .data (.commutative kind s)) {a b : Arg} (ha : Known before inst a)
    (hb : Known before inst b) (hta : a.ty types = s.ty) (htb : b.ty types = s.ty)
    (hvalue : kind.eval ((a.eval env).bits.setWidth s.n) ((b.eval env).bits.setWidth s.n) =
      kind.eval (((inst.arg 0).eval env).bits.setWidth s.n)
        (((inst.arg 1).eval env).bits.setWidth s.n)) :
    Folded other types env before after inst { inst with args := [a, b] } := by
  have hresult : result other env { inst with args := [a, b] } = result other env inst := by
    rw [result_commutative_args hop, result_commutative hop, hvalue]
  refine .withArgs htyped hop ?_ ?_ ?_ ?_
  · intro arg harg
    simp only [List.mem_cons, List.not_mem_nil, or_false] at harg
    rcases harg with rfl | rfl
    · exact ha
    · exact hb
  · simp [DataOp.operandTypes, hta, htb]
  · rw [hresult]
  · intro p _ op _ _
    rw [hresult]
    exact .refl _ _

/-- The value of the first operand, where the operation does nothing to it. -/
theorem folded_left (htyped : WellTyped types inst)
    (hfits : ∀ arg ∈ inst.args, (arg.ty types).Fits (arg.eval env).bits)
    (hop : inst.op = .data (.commutative kind s))
    (hunit : kind.eval (((inst.arg 0).eval env).bits.setWidth s.n)
      (((inst.arg 1).eval env).bits.setWidth s.n) = ((inst.arg 0).eval env).bits.setWidth s.n) :
    Folded other types env before after inst (inst.replaceUsesWith (inst.arg 0)) := by
  have hty : (inst.arg 0).ty types = s.ty := htyped.arg hop rfl
  refine .identity_plain htyped hop rfl (known_arg 0) hty ?_
  rw [result_commutative hop, hunit, ofBits, (fits_arg hfits 0).setWidth_size hty]

/-- Zero, where the second operand makes it that. -/
theorem folded_zero (htyped : WellTyped types inst)
    (hop : inst.op = .data (.commutative kind s))
    (hzero : kind.eval (((inst.arg 0).eval env).bits.setWidth s.n)
      (((inst.arg 1).eval env).bits.setWidth s.n) = 0#s.n) :
    Folded other types env before after inst (replaceWith inst s 0) := by
  refine .identity_plain htyped hop rfl (known_imm _) (Size.imm_ty s _) ?_
  rw [result_commutative hop, hzero, ofBits]
  simp [Arg.eval, Datum.plain, Size.imm_bits]

variable [DecidableEq D]

theorem combine_eq_some {op : DataOp D} {immFn : BitVec 64 → BitVec 64 → BitVec 64} {imm : Imm}
    {arg : Arg} {inst' : DataInst D} (h : combine before inst op s immFn imm arg = some inst') :
    ∃ d imm', definition before arg = some (op, d) ∧ immediate before (d.arg 1) = some imm' ∧
      inst' = { inst with args := [d.arg 0, .imm (s.imm (immFn imm.asU64 imm'.asU64))] } := by
  unfold combine at h
  split at h
  case h_2 => cases h
  rename_i op' d hdef
  split_ifs at h with hsame
  subst hsame
  obtain ⟨imm', himm', rfl⟩ := Option.map_eq_some_iff.mp h
  exact ⟨d, imm', hdef, himm', rfl⟩

theorem combine_op {op : DataOp D} {immFn : BitVec 64 → BitVec 64 → BitVec 64} {imm : Imm}
    {arg : Arg} {inst' : DataInst D} (h : combine before inst op s immFn imm arg = some inst') :
    inst'.op = inst.op := by
  obtain ⟨d, imm', -, -, rfl⟩ := combine_eq_some h
  rfl

/-- Combining two immediates over the same operation on the same value. -/
theorem folded_combine (hctx : Context other types env before) (htyped : WellTyped types inst)
    (hop : inst.op = .data (.commutative kind s)) {imm : Imm} {arg : Arg}
    (hvalue : kind.eval ((arg.eval env).bits.setWidth s.n) (imm.bits.setWidth s.n) =
      kind.eval (((inst.arg 0).eval env).bits.setWidth s.n)
        (((inst.arg 1).eval env).bits.setWidth s.n))
    {inst' : DataInst D} (hcombine : combine before inst (.commutative kind s) s
      (fun a b => kind.eval a b) imm arg = some inst') :
    Folded other types env before after inst inst' := by
  obtain ⟨d, imm', hdef, himm', rfl⟩ := combine_eq_some hcombine
  obtain ⟨hmem, hdop, hbits⟩ := hctx.definition hdef
  obtain ⟨himmBits, -⟩ := hctx.immediate himm'
  refine folded_commutative_args htyped hop (known_arg_of_mem hmem 0) (known_imm _)
    ((hctx.typed d hmem).arg hdop rfl) (Size.imm_ty s _) ?_
  have hn := s.n_le
  rw [← hvalue, hbits, result_commutative hdop, himmBits]
  simp only [Arg.eval, ofBits, Datum.plain, setWidth_ofBits, Size.imm_setWidth]
  rw [kind.eval_setWidth hn, ← imm.bits_setWidth hn, ← imm'.bits_setWidth hn, kind.eval_assoc,
    kind.eval_comm (imm'.bits.setWidth s.n)]

theorem folded_foldCommutative (hctx : Context other types env before)
    (htyped : WellTyped types inst) (hop : inst.op = .data (.commutative kind s))
    {folded : DataInst D} {again : Bool} (hfold : foldCommutative before inst
      (.commutative kind s) s (fun a b => kind.eval a b) = (folded, again)) :
    Folded other types env before after inst folded ∧ (again = true → folded.op = inst.op) := by
  have hn := s.n_le
  have hself : Folded other types env before after inst inst :=
    .refl (by simp [isValue, hop]) htyped
  cases hl : immediate before (inst.arg 0) with
  | some l =>
    obtain ⟨hlbits, -⟩ := hctx.immediate hl
    cases hr : immediate before (inst.arg 1) with
    | some r =>
      obtain ⟨hrbits, -⟩ := hctx.immediate hr
      simp only [foldCommutative, hl, hr, Prod.mk.injEq] at hfold
      obtain ⟨rfl, rfl⟩ := hfold
      refine ⟨.identity_plain htyped hop rfl (known_imm _) (Size.imm_ty s _) ?_,
        fun h => absurd h Bool.false_ne_true⟩
      rw [result_commutative hop, hlbits, hrbits, Arg.eval, Datum.plain, Size.imm_bits,
        kind.eval_setWidth hn, ← l.bits_setWidth hn, ← r.bits_setWidth hn, ofBits, Datum.plain]
    | none =>
      simp only [foldCommutative, hl, hr, Prod.mk.injEq] at hfold
      obtain ⟨rfl, rfl⟩ := hfold
      cases hcombine : combine before inst (.commutative kind s) s (fun a b => kind.eval a b) l
          (inst.arg 1) with
      | some inst' =>
        have hvalue : kind.eval (((inst.arg 1).eval env).bits.setWidth s.n) (l.bits.setWidth s.n) =
            kind.eval (((inst.arg 0).eval env).bits.setWidth s.n)
              (((inst.arg 1).eval env).bits.setWidth s.n) := by
          rw [hlbits, kind.eval_comm]
        exact ⟨folded_combine hctx htyped hop hvalue hcombine, fun _ => combine_op hcombine⟩
      | none =>
        refine ⟨folded_commutative_args htyped hop (known_arg 1) (known_arg 0)
          (htyped.arg hop rfl) (htyped.arg hop rfl) (kind.eval_comm _ _), fun _ => rfl⟩
  | none =>
    cases hr : immediate before (inst.arg 1) with
    | some r =>
      obtain ⟨hrbits, -⟩ := hctx.immediate hr
      simp only [foldCommutative, hl, hr, Prod.mk.injEq] at hfold
      obtain ⟨rfl, rfl⟩ := hfold
      cases hcombine : combine before inst (.commutative kind s) s (fun a b => kind.eval a b) r
          (inst.arg 0) with
      | some inst' =>
        exact ⟨folded_combine hctx htyped hop (by rw [hrbits]) hcombine,
          fun _ => combine_op hcombine⟩
      | none => exact ⟨hself, fun _ => rfl⟩
    | none =>
      simp only [foldCommutative, hl, hr, Prod.mk.injEq] at hfold
      obtain ⟨rfl, rfl⟩ := hfold
      exact ⟨hself, fun _ => rfl⟩

theorem folded_foldBinary (hctx : Context other types env before)
    (htyped : WellTyped types inst)
    (hfits : ∀ arg ∈ inst.args, (arg.ty types).Fits (arg.eval env).bits)
    (hop : inst.op = .data (.commutative kind s)) :
    Folded other types env before after inst (foldBinary before inst kind s) := by
  cases hfold : foldCommutative before inst (.commutative kind s) s (fun a b => kind.eval a b) with
  | mk folded again =>
  obtain ⟨hfolded, hsame⟩ : Folded other types env before after inst folded ∧ _ :=
    folded_foldCommutative hctx htyped hop hfold
  simp only [foldBinary, hfold]
  cases again with
  | false => exact hfolded
  | true =>
    rw [if_pos rfl]
    cases himm : immediate before (folded.arg 1) with
    | none => exact hfolded
    | some rhs =>
      have hn := s.n_le
      obtain ⟨hbits, hty⟩ := hctx.immediate himm
      have hop' : folded.op = .data (.commutative kind s) := (hsame rfl).trans hop
      have hfits' := hfolded.fits hctx hfits
      have hrhs : rhs.ty = s.ty := hty.symm.trans (hfolded.typed.arg hop' rfl)
      have hvalue : ∀ {value : BitVec s.n}, rhs.bits.setWidth s.n = value →
          kind.eval (((folded.arg 0).eval env).bits.setWidth s.n)
            (((folded.arg 1).eval env).bits.setWidth s.n) =
          kind.eval (((folded.arg 0).eval env).bits.setWidth s.n) value := by
        intro value h
        rw [hbits, h]
      cases kind with
      | and =>
        dsimp only
        split_ifs with h₀ h₁
        · refine hfolded.trans (folded_zero hfolded.typed hop' ?_)
          rw [hvalue (Imm.setWidth_of_asU64 h₀)]
          simp [Commutative.eval]
        · refine hfolded.trans (folded_left hfolded.typed hfits' hop' ?_)
          rw [hvalue (Imm.setWidth_of_asS64 hrhs h₁)]
          simp [Commutative.eval]
        · exact hfolded
      | eor =>
        dsimp only
        split_ifs with h₀
        · refine hfolded.trans (folded_left hfolded.typed hfits' hop' ?_)
          rw [hvalue (Imm.setWidth_of_asU64 h₀)]
          simp [Commutative.eval]
        · exact hfolded
      | or =>
        dsimp only
        split_ifs with h₀
        · refine hfolded.trans (folded_left hfolded.typed hfits' hop' ?_)
          rw [hvalue (Imm.setWidth_of_asU64 h₀)]
          simp [Commutative.eval]
        · exact hfolded
      | mul =>
        dsimp only
        split_ifs with h₀ h₁
        · refine hfolded.trans (folded_zero hfolded.typed hop' ?_)
          rw [hvalue (Imm.setWidth_of_asU64 h₀)]
          simp [Commutative.eval]
        · refine hfolded.trans (folded_left hfolded.typed hfits' hop' ?_)
          have hone : (1 : BitVec 64).setWidth s.n = 1#s.n := by cases s <;> rfl
          rw [hvalue (Imm.setWidth_of_asU64 h₁), hone]
          exact BitVec.mul_one _
        · exact hfolded

end CommutativeFolds

section AdditiveFolds

variable {s : Size}

theorem result_add (hop : inst.op = .data (.add s)) :
    result other env inst = addWithCarry (((inst.arg 0).eval env).bits.setWidth s.n)
      (((inst.arg 1).eval env).bits.setWidth s.n)
      (((inst.arg 2).eval env).bits.getLsbD 0) := by
  simp only [result, hop, DataOp.meaning, operand_eval, carryOperand_eval]

theorem result_sub (hop : inst.op = .data (.sub s)) :
    result other env inst = addWithCarry (((inst.arg 0).eval env).bits.setWidth s.n)
      (~~~((inst.arg 1).eval env).bits.setWidth s.n)
      (((inst.arg 2).eval env).bits.getLsbD 0) := by
  simp only [result, hop, DataOp.meaning, operand_eval, carryOperand_eval]

theorem result_add_args (hop : inst.op = .data (.add s)) (a b c : Arg) :
    result other env { inst with args := [a, b, c] } =
      addWithCarry ((a.eval env).bits.setWidth s.n) ((b.eval env).bits.setWidth s.n)
        ((c.eval env).bits.getLsbD 0) := by
  have hop' : ({ inst with args := [a, b, c] } : DataInst D).op = .data (.add s) := hop
  exact result_add hop'

/-- An immediate carry, in the width of the sum. -/
theorem Imm.carry_setWidth {imm : Imm} (hty : imm.ty = .u1) :
    (BitVec.ofBool (imm.bits.getLsbD 0)).setWidth s.n = imm.asU64.setWidth s.n := by
  cases imm <;> cases hty
  rename_i b
  cases b <;> cases s <;> rfl

/-- Without a pseudo-operation nobody asks for flags. -/
theorem sameFlags_of_no_pseudo (h : hasAssociatedPseudoOperation inst.name after = false)
    {p : DataInst D} (hp : p ∈ after) {op : DataOp D} (hop : p.op = .data op)
    (hhead : p.args.head? = some (.inst inst.name)) (f f' : Flags) : op.SameFlags f f' := by
  have hhangs : hangsOn inst.name p = false := by
    simpa using List.any_eq_false.mp h p hp
  have hpseudo : op.isAPseudoOperation = false := by
    simpa [hangsOn, hop, hhead] using hhangs
  cases op <;> trivial

/-- A sum of other operands that has the same value, when no pseudo-operation hangs on it. -/
theorem folded_add_args (htyped : WellTyped types inst) (hop : inst.op = .data (.add s))
    (hpseudo : hasAssociatedPseudoOperation inst.name after = false) {a b c : Arg}
    (ha : Known before inst a) (hb : Known before inst b) (hc : Known before inst c)
    (hta : a.ty types = s.ty) (htb : b.ty types = s.ty) (htc : c.ty types = .u1)
    (hbits : (addWithCarry ((a.eval env).bits.setWidth s.n) ((b.eval env).bits.setWidth s.n)
      ((c.eval env).bits.getLsbD 0)).bits = (result other env inst).bits) :
    Folded other types env before after inst { inst with args := [a, b, c] } := by
  refine .withArgs htyped hop ?_ ?_ ?_ ?_
  · intro arg harg
    simp only [List.mem_cons, List.not_mem_nil, or_false] at harg
    rcases harg with rfl | rfl | rfl
    · exact ha
    · exact hb
    · exact hc
  · simp [DataOp.operandTypes, hta, htb, htc]
  · rw [result_add_args hop, hbits]
  · intro p hp op hpop hhead
    exact sameFlags_of_no_pseudo hpseudo hp hpop hhead _ _

/-- An `Identity` for an operation that no pseudo-operation hangs on. -/
theorem folded_unobserved {op : DataOp D} {t : Ty} (htyped : WellTyped types inst)
    (hop : inst.op = .data op) (hresult : op.resultType = some t)
    (hpseudo : hasAssociatedPseudoOperation inst.name after = false) {arg : Arg}
    (hknown : Known before inst arg) (hty : arg.ty types = t)
    (hbits : (arg.eval env).bits = (result other env inst).bits) :
    Folded other types env before after inst (inst.replaceUsesWith arg) :=
  .identity htyped hop hresult hknown hty hbits fun _ hp _ hpop hhead =>
    sameFlags_of_no_pseudo hpseudo hp hpop hhead _ _

theorem folded_foldSub (hctx : Context other types env before) (htyped : WellTyped types inst)
    (hop : inst.op = .data (.sub s)) :
    Folded other types env before after inst (foldSub before after inst s) := by
  have hself : Folded other types env before after inst inst :=
    .refl (by simp [isValue, hop]) htyped
  unfold foldSub
  split
  · rename_i l r c hl hr hc
    split_ifs with hpseudo
    · exact hself
    · obtain ⟨hlbits, -⟩ := hctx.immediate hl
      obtain ⟨hrbits, -⟩ := hctx.immediate hr
      obtain ⟨hcbits, hcty⟩ := hctx.immediate hc
      have hn := s.n_le
      have hcarry : c.ty = .u1 := hcty.symm.trans (htyped.arg hop rfl)
      refine folded_unobserved htyped hop rfl (by simpa using hpseudo) (known_imm _)
        (Size.imm_ty s _) ?_
      rw [result_sub hop, hlbits, hrbits, hcbits, Arg.eval, Datum.plain, Size.imm_bits]
      simp only [addWithCarry, Imm.carry_setWidth hcarry, l.bits_setWidth hn, r.bits_setWidth hn,
        BitVec.setWidth_add _ _ hn, BitVec.setWidth_not hn]
  · exact hself

/-- A sum of a sum: both immediates and the inner carry together. -/
theorem bits_nested_add (hctx : Context other types env before) {arg : Arg} {d : DataInst D}
    (hdef : definition before arg = some (.add s, d)) {r' c' : Imm}
    (hr' : immediate before (d.arg 1) = some r') (hc' : immediate before (d.arg 2) = some c') :
    (arg.eval env).bits.setWidth s.n =
      ((d.arg 0).eval env).bits.setWidth s.n + (r'.asU64 + c'.asU64).setWidth s.n := by
  have hn := s.n_le
  obtain ⟨hmem, hdop, hbits⟩ := hctx.definition hdef
  obtain ⟨hrbits, -⟩ := hctx.immediate hr'
  obtain ⟨hcbits, hcty⟩ := hctx.immediate hc'
  have hcarry : c'.ty = .u1 := hcty.symm.trans ((hctx.typed d hmem).arg hdop rfl)
  rw [hbits, result_add hdop, hrbits, hcbits]
  simp only [addWithCarry, setWidth_ofBits, Imm.carry_setWidth hcarry, r'.bits_setWidth hn,
    BitVec.setWidth_add _ _ hn, BitVec.add_assoc]

/-- With the operands in order the sum and all its flags are the same. -/
theorem folded_normalizeAdd (htyped : WellTyped types inst) (hop : inst.op = .data (.add s)) :
    Folded other types env before after inst (normalizeAdd before inst) := by
  unfold normalizeAdd
  split_ifs
  · have hresult : result other env { inst with args := [inst.arg 1, inst.arg 0, inst.arg 2] } =
        result other env inst := by
      rw [result_add_args hop, result_add hop, addWithCarry_comm]
    refine .withArgs htyped hop ?_ ?_ ?_ ?_
    · intro arg harg
      simp only [List.mem_cons, List.not_mem_nil, or_false] at harg
      rcases harg with rfl | rfl | rfl <;> exact known_arg _
    · have h₀ : (inst.arg 0).ty types = s.ty := htyped.arg hop rfl
      have h₁ : (inst.arg 1).ty types = s.ty := htyped.arg hop rfl
      have h₂ : (inst.arg 2).ty types = .u1 := htyped.arg hop rfl
      simp [DataOp.operandTypes, h₀, h₁, h₂]
    · rw [hresult]
    · intro p _ op _ _
      rw [hresult]
      exact .refl _ _
  · exact .refl (by simp [isValue, hop]) htyped

theorem normalizeAdd_op : (normalizeAdd before inst).op = inst.op := by
  unfold normalizeAdd
  split_ifs <;> rfl

theorem normalizeAdd_carry : (normalizeAdd before inst).arg 2 = inst.arg 2 := by
  unfold normalizeAdd
  split_ifs <;> rfl

variable [DecidableEq D]

/-- The fold of a sum without carry. -/
theorem folded_foldAddOrdered (hctx : Context other types env before)
    (htyped : WellTyped types inst)
    (hfits : ∀ arg ∈ inst.args, (arg.ty types).Fits (arg.eval env).bits)
    (hop : inst.op = .data (.add s))
    (hpseudo : hasAssociatedPseudoOperation inst.name after = false)
    (hcarry : inst.arg 2 = .imm (.u1 false)) :
    Folded other types env before after inst (foldAddOrdered before inst s) := by
  have hn := s.n_le
  have hself : Folded other types env before after inst inst :=
    .refl (by simp [isValue, hop]) htyped
  have hty₀ : (inst.arg 0).ty types = s.ty := htyped.arg hop rfl
  have hsum : (result other env inst).bits = (((inst.arg 0).eval env).bits.setWidth s.n +
      ((inst.arg 1).eval env).bits.setWidth s.n).setWidth 128 := by
    rw [result_add hop, hcarry, eval_imm, Datum.plain]
    simp [addWithCarry, Imm.bits]
  cases hl : immediate before (inst.arg 0) with
  | none =>
    cases hr : immediate before (inst.arg 1) with
    | none => simpa only [foldAddOrdered, hl, hr] using hself
    | some r =>
      obtain ⟨hrbits, -⟩ := hctx.immediate hr
      have hplain : Folded other types env before after inst
          (if r.asU64 = 0 ∧ (immediate before (inst.arg 2)).map Imm.asU64 = some 0 then
            inst.replaceUsesWith (inst.arg 0) else inst) := by
        split_ifs with hzero
        · refine folded_unobserved htyped hop rfl hpseudo (known_arg 0) hty₀ ?_
          rw [hsum, hrbits, Imm.setWidth_of_asU64 hzero.1]
          simpa using ((fits_arg hfits 0).setWidth_size hty₀).symm
        · exact hself
      cases hdef : definition before (inst.arg 0) with
      | none => simpa only [foldAddOrdered, hl, hr, hdef] using hplain
      | some found =>
        obtain ⟨op, d⟩ := found
        by_cases hadd : op = .add s
        · subst hadd
          cases hr' : immediate before (d.arg 1) with
          | none => simpa only [foldAddOrdered, hl, hr, hdef, if_true, hr'] using hplain
          | some r' =>
            cases hc' : immediate before (d.arg 2) with
            | none => simpa only [foldAddOrdered, hl, hr, hdef, if_true, hr', hc'] using hplain
            | some c' =>
              obtain ⟨hmem, hdop, -⟩ := hctx.definition hdef
              have htyd : (d.arg 0).ty types = s.ty := (hctx.typed d hmem).arg hdop rfl
              have hnested := bits_nested_add hctx hdef hr' hc'
              have hcombined : (result other env inst).bits =
                  (((d.arg 0).eval env).bits.setWidth s.n +
                    (r.asU64 + r'.asU64 + c'.asU64).setWidth s.n).setWidth 128 := by
                rw [hsum, hnested, hrbits, r.bits_setWidth hn, BitVec.add_assoc r.asU64,
                  BitVec.setWidth_add _ (r'.asU64 + c'.asU64) hn, BitVec.add_assoc,
                  BitVec.add_comm _ (r.asU64.setWidth s.n)]
              simp only [foldAddOrdered, hl, hr, hdef, if_true, hr', hc']
              split_ifs with hzero
              · refine folded_unobserved htyped hop rfl hpseudo (known_arg_of_mem hmem 0) htyd ?_
                rw [hcombined, hzero]
                simpa using ((fits_arg (hctx.fits d hmem) 0).setWidth_size htyd).symm
              · refine folded_add_args htyped hop hpseudo (known_arg_of_mem hmem 0) (known_imm _)
                  (known_arg 2) htyd (Size.imm_ty s _) (htyped.arg hop rfl) ?_
                rw [hcombined, hcarry, eval_imm, eval_imm, Datum.plain, Datum.plain,
                  Size.imm_setWidth]
                simp [addWithCarry, Imm.bits]
        · simpa only [foldAddOrdered, hl, hr, hdef, if_neg hadd] using hplain
  | some l =>
    cases hr : immediate before (inst.arg 1) with
    | none => simpa only [foldAddOrdered, hl, hr] using hself
    | some r =>
      obtain ⟨hlbits, -⟩ := hctx.immediate hl
      obtain ⟨hrbits, -⟩ := hctx.immediate hr
      have hc : immediate before (inst.arg 2) = some (.u1 false) := by
        rw [hcarry]
        cases before <;> rfl
      simp only [foldAddOrdered, hl, hr, hc]
      refine folded_unobserved htyped hop rfl hpseudo (known_imm _) (Size.imm_ty s _) ?_
      rw [hsum, hlbits, hrbits, Arg.eval, Datum.plain, Size.imm_bits]
      simp [l.bits_setWidth hn, r.bits_setWidth hn, BitVec.setWidth_add _ _ hn, Imm.asU64]

theorem folded_foldAdd (hctx : Context other types env before) (htyped : WellTyped types inst)
    (hfits : ∀ arg ∈ inst.args, (arg.ty types).Fits (arg.eval env).bits)
    (hop : inst.op = .data (.add s))
    (hcarry : inst.arg 2 = .imm (.u1 false) ∨
      hasAssociatedPseudoOperation inst.name after = true) :
    Folded other types env before after inst (foldAdd before after inst s) := by
  have hfolded : Folded other types env before after inst (normalizeAdd before inst) :=
    folded_normalizeAdd htyped hop
  unfold foldAdd
  split_ifs with hpseudo
  · exact hfolded
  · have hnone : hasAssociatedPseudoOperation inst.name after = false := by simpa using hpseudo
    have hzero : inst.arg 2 = .imm (.u1 false) := hcarry.resolve_right (by simp [hnone])
    refine hfolded.trans (folded_foldAddOrdered hctx hfolded.typed (hfolded.fits hctx hfits)
      (normalizeAdd_op.trans hop) ?_ (normalizeAdd_carry.trans hzero))
    rwa [hfolded.name]

end AdditiveFolds

section OtherFolds

variable {s : Size}

theorem Imm.sdiv_setWidth {l r : Imm} (hl : l.ty = s.ty) (hr : r.ty = s.ty) :
    (l.asS64.sdiv r.asS64).setWidth s.n =
      (l.bits.setWidth s.n).sdiv (r.bits.setWidth s.n) := by
  cases s <;> cases l <;> cases hl <;> cases r <;> cases hr
  · simp [asS64, bits, sdiv_signExtend]
  · simp [asS64, bits]

theorem Imm.udiv_setWidth {l r : Imm} (hl : l.ty = s.ty) (hr : r.ty = s.ty) :
    (l.asU64 / r.asU64).setWidth s.n = l.bits.setWidth s.n / r.bits.setWidth s.n := by
  cases s <;> cases l <;> cases hl <;> cases r <;> cases hr
  · simp [asU64, bits, Sober.Ir.udiv_setWidth]
  · simp [asU64, bits]

def quotient (isSigned : Bool) {n : ℕ} (a b : BitVec n) : BitVec n :=
  if isSigned then a.sdiv b else a / b

theorem folded_foldDivide {isSigned : Bool} {op : DataOp D} {inst' : DataInst D}
    (hctx : Context other types env before) (htyped : WellTyped types inst)
    (hfits : ∀ arg ∈ inst.args, (arg.ty types).Fits (arg.eval env).bits)
    (hop : inst.op = .data op) (hdiv : op = if isSigned then .signedDiv s else .unsignedDiv s)
    (hfold : foldDivide before inst s isSigned = some inst') :
    Folded other types env before after inst inst' := by
  have htypes : op.operandTypes = [s.ty, s.ty] ∧ op.resultType = some s.ty := by
    cases isSigned <;> subst hdiv <;> exact ⟨rfl, rfl⟩
  have hty₀ : (inst.arg 0).ty types = s.ty := htyped.arg hop (by rw [htypes.1]; rfl)
  have hty₁ : (inst.arg 1).ty types = s.ty := htyped.arg hop (by rw [htypes.1]; rfl)
  have hresult : result other env inst = ofBits (quotient isSigned
      (((inst.arg 0).eval env).bits.setWidth s.n) (((inst.arg 1).eval env).bits.setWidth s.n)) := by
    cases isSigned <;> subst hdiv <;>
      simp [result, hop, DataOp.meaning, operand_eval, quotient]
  have himm : ∀ {value : BitVec 64}, value.setWidth s.n = quotient isSigned
      (((inst.arg 0).eval env).bits.setWidth s.n) (((inst.arg 1).eval env).bits.setWidth s.n) →
      Folded other types env before after inst (replaceWith inst s value) := by
    intro value hvalue
    refine .identity_imm htyped hop (by rw [htypes.2, Size.imm_ty]) ?_
    rw [hresult, ← hvalue, Size.imm_bits, ofBits]
  have hself : Folded other types env before after inst inst :=
    .refl (by simp [isValue, hop]) htyped
  cases hr : immediate before (inst.arg 1) with
  | none =>
    simp only [foldDivide, hr, Option.some.injEq] at hfold
    exact hfold ▸ hself
  | some r =>
    obtain ⟨hrbits, hrty⟩ := hctx.immediate hr
    have hrs : r.ty = s.ty := hrty.symm.trans hty₁
    by_cases hzero : r.asU64 = 0
    · simp only [foldDivide, hr, if_pos hzero, Option.some.injEq] at hfold
      subst hfold
      refine himm ?_
      rw [hrbits, Imm.setWidth_of_asU64 hzero]
      cases isSigned <;> simp [quotient]
    · cases hl : immediate before (inst.arg 0) with
      | some l =>
        obtain ⟨hlbits, hlty⟩ := hctx.immediate hl
        have hls : l.ty = s.ty := hlty.symm.trans hty₀
        simp only [foldDivide, hr, if_neg hzero, hl] at hfold
        cases isSigned with
        | true =>
          simp only [if_true] at hfold
          split_ifs at hfold
          cases hfold
          refine himm ?_
          rw [hlbits, hrbits, Imm.sdiv_setWidth hls hrs, quotient, if_pos rfl]
        | false =>
          cases hfold
          refine himm ?_
          rw [hlbits, hrbits, Imm.udiv_setWidth hls hrs, quotient, if_neg Bool.false_ne_true]
      | none =>
        simp only [foldDivide, hr, if_neg hzero, hl] at hfold
        split_ifs at hfold with hone
        · cases hfold
          refine .identity_plain htyped hop htypes.2 (known_arg 0) hty₀ ?_
          have hdivisor : (1 : BitVec 64).setWidth s.n = 1#s.n := by cases s <;> rfl
          have hunit : quotient isSigned (((inst.arg 0).eval env).bits.setWidth s.n) 1#s.n =
              ((inst.arg 0).eval env).bits.setWidth s.n := by
            cases isSigned
            · exact BitVec.udiv_one
            · cases s <;> exact BitVec.sdiv_one
          rw [hresult, hrbits, Imm.setWidth_of_asU64 hone, hdivisor, hunit, ofBits,
            (fits_arg hfits 0).setWidth_size hty₀]
        · cases hfold
          exact hself

theorem folded_foldShiftMasked {kind : Shift} (hctx : Context other types env before)
    (htyped : WellTyped types inst) (hop : inst.op = .data (.shiftMasked kind s)) :
    Folded other types env before after inst (foldShiftMasked before inst kind s) := by
  unfold foldShiftMasked
  split
  · rename_i l r hl hr
    obtain ⟨hlbits, -⟩ := hctx.immediate hl
    obtain ⟨hrbits, -⟩ := hctx.immediate hr
    have hresult : result other env inst = ofBits (kind.eval (l.bits.setWidth s.n)
        ((r.bits.setWidth s.n).toNat % s.n)) := by
      simp only [result, hop, DataOp.meaning, operand_eval, hlbits, hrbits]
    cases s with
    | w32 =>
      refine .identity_imm htyped hop rfl ?_
      rw [hresult, Imm.bits, Shift.fold_eq, ofBits, l.bits_setWidth (by decide),
        r.bits_setWidth (by decide), BitVec.toNat_setWidth,
        Nat.mod_mod_of_dvd _ (by decide : 32 ∣ 2 ^ 32)]
    | w64 =>
      refine .identity_imm htyped hop rfl ?_
      rw [hresult, Imm.bits, Shift.fold_eq, ofBits, l.bits_setWidth (by decide),
        r.bits_setWidth (by decide)]
      simp only [BitVec.setWidth_eq]
  · exact .refl (by simp [isValue, hop]) htyped

theorem setWidth_signExtend {n m : ℕ} (value : BitVec n) (h : m ≤ 64) :
    (value.signExtend 64).setWidth m = value.signExtend m := by
  ext i hi
  simp [BitVec.getElem_signExtend, show i < 64 by omega]

theorem msb_eq_shift (value : BitVec 32) :
    value.msb = (value.setWidth 64 >>> 31 != 0) := by
  rw [BitVec.msb_eq_decide, Bool.eq_iff_iff, bne_iff_ne, decide_eq_true_iff, Ne,
    ← BitVec.toNat_inj, BitVec.toNat_ushiftRight, BitVec.toNat_setWidth]
  have := value.isLt
  rw [Nat.mod_eq_of_lt (by omega), Nat.shiftRight_eq_div_pow]
  change 2 ^ 31 ≤ value.toNat ↔ ¬ value.toNat / 2 ^ 31 = 0
  omega

theorem setWidth_beq_zero (value : BitVec 32) :
    ((value.setWidth 64).setWidth 32 == 0#32) = (value.setWidth 64 == 0) := by
  rw [Bool.eq_iff_iff, beq_iff_eq, beq_iff_eq, ← BitVec.toNat_inj, ← BitVec.toNat_inj]
  have := value.isLt
  simp only [BitVec.toNat_setWidth]
  change _ ↔ _ = 0
  rw [Nat.mod_eq_of_lt (by omega : value.toNat < 2 ^ 64), Nat.mod_eq_of_lt this]
  rfl

/-- The folds of operations on one immediate. -/
theorem foldUnary_sound {op : DataOp D} {imm imm' : Imm} {vals : List (Datum Flags)}
    (hbits : bitsOf vals 0 = imm.bits) (hty : op.operandTypes[0]? = some imm.ty)
    (hfold : foldUnary imm op = some imm') :
    op.resultType = some imm'.ty ∧ op.meaning other vals = .plain imm'.bits := by
  have hoperand : ∀ n, n ≤ 64 → operand n vals 0 = imm.asU64.setWidth n := by
    intro n hn
    rw [operand, hbits, imm.bits_setWidth hn]
  cases op with
  | leastSignificantWord =>
    cases hfold
    exact ⟨rfl, by simp [DataOp.meaning, hoperand, ofBits, Imm.bits]⟩
  | leastSignificantHalf =>
    cases hfold
    exact ⟨rfl, by simp [DataOp.meaning, hoperand, ofBits, Imm.bits]⟩
  | leastSignificantByte =>
    cases hfold
    exact ⟨rfl, by simp [DataOp.meaning, hoperand, ofBits, Imm.bits]⟩
  | mostSignificantBit =>
    cases hfold
    refine ⟨rfl, ?_⟩
    cases imm <;> cases hty
    simp [DataOp.meaning, hoperand, ofBits, Imm.bits, Imm.asU64, msb_eq_shift]
  | isZero s =>
    cases hfold
    refine ⟨rfl, ?_⟩
    have hzero : (imm.asU64.setWidth s.n == 0#s.n) = (imm.asU64 == 0) := by
      cases s <;> cases imm <;> cases hty
      · exact setWidth_beq_zero _
      · simp [Imm.asU64]
    rw [DataOp.meaning, hoperand _ s.n_le, hzero, ofBits, Imm.bits]
  | not s =>
    cases hfold
    refine ⟨by rw [Size.imm_ty]; rfl, ?_⟩
    rw [DataOp.meaning, hoperand _ s.n_le, Size.imm_bits, BitVec.setWidth_not s.n_le, ofBits]
  | signExtend e =>
    cases hfold
    refine ⟨by rw [Size.imm_ty]; rfl, ?_⟩
    have hvalue : (operand e.src.width vals 0).signExtend e.dst.n =
        imm.asS64.setWidth e.dst.n := by
      rw [operand, hbits]
      cases e <;> cases imm <;> cases hty <;>
        simp [Imm.bits, Imm.asS64, Extension.src, Ty.width, Extension.dst]
      all_goals exact (setWidth_signExtend _ (by decide)).symm
    rw [DataOp.meaning, hvalue, Size.imm_bits, ofBits]
  | zeroExtend e =>
    cases hfold
    refine ⟨by rw [Size.imm_ty]; rfl, ?_⟩
    have hvalue : (operand e.src.width vals 0).setWidth e.dst.n =
        imm.asU64.setWidth e.dst.n := by
      rw [operand, hbits]
      cases e <;> cases imm <;> cases hty <;>
        simp [Imm.bits, Imm.asU64, Extension.src, Ty.width]
    rw [DataOp.meaning, hvalue, Size.imm_bits, ofBits]
  | byteReverse kind =>
    cases kind <;> cases hfold <;> refine ⟨rfl, ?_⟩ <;>
      simp [DataOp.meaning, hoperand, ofBits, Imm.bits]
  | _ => cases hfold

end OtherFolds

end Sober.Ir
