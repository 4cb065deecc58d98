import Sober.Ir.ConstantPropagation

/-!
# The folds of constant propagation

Each fold leaves an instruction with the same value, whatever the instructions before it
have left for it to look at.
-/

namespace Sober.Ir

open Propagation

variable {D : Type}

section Immediates

theorem Imm.bits_eq (imm : Imm) : imm.bits = imm.asU64.setWidth 128 := by
  cases imm <;> simp [bits, asU64]

theorem Imm.bits_setWidth (imm : Imm) {n : ℕ} (h : n ≤ 64) :
    imm.bits.setWidth n = imm.asU64.setWidth n := by
  rw [bits_eq, BitVec.setWidth_setWidth_of_le]
  omega

theorem Imm.fits (imm : Imm) : imm.ty.Fits imm.bits := by
  cases imm <;> simp [Ty.Fits, ty, bits, Ty.width, BitVec.setWidth_setWidth_of_le]

@[simp] theorem Size.imm_ty (s : Size) (value : BitVec 64) : (s.imm value).ty = s.ty := by
  cases s <;> rfl

theorem Size.imm_bits (s : Size) (value : BitVec 64) :
    (s.imm value).bits = (value.setWidth s.n).setWidth 128 := by
  cases s
  · rfl
  · simp [imm, Imm.bits]

theorem Size.n_le (s : Size) : s.n ≤ 64 := by cases s <;> decide

theorem Size.width_ty (s : Size) : s.ty.width = s.n := by cases s <;> rfl

end Immediates

section Arithmetic

variable {n : ℕ}

namespace Commutative

theorem eval_setWidth (kind : Commutative) (h : n ≤ 64) (a b : BitVec 64) :
    (kind.eval a b).setWidth n = kind.eval (a.setWidth n) (b.setWidth n) := by
  cases kind
  · exact BitVec.setWidth_mul a b h
  · exact BitVec.setWidth_and
  · exact BitVec.setWidth_xor
  · exact BitVec.setWidth_or

theorem eval_comm (kind : Commutative) (a b : BitVec n) : kind.eval a b = kind.eval b a := by
  cases kind
  · exact BitVec.mul_comm a b
  · exact BitVec.and_comm a b
  · exact BitVec.xor_comm a b
  · exact BitVec.or_comm a b

theorem eval_assoc (kind : Commutative) (a b c : BitVec n) :
    kind.eval (kind.eval a b) c = kind.eval a (kind.eval b c) := by
  cases kind
  · exact BitVec.mul_assoc a b c
  · exact BitVec.and_assoc a b c
  · exact BitVec.xor_assoc a b c
  · exact BitVec.or_assoc a b c

end Commutative

/-- The helpers of the folds shift as the emitted code does. -/
theorem Shift.fold_eq (value : BitVec n) (amount : ℕ) (kind : Shift) :
    kind.fold value amount = kind.eval value amount := by
  cases kind with
  | logicalLeft =>
    simp only [fold, eval]
    split_ifs with h
    · exact (BitVec.shiftLeft_eq_zero h).symm
    · rfl
  | logicalRight =>
    simp only [fold, eval]
    split_ifs with h
    · exact (BitVec.ushiftRight_eq_zero h).symm
    · rfl
  | arithmeticRight =>
    simp only [fold, eval]
    split_ifs with h hmsb
    · ext i hi
      simp [BitVec.getElem_sshiftRight, hmsb, show ¬ amount + i < n by omega]
    · ext i hi
      simp [BitVec.getElem_sshiftRight, hmsb, show ¬ amount + i < n by omega]
    · rfl
  | rotateRight =>
    simp only [fold, eval, BitVec.rotateRight_def]
    split_ifs with h
    · rw [h, Nat.sub_zero, BitVec.shiftLeft_eq_zero (Nat.le_refl n)]
      simp
    · rfl

theorem Shift.eval_zero (value : BitVec n) (kind : Shift) : kind.eval value 0 = value := by
  cases kind <;> simp [eval, BitVec.rotateRight_def]

theorem addWithCarry_comm (a b : BitVec n) (carry : Bool) :
    addWithCarry a b carry = addWithCarry b a carry := by
  simp only [addWithCarry, BitVec.add_comm a b, Nat.add_comm a.toNat b.toNat,
    Int.add_comm a.toInt b.toInt]

/-- A signed quotient is the same in 64 bits. -/
theorem sdiv_signExtend (a b : BitVec 32) :
    ((a.signExtend 64).sdiv (b.signExtend 64)).setWidth 32 = a.sdiv b := by
  apply BitVec.eq_of_toInt_eq
  rw [← BitVec.signExtend_eq_setWidth_of_le _ (by decide), BitVec.toInt_signExtend,
    BitVec.toInt_sdiv, BitVec.toInt_sdiv, BitVec.toInt_signExtend_of_le (by decide),
    BitVec.toInt_signExtend_of_le (by decide)]
  exact Int.bmod_bmod_of_dvd (by decide)

theorem udiv_setWidth (a b : BitVec 32) :
    (a.setWidth 64 / b.setWidth 64).setWidth 32 = a / b := by
  apply BitVec.eq_of_toNat_eq
  have ha := a.isLt
  have hb := b.isLt
  have hdiv : a.toNat / b.toNat ≤ a.toNat := Nat.div_le_self _ _
  simp only [BitVec.toNat_setWidth, BitVec.toNat_udiv]
  rw [Nat.mod_eq_of_lt (by omega : a.toNat < 2 ^ 64),
    Nat.mod_eq_of_lt (by omega : b.toNat < 2 ^ 64),
    Nat.mod_eq_of_lt (by omega)]

end Arithmetic

section Values

/-- The value of an operation or an `Identity`, given those of its arguments. -/
def result (other : D → List Word → Datum Flags) (env : ℕ → Datum Flags) (inst : DataInst D) :
    Datum Flags :=
  match inst.op with
  | .data op => op.meaning other (inst.args.map (Arg.eval env))
  | _ => .plain ((inst.arg 0).eval env).bits

def isValue (inst : DataInst D) : Bool :=
  match inst.op with
  | .data _ | .identity => true
  | _ => false

def Arg.ty (types : ℕ → Ty) : Arg → Ty
  | .imm value => value.ty
  | .inst name => types name

/-- The checks of `SetArg` and of the verification pass. -/
structure WellTyped (types : ℕ → Ty) (inst : DataInst D) : Prop where
  operands : ∀ op, inst.op = .data op → op.operandTypes ≠ [] →
    inst.args.map (Arg.ty types) = op.operandTypes
  result : ∀ op t, inst.op = .data op → op.resultType = some t → types inst.name = t
  identity : inst.op = .identity → types inst.name = (inst.arg 0).ty types

/-- What is known of the instructions before the one to be folded. -/
structure Context (other : D → List Word → Datum Flags) (types : ℕ → Ty)
    (env : ℕ → Datum Flags) (before : List (DataInst D)) : Prop where
  defined : ∀ d ∈ before, isValue d = true → env d.name = result other env d
  typed : ∀ d ∈ before, WellTyped types d
  fits : ∀ d ∈ before, ∀ arg ∈ d.args, (arg.ty types).Fits (arg.eval env).bits

theorem Context.tail {other : D → List Word → Datum Flags} {types : ℕ → Ty}
    {env : ℕ → Datum Flags} {d : DataInst D} {before : List (DataInst D)}
    (h : Context other types env (d :: before)) : Context other types env before :=
  ⟨fun e he => h.defined e (List.mem_cons_of_mem _ he),
    fun e he => h.typed e (List.mem_cons_of_mem _ he),
    fun e he => h.fits e (List.mem_cons_of_mem _ he)⟩

variable {other : D → List Word → Datum Flags} {types : ℕ → Ty} {env : ℕ → Datum Flags}
  {before : List (DataInst D)}

/-- Looking through identities changes neither the value nor the type. -/
theorem Context.resolve (h : Context other types env before) (arg : Arg) :
    ((resolve before arg).eval env).bits = (arg.eval env).bits ∧
      (Propagation.resolve before arg).ty types = arg.ty types := by
  induction before generalizing arg with
  | nil => cases arg <;> exact ⟨rfl, rfl⟩
  | cons d before ih =>
    cases arg with
    | imm value => exact ⟨rfl, rfl⟩
    | inst name =>
      rw [Propagation.resolve]
      split_ifs with hname
      · subst hname
        split
        · rename_i hop
          obtain ⟨hbits, hty⟩ := ih h.tail (d.arg 0)
          have hdefined : env d.name = result other env d :=
            h.defined d List.mem_cons_self (by simp [isValue, hop])
          constructor
          · rw [hbits, Arg.eval, hdefined]
            simp [result, hop, Datum.plain]
          · rw [hty]
            exact ((h.typed d List.mem_cons_self).identity hop).symm
        · exact ⟨rfl, rfl⟩
      · exact ih h.tail (.inst name)

theorem Context.immediate (h : Context other types env before) {arg : Arg} {imm : Imm}
    (himm : immediate before arg = some imm) :
    (arg.eval env).bits = imm.bits ∧ arg.ty types = imm.ty := by
  obtain ⟨hbits, hty⟩ := h.resolve arg
  unfold Propagation.immediate at himm
  split at himm
  · rename_i value hvalue
    cases himm
    rw [← hbits, ← hty, hvalue]
    exact ⟨rfl, rfl⟩
  · cases himm

theorem Context.definition (h : Context other types env before) {arg : Arg} {op : DataOp D}
    {d : DataInst D} (hdef : definition before arg = some (op, d)) :
    d ∈ before ∧ d.op = .data op ∧ (arg.eval env).bits = (result other env d).bits := by
  obtain ⟨hbits, -⟩ := h.resolve arg
  unfold Propagation.definition at hdef
  split at hdef
  · cases hdef
  · rename_i name hname
    split at hdef
    · rename_i inst hfind
      split at hdef
      · rename_i op' hop
        cases hdef
        have hmem : d ∈ before := List.mem_of_find?_eq_some hfind
        have hd : d.name = name := by simpa using List.find?_some hfind
        refine ⟨hmem, hop, ?_⟩
        rw [← hbits, hname, ← h.defined d hmem (by simp [isValue, hop]), hd]
        rfl
      · cases hdef
    · cases hdef

end Values

section Folds

variable {other : D → List Word → Datum Flags} {types : ℕ → Ty} {env : ℕ → Datum Flags}
  {before after : List (DataInst D)} {inst inst' : DataInst D} {op : DataOp D}

/-- An argument that does not depend on the instructions still to come. -/
def Known (before : List (DataInst D)) (inst : DataInst D) (arg : Arg) : Prop :=
  (∃ value, arg = .imm value) ∨ arg ∈ inst.args ∨ ∃ d ∈ before, arg ∈ d.args

structure Folded (other : D → List Word → Datum Flags) (types : ℕ → Ty) (env : ℕ → Datum Flags)
    (before after : List (DataInst D)) (inst inst' : DataInst D) : Prop where
  name : inst'.name = inst.name
  value : isValue inst' = true
  args : ∀ arg ∈ inst'.args, Known before inst arg
  typed : WellTyped types inst'
  bits : (result other env inst').bits = (result other env inst).bits
  flags : ∀ p ∈ after, ∀ op, p.op = .data op → p.args.head? = some (.inst inst.name) →
    op.SameFlags (result other env inst).extra (result other env inst').extra

theorem DataOp.SameFlags.refl (f : Flags) (op : DataOp D) : op.SameFlags f f := by
  cases op <;> trivial

theorem DataOp.SameFlags.trans {f f' f'' : Flags} {op : DataOp D} (h : op.SameFlags f f')
    (h' : op.SameFlags f' f'') : op.SameFlags f f'' := by
  cases op <;> first | trivial | exact Eq.trans h' h

section Arguments

theorem Inst.arg_cases {D' : Type} (inst : Inst D') (k : ℕ) :
    inst.arg k = .imm (.u1 false) ∨ inst.arg k ∈ inst.args := by
  rw [Inst.arg, List.getD_eq_getElem?_getD]
  cases hget : inst.args[k]? with
  | none => exact .inl rfl
  | some arg => exact .inr (List.mem_of_getElem? hget)

theorem known_arg (k : ℕ) : Known before inst (inst.arg k) := by
  rcases inst.arg_cases k with h | h
  · exact .inl ⟨_, h⟩
  · exact .inr (.inl h)

theorem known_arg_of_mem {d : DataInst D} (hd : d ∈ before) (k : ℕ) :
    Known before inst (d.arg k) := by
  rcases d.arg_cases k with h | h
  · exact .inl ⟨_, h⟩
  · exact .inr (.inr ⟨d, hd, h⟩)

theorem known_imm (value : Imm) : Known before inst (.imm value) := .inl ⟨value, rfl⟩

theorem fits_arg (h : ∀ arg ∈ inst.args, (arg.ty types).Fits (arg.eval env).bits) (k : ℕ) :
    ((inst.arg k).ty types).Fits ((inst.arg k).eval env).bits := by
  rcases inst.arg_cases k with hdefault | hmem
  · rw [hdefault]
    exact Imm.fits (.u1 false)
  · exact h _ hmem

theorem WellTyped.arg (h : WellTyped types inst) (hop : inst.op = .data op) {k : ℕ} {t : Ty}
    (hk : op.operandTypes[k]? = some t) : (inst.arg k).ty types = t := by
  have hne : op.operandTypes ≠ [] := fun hnil => by simp [hnil] at hk
  have hget : (inst.args.map (Arg.ty types))[k]? = some t := by
    rw [h.operands op hop hne, hk]
  rw [List.getElem?_map, Option.map_eq_some_iff] at hget
  obtain ⟨arg, harg, hty⟩ := hget
  rw [Inst.arg, List.getD_eq_getElem?_getD, harg]
  exact hty

theorem operand_eval (n k : ℕ) :
    operand n (inst.args.map (Arg.eval env)) k = ((inst.arg k).eval env).bits.setWidth n := by
  rw [operand, Inst.bitsOf_eval]

theorem carryOperand_eval :
    carryOperand (inst.args.map (Arg.eval env)) = ((inst.arg 2).eval env).bits.getLsbD 0 := by
  rw [carryOperand, Inst.bitsOf_eval]

end Arguments

theorem WellTyped.withArgs (h : WellTyped types inst) (hop : inst.op = .data op)
    {args : List Arg} (hargs : args.map (Arg.ty types) = op.operandTypes) :
    WellTyped types { inst with args := args } where
  operands op' hop' _ := by
    rw [hop] at hop'
    cases hop'
    exact hargs
  result := h.result
  identity hidentity := by
    rw [hop] at hidentity
    cases hidentity

theorem WellTyped.replaceUsesWith (h : WellTyped types inst) (hop : inst.op = .data op) {t : Ty}
    (hresult : op.resultType = some t) {arg : Arg} (hty : arg.ty types = t) :
    WellTyped types (inst.replaceUsesWith arg) where
  operands _ hop' := nomatch hop'
  result _ _ hop' := nomatch hop'
  identity _ := (h.result op t hop hresult).trans hty.symm

namespace Folded

theorem refl (hvalue : isValue inst = true) (htyped : WellTyped types inst) :
    Folded other types env before after inst inst where
  name := rfl
  value := hvalue
  args _ harg := .inr (.inl harg)
  typed := htyped
  bits := rfl
  flags _ _ _ _ _ := .refl _ _

theorem trans {inst'' : DataInst D} (h : Folded other types env before after inst inst')
    (h' : Folded other types env before after inst' inst'') :
    Folded other types env before after inst inst'' where
  name := h'.name.trans h.name
  value := h'.value
  args arg harg := by
    rcases h'.args arg harg with hknown | hknown | hknown
    · exact .inl hknown
    · exact h.args arg hknown
    · exact .inr (.inr hknown)
  typed := h'.typed
  bits := h'.bits.trans h.bits
  flags p hp op hop hhead := (h.flags p hp op hop hhead).trans
    (h'.flags p hp op hop (h.name ▸ hhead))

/-- The arguments it has are values of their types as well. -/
theorem fits (h : Folded other types env before after inst inst')
    (hctx : Context other types env before)
    (hfits : ∀ arg ∈ inst.args, (arg.ty types).Fits (arg.eval env).bits) :
    ∀ arg ∈ inst'.args, (arg.ty types).Fits (arg.eval env).bits := by
  intro arg harg
  rcases h.args arg harg with ⟨value, rfl⟩ | hmem | ⟨d, hd, hmem⟩
  · exact value.fits
  · exact hfits arg hmem
  · exact hctx.fits d hd arg hmem

/-- An operation that becomes an `Identity`. -/
theorem identity (htyped : WellTyped types inst) (hop : inst.op = .data op) {t : Ty}
    (hresult : op.resultType = some t) {arg : Arg} (hknown : Known before inst arg)
    (hty : arg.ty types = t) (hbits : (arg.eval env).bits = (result other env inst).bits)
    (hflags : ∀ p ∈ after, ∀ op', p.op = .data op' → p.args.head? = some (.inst inst.name) →
      op'.SameFlags (result other env inst).extra default) :
    Folded other types env before after inst (inst.replaceUsesWith arg) where
  name := rfl
  value := rfl
  args _ harg := List.mem_singleton.mp harg ▸ hknown
  typed := htyped.replaceUsesWith hop hresult hty
  bits := hbits
  flags := hflags

/-- For an operation that no pseudo-operation asks for flags. -/
theorem identity_plain (htyped : WellTyped types inst) (hop : inst.op = .data op) {t : Ty}
    (hresult : op.resultType = some t) {arg : Arg} (hknown : Known before inst arg)
    (hty : arg.ty types = t) (hvalue : result other env inst = .plain (arg.eval env).bits) :
    Folded other types env before after inst (inst.replaceUsesWith arg) := by
  refine identity htyped hop hresult hknown hty ?_ fun _ _ op' _ _ => ?_
  · rw [hvalue, Datum.plain]
  · rw [hvalue, Datum.plain]
    exact .refl _ _

theorem identity_imm (htyped : WellTyped types inst) (hop : inst.op = .data op) {imm : Imm}
    (hresult : op.resultType = some imm.ty) (hvalue : result other env inst = .plain imm.bits) :
    Folded other types env before after inst (inst.replaceUsesWith (.imm imm)) :=
  identity_plain htyped hop hresult (.inl ⟨imm, rfl⟩) rfl hvalue

/-- The same operation on other operands. -/
theorem withArgs (htyped : WellTyped types inst) (hop : inst.op = .data op) {args : List Arg}
    (hknown : ∀ arg ∈ args, Known before inst arg)
    (hargs : args.map (Arg.ty types) = op.operandTypes)
    (hbits : (result other env { inst with args := args }).bits = (result other env inst).bits)
    (hflags : ∀ p ∈ after, ∀ op', p.op = .data op' → p.args.head? = some (.inst inst.name) →
      op'.SameFlags (result other env inst).extra
        (result other env { inst with args := args }).extra) :
    Folded other types env before after inst { inst with args := args } where
  name := rfl
  value := by simp [isValue, hop]
  args := hknown
  typed := htyped.withArgs hop hargs
  bits := hbits
  flags := hflags

end Folded

end Folds

end Sober.Ir
