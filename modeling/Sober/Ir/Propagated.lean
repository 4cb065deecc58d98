import Mathlib.Data.List.Forall2
import Sober.Ir.DeadCode
import Sober.Ir.FoldStep

/-!
# Constant propagation preserves what a block does

The block the pass leaves is run in step with the block it was given. All values agree, and
the flags agree as far as some pseudo-operation still to come asks for them.
-/

namespace Sober.Ir

open Propagation

variable {D R : Type} {b : Behaviour D R} {types : ℕ → Ty}

section Instructions

variable {inst inst' : DataInst D} {st st' : State R Flags}

theorem apply_value {env : ℕ → Datum Flags} (h : isValue inst = true) (file : Slot → Word)
    (rest : R) :
    inst.op.apply b.semantics (inst.args.map (Arg.eval env)) file rest =
      ⟨some (result b.other env inst), file, rest⟩ := by
  unfold isValue at h
  split at h
  · rename_i op hop
    simp only [hop, Opcode.apply, Behaviour.semantics, result]
  · rename_i hop
    simp only [hop, Opcode.apply, Inst.bitsOf_eval, result]
  · cases h

theorem exec_value (h : isValue inst = true) (st : State R Flags) :
    inst.exec b.semantics st =
      { st with env := Function.update st.env inst.name (result b.other st.env inst) } := by
  simp only [Inst.exec, apply_value h, Option.elim]

theorem result_congr {other : D → List Word → Datum Flags} {env env' : ℕ → Datum Flags}
    (h : ∀ arg ∈ inst.args, arg.eval env' = arg.eval env) :
    result other env' inst = result other env inst := by
  have hargs : inst.args.map (Arg.eval env') = inst.args.map (Arg.eval env) :=
    List.map_congr_left h
  have hfirst : (inst.arg 0).eval env' = (inst.arg 0).eval env := by
    rcases inst.arg_cases 0 with hdefault | hmem
    · rw [hdefault]
      rfl
    · exact h _ hmem
  unfold result
  rw [hargs, hfirst]

/-- An instruction gives the same where its arguments have the same values, if the flags it
asks for are the same. -/
theorem apply_args (hbits : ∀ n, (st'.env n).bits = (st.env n).bits)
    (hflags : ∀ op n, inst.op = .data op → inst.args.head? = some (.inst n) →
      op.SameFlags (st.env n).extra (st'.env n).extra) (file : Slot → Word) (rest : R) :
    inst.op.apply b.semantics (inst.args.map (Arg.eval st'.env)) file rest =
      inst.op.apply b.semantics (inst.args.map (Arg.eval st.env)) file rest := by
  refine Opcode.apply_congr ?_ (fun op hop => ?_) file rest
  · rw [List.map_map, List.map_map]
    refine List.map_congr_left fun arg _ => ?_
    cases arg with
    | imm value => rfl
    | inst n => exact hbits n
  · cases hargs : inst.args with
    | nil => exact .refl _ _
    | cons arg args =>
      cases arg with
      | imm value => exact .refl _ _
      | inst n => exact hflags op n hop (by rw [hargs]; rfl)

end Instructions

section Simulation

/-- What an instruction still to come was: itself, or the pseudo-operation for a carry that
is known by now. -/
inductive Later (todo : List (DataInst D)) (env : ℕ → Datum Flags) :
    DataInst D → DataInst D → Prop where
  | same (inst : DataInst D) : Later todo env inst inst
  | carry {inst : DataInst D} {n : ℕ} {arg : Arg} (hcarry : isCarryOf n inst = true)
      (hn : ∀ i ∈ todo, i.name ≠ n) (harg : ∀ i ∈ todo, arg ≠ .inst i.name)
      (hvalue : (arg.eval env).bits = (BitVec.ofBool (env n).extra.carry).setWidth 128) :
      Later todo env (inst.replaceUsesWith arg) inst

/-- The pass has gone over the instructions `before`, which take the place of those that
were there; `todo'` is what `todo` has become. -/
structure Sim (b : Behaviour D R) (types : ℕ → Ty) (before todo' todo : List (DataInst D))
    (st' st : State R Flags) : Prop where
  file : st'.file = st.file
  rest : st'.rest = st.rest
  bits : ∀ n, (st'.env n).bits = (st.env n).bits
  unset : ∀ i ∈ todo, st'.env i.name = st.env i.name
  defined : ∀ d ∈ before, isValue d = true → st'.env d.name = result b.other st'.env d
  typed : ∀ d ∈ before, WellTyped types d
  names : ∀ d ∈ before, ∀ i ∈ todo, d.name ≠ i.name
  args : ∀ d ∈ before, ∀ arg ∈ d.args, ∀ i ∈ todo, arg ≠ .inst i.name
  typed' : ∀ i ∈ todo', WellTyped types i
  later : List.Forall₂ (Later todo st.env) todo' todo
  flags : ∀ p ∈ todo', ∀ op n, p.op = .data op → p.args.head? = some (.inst n) →
    (∀ i ∈ todo, i.name ≠ n) → op.SameFlags (st.env n).extra (st'.env n).extra

namespace Sim

variable {before todo' todo : List (DataInst D)} {inst' inst : DataInst D}
  {st' st : State R Flags}

/-- The next instruction gives the same in both runs. -/
theorem head (h : Sim b types before (inst' :: todo') (inst :: todo) st' st)
    (hargs : ∀ i ∈ inst :: todo, .inst i.name ∉ inst.args) :
    inst'.name = inst.name ∧
      inst'.op.apply b.semantics (inst'.args.map (Arg.eval st'.env)) st'.file st'.rest =
        inst.op.apply b.semantics (inst.args.map (Arg.eval st.env)) st.file st.rest := by
  rw [h.file, h.rest]
  cases (List.forall₂_cons.mp h.later).1 with
  | same =>
    refine ⟨rfl, apply_args h.bits (fun op n hop hhead => ?_) st.file st.rest⟩
    refine h.flags _ List.mem_cons_self op n hop hhead fun i hi hname => hargs i hi ?_
    rw [hname]
    exact List.mem_of_mem_head? (Option.mem_def.mpr hhead)
  | @carry _ n arg hcarry hn harg hvalue =>
    refine ⟨rfl, ?_⟩
    obtain ⟨hop, hhead⟩ := isCarryOf_iff.mp hcarry
    have hflags : flagsOf (inst.args.map (Arg.eval st.env)) = (st.env n).extra := by
      obtain ⟨args, hcons⟩ : ∃ args, inst.args = .inst n :: args := by
        cases hargs : inst.args with
        | nil => simp [hargs] at hhead
        | cons first args =>
          rw [hargs, List.head?_cons, Option.some.injEq] at hhead
          exact ⟨args, by rw [hhead]⟩
      rw [hcons]
      rfl
    have hbits : (arg.eval st'.env).bits = (arg.eval st.env).bits := by
      cases arg with
      | imm value => rfl
      | inst m => exact h.bits m
    simp only [Inst.replaceUsesWith, hop, Opcode.apply, Behaviour.semantics, DataOp.meaning, hflags,
      ofBits, ← hvalue, ← hbits]
    rfl

end Sim

/-- Instructions do not change the values of others. -/
theorem exec_env_of_settled {todo : List (DataInst D)} {n : ℕ} (hn : ∀ i ∈ todo, i.name ≠ n)
    (st : State R Flags) : (exec b.semantics todo st).env n = st.env n := by
  induction todo generalizing st with
  | nil => rfl
  | cons inst todo ih =>
    rw [List.forall_mem_cons] at hn
    rw [exec_cons, ih hn.2, Inst.exec_env hn.1.symm]

namespace Sim

variable {before todo' todo : List (DataInst D)} {inst' inst : DataInst D}
  {st' st : State R Flags}

/-- An argument that is settled is a value of its type. -/
theorem fits (h : Sim b types before todo' todo st' st)
    (hfits : ∀ n, (types n).Fits ((exec b.semantics todo st).env n).bits) {arg : Arg}
    (harg : ∀ i ∈ todo, arg ≠ .inst i.name) : (arg.ty types).Fits (arg.eval st'.env).bits := by
  cases arg with
  | imm value => exact value.fits
  | inst n =>
    have hn : ∀ i ∈ todo, i.name ≠ n := fun i hi hname => harg i hi (congrArg _ hname.symm)
    have hfit := hfits n
    rw [exec_env_of_settled hn, ← h.bits n] at hfit
    exact hfit

theorem context (h : Sim b types before todo' todo st' st)
    (hfits : ∀ n, (types n).Fits ((exec b.semantics todo st).env n).bits) :
    Context b.other types st'.env before :=
  ⟨h.defined, h.typed, fun d hd arg harg => h.fits hfits (h.args d hd arg harg)⟩

/-- The next instruction does not use what is still to come. -/
theorem head_args (h : Sim b types before (inst' :: todo') (inst :: todo) st' st)
    (hargs : ∀ i ∈ inst :: todo, .inst i.name ∉ inst.args) :
    ∀ arg ∈ inst'.args, ∀ i ∈ inst :: todo, arg ≠ .inst i.name := by
  intro arg harg i hi heq
  cases (List.forall₂_cons.mp h.later).1 with
  | same => exact hargs i hi (heq ▸ harg)
  | carry hcarry hn hsettled hvalue => exact hsettled i hi (List.mem_singleton.mp harg ▸ heq)

end Sim

structure Turn (b : Behaviour D R) (types : ℕ → Ty) (before after' after : List (DataInst D))
    (inst' inst'' inst : DataInst D) (st' st : State R Flags) : Prop where
  name : inst''.name = inst.name
  typed : WellTyped types inst''
  args : ∀ arg ∈ inst''.args, Known before inst' arg
  file : (inst''.exec b.semantics st').file = (inst.exec b.semantics st).file
  rest : (inst''.exec b.semantics st').rest = (inst.exec b.semantics st).rest
  bits : ((inst''.exec b.semantics st').env inst.name).bits =
    ((inst.exec b.semantics st).env inst.name).bits
  defined : isValue inst'' = true →
    (inst''.exec b.semantics st').env inst.name = result b.other st'.env inst''
  flags : ∀ p ∈ after', ∀ op, p.op = .data op → p.args.head? = some (.inst inst.name) →
    op.SameFlags ((inst.exec b.semantics st).env inst.name).extra
      ((inst''.exec b.semantics st').env inst.name).extra
  after : after' = after ∨ ∃ replacement, after' = replaceCarry inst.name replacement after ∧
    CarryReplaced types st'.env before inst'
      ((inst.exec b.semantics st).env inst.name).extra.carry replacement

section Step

variable [DecidableEq D] {before todo' todo after' : List (DataInst D)}
  {inst' inst inst'' : DataInst D} {st' st : State R Flags}

theorem fold_of_not_value (hvalue : isValue inst' = false)
    (hfold : fold before todo' inst' = some (inst'', after')) :
    inst'' = inst' ∧ after' = todo' := by
  unfold fold at hfold
  split at hfold
  · rename_i op hop
    simp [isValue, hop] at hvalue
  · cases hfold
    exact ⟨rfl, rfl⟩

theorem Sim.turn (h : Sim b types before (inst' :: todo') (inst :: todo) st' st)
    (hargs : ∀ i ∈ inst :: todo, .inst i.name ∉ inst.args)
    (hfits : ∀ n, (types n).Fits ((exec b.semantics (inst :: todo) st).env n).bits)
    (honce : CarryOnce inst.name todo') (hcarry : CarryInUse inst' todo')
    (hfold : fold before todo' inst' = some (inst'', after')) :
    Turn b types before after' todo' inst' inst'' inst st' st := by
  obtain ⟨hname, happly⟩ := h.head hargs
  have htyped := h.typed' inst' List.mem_cons_self
  cases hvalue : isValue inst' with
  | false =>
    obtain ⟨rfl, rfl⟩ := fold_of_not_value hvalue hfold
    have hexec : inst''.exec b.semantics st' = ⟨(inst.op.apply b.semantics
        (inst.args.map (Arg.eval st.env)) st.file st.rest).result.elim st'.env
          (Function.update st'.env inst.name), (inst.exec b.semantics st).file,
        (inst.exec b.semantics st).rest⟩ := by
      simp only [Inst.exec, happly, hname]
    have hsame : (inst''.exec b.semantics st').env inst.name =
        (inst.exec b.semantics st).env inst.name := by
      rw [hexec]
      simp only [Inst.exec]
      cases (inst.op.apply b.semantics (inst.args.map (Arg.eval st.env)) st.file
          st.rest).result with
      | none => exact h.unset inst List.mem_cons_self
      | some value => simp only [Option.elim, Function.update_self]
    exact {
      name := hname
      typed := htyped
      args := fun arg harg => .inr (.inl harg)
      file := by rw [hexec]
      rest := by rw [hexec]
      bits := by rw [hsame]
      defined := fun h => by rw [hvalue] at h; cases h
      flags := fun _ _ _ _ _ => by rw [hsame]; exact .refl _ _
      after := .inl rfl }
  | true =>
    obtain ⟨hfolded, hafter⟩ := folded_fold (h.context hfits) htyped
      (fun arg harg => h.fits hfits (h.head_args hargs arg harg)) (hname ▸ honce) hcarry hvalue
      hfold
    have horig : inst.exec b.semantics st =
        ⟨Function.update st.env inst.name (result b.other st'.env inst'), st'.file, st'.rest⟩ := by
      simp only [Inst.exec, ← happly, apply_value hvalue, Option.elim]
    have hexec : inst''.exec b.semantics st' = { st' with
        env := Function.update st'.env inst.name (result b.other st'.env inst'') } := by
      rw [exec_value hfolded.value, hfolded.name, hname]
    exact {
      name := hfolded.name.trans hname
      typed := hfolded.typed
      args := hfolded.args
      file := by rw [horig, hexec]
      rest := by rw [horig, hexec]
      bits := by
        rw [horig, hexec]
        simp only [Function.update_self, hfolded.bits]
      defined := fun _ => by
        rw [hexec]
        simp only [Function.update_self]
      flags := fun p hp op hop hhead => by
        rw [horig, hexec]
        simp only [Function.update_self]
        exact hfolded.flags p hp op hop (hname ▸ hhead)
      after := by
        rw [horig]
        simpa only [Function.update_self, hname] using hafter }

end Step

section Carries

variable {name n : ℕ} {replacement : Arg} {after todo' todo : List (DataInst D)}
  {env env' : ℕ → Datum Flags}

theorem mem_replaceCarry {p : DataInst D} (hp : p ∈ replaceCarry name replacement after) :
    p ∈ after ∨ ∃ q ∈ after, isCarryOf name q = true ∧ p = q.replaceUsesWith replacement := by
  induction after with
  | nil => cases hp
  | cons q after ih =>
    rw [replaceCarry] at hp
    split_ifs at hp with hcarry
    · rcases List.mem_cons.mp hp with rfl | hp
      · exact .inr ⟨q, List.mem_cons_self, hcarry, rfl⟩
      · exact .inl (List.mem_cons_of_mem _ hp)
    · rcases List.mem_cons.mp hp with rfl | hp
      · exact .inl List.mem_cons_self
      · rcases ih hp with hmem | ⟨r, hr, hcarry', rfl⟩
        · exact .inl (List.mem_cons_of_mem _ hmem)
        · exact .inr ⟨r, List.mem_cons_of_mem _ hr, hcarry', rfl⟩

theorem exists_later {rest : List (DataInst D)} (h : List.Forall₂ (Later rest env) todo' todo)
    {p' : DataInst D} (hp' : p' ∈ todo') : ∃ p ∈ todo, Later rest env p' p := by
  induction h with
  | nil => cases hp'
  | cons hlater _ ih =>
    rcases List.mem_cons.mp hp' with rfl | hp'
    · exact ⟨_, List.mem_cons_self, hlater⟩
    · obtain ⟨p, hp, hlater'⟩ := ih hp'
      exact ⟨p, List.mem_cons_of_mem _ hp, hlater'⟩

theorem exists_later_of_mem {rest : List (DataInst D)}
    (h : List.Forall₂ (Later rest env) todo' todo) {p : DataInst D} (hp : p ∈ todo) :
    ∃ p' ∈ todo', Later rest env p' p := by
  induction h with
  | nil => cases hp
  | cons hlater _ ih =>
    rcases List.mem_cons.mp hp with rfl | hp
    · exact ⟨_, List.mem_cons_self, hlater⟩
    · obtain ⟨p', hp', hlater'⟩ := ih hp
      exact ⟨p', List.mem_cons_of_mem _ hp', hlater'⟩

theorem Later.isCarryOf {inst' inst : DataInst D} (h : Later todo env inst' inst)
    (hcarry : isCarryOf name inst' = true) : inst' = inst := by
  cases h with
  | same => rfl
  | carry _ _ _ _ =>
    rw [isCarryOf_replaceUsesWith] at hcarry
    cases hcarry

theorem Later.forall₂_replaceCarry {rest : List (DataInst D)}
    (h : List.Forall₂ (Later rest env) todo' todo) (hn : ∀ i ∈ rest, i.name ≠ name)
    (harg : ∀ i ∈ rest, replacement ≠ .inst i.name) (hvalue : (replacement.eval env).bits =
      (BitVec.ofBool (env name).extra.carry).setWidth 128) :
    List.Forall₂ (Later rest env) (replaceCarry name replacement todo') todo := by
  induction h with
  | nil => exact .nil
  | @cons q' q todo' todo hlater hrest ih =>
    rw [replaceCarry]
    split_ifs with hcarry
    · obtain rfl := hlater.isCarryOf hcarry
      exact .cons (.carry hcarry hn harg hvalue) hrest
    · exact .cons hlater ih

/-- The list that is left asks for a carry only where the one given did. -/
theorem CarryOnce.of_later {rest : List (DataInst D)} (honce : CarryOnce n todo)
    (h : List.Forall₂ (Later rest env) todo' todo) : CarryOnce n todo' := by
  induction h with
  | nil => exact .nil
  | @cons q' q todo' todo hlater hrest ih =>
    rw [CarryOnce, List.pairwise_cons] at honce
    refine List.pairwise_cons.mpr ⟨fun p' hp' hcarry => ?_, ih honce.2⟩
    obtain rfl := hlater.isCarryOf hcarry
    obtain ⟨p, hp, hlater'⟩ := exists_later hrest hp'
    by_contra hcontra
    have hcarry' : Propagation.isCarryOf n p' = true := by simpa using hcontra
    obtain rfl := hlater'.isCarryOf hcarry'
    have := honce.1 _ hp hcarry
    rw [this] at hcarry'
    cases hcarry'

end Carries

section Step

variable {before todo' todo after' : List (DataInst D)} {inst' inst inst'' : DataInst D}
  {st' st : State R Flags}

/-- What is known does not depend on what is still to come. -/
theorem Sim.settled_of_known (h : Sim b types before (inst' :: todo') (inst :: todo) st' st)
    (hargs : ∀ i ∈ inst :: todo, .inst i.name ∉ inst.args) {arg : Arg}
    (hknown : Known before inst' arg) : ∀ i ∈ inst :: todo, arg ≠ .inst i.name := by
  rcases hknown with ⟨value, rfl⟩ | hmem | ⟨d, hd, hmem⟩
  · exact fun _ _ => nofun
  · exact h.head_args hargs arg hmem
  · exact h.args d hd arg hmem

/-- The instructions still to come stay what they were. -/
theorem Sim.later_step (h : Sim b types before (inst' :: todo') (inst :: todo) st' st) :
    List.Forall₂ (Later todo (inst.exec b.semantics st).env) todo' todo := by
  refine List.Forall₂.imp (fun p' p hlater => ?_) (List.forall₂_cons.mp h.later).2
  cases hlater with
  | same => exact .same _
  | carry hcarry hn harg hvalue =>
    rw [List.forall_mem_cons] at hn harg
    refine .carry hcarry hn.2 harg.2 ?_
    rw [Inst.eval_exec harg.1, Inst.exec_env hn.1.symm, hvalue]

theorem Sim.step (h : Sim b types before (inst' :: todo') (inst :: todo) st' st)
    (hnames : ∀ i ∈ todo, inst.name ≠ i.name)
    (hargs : ∀ i ∈ inst :: todo, .inst i.name ∉ inst.args)
    (hturn : Turn b types before after' todo' inst' inst'' inst st' st) :
    Sim b types (inst'' :: before) after' todo (inst''.exec b.semantics st')
      (inst.exec b.semantics st) := by
  have henv' : ∀ {n}, n ≠ inst.name → (inst''.exec b.semantics st').env n = st'.env n :=
    fun hn => Inst.exec_env (hturn.name ▸ hn)
  have heval' : ∀ {arg : Arg}, arg ≠ .inst inst.name →
      arg.eval (inst''.exec b.semantics st').env = arg.eval st'.env :=
    fun harg => Inst.eval_exec (hturn.name ▸ harg)
  have hsettled : ∀ arg ∈ inst''.args, ∀ i ∈ inst :: todo, arg ≠ .inst i.name :=
    fun arg harg => h.settled_of_known hargs (hturn.args arg harg)
  -- an instruction that is left came after, or asked for the carry
  have hafter : ∀ p ∈ after', p ∈ todo' ∨ ∃ q ∈ todo', ∃ replacement,
      q.op = .data .getCarryFromOp ∧ replacement.ty types = .u1 ∧
        p = q.replaceUsesWith replacement := by
    intro p hp
    rcases hturn.after with rfl | ⟨replacement, rfl, hreplaced⟩
    · exact .inl hp
    · rcases mem_replaceCarry hp with hmem | ⟨q, hq, hcarry, rfl⟩
      · exact .inl hmem
      · exact .inr ⟨q, hq, replacement, (isCarryOf_iff.mp hcarry).1, hreplaced.typed, rfl⟩
  exact {
    file := hturn.file
    rest := hturn.rest
    bits := by
      intro n
      by_cases hn : n = inst.name
      · subst hn
        exact hturn.bits
      · rw [henv' hn, Inst.exec_env hn]
        exact h.bits n
    unset := by
      intro i hi
      rw [henv' (hnames i hi).symm, Inst.exec_env (hnames i hi).symm]
      exact h.unset i (List.mem_cons_of_mem _ hi)
    defined := by
      intro d hd hvalue
      rcases List.mem_cons.mp hd with rfl | hd
      · rw [hturn.name, hturn.defined hvalue]
        exact (result_congr fun arg harg =>
          heval' (hsettled arg harg inst List.mem_cons_self)).symm
      · rw [henv' (h.names d hd inst List.mem_cons_self), h.defined d hd hvalue]
        exact (result_congr fun arg harg =>
          heval' (h.args d hd arg harg inst List.mem_cons_self)).symm
    typed := List.forall_mem_cons.mpr ⟨hturn.typed, h.typed⟩
    names := by
      refine List.forall_mem_cons.mpr ⟨fun i hi => hturn.name ▸ hnames i hi, fun d hd i hi => ?_⟩
      exact h.names d hd i (List.mem_cons_of_mem _ hi)
    args := by
      refine List.forall_mem_cons.mpr ⟨fun arg harg i hi => ?_, fun d hd arg harg i hi => ?_⟩
      · exact hsettled arg harg i (List.mem_cons_of_mem _ hi)
      · exact h.args d hd arg harg i (List.mem_cons_of_mem _ hi)
    typed' := by
      intro p hp
      rcases hafter p hp with hmem | ⟨q, hq, replacement, hop, hty, rfl⟩
      · exact h.typed' p (List.mem_cons_of_mem _ hmem)
      · exact (h.typed' q (List.mem_cons_of_mem _ hq)).replaceUsesWith hop rfl hty
    later := by
      rcases hturn.after with rfl | ⟨replacement, rfl, hreplaced⟩
      · exact h.later_step
      · have hknown := h.settled_of_known hargs hreplaced.known
        rw [List.forall_mem_cons] at hknown
        refine Later.forall₂_replaceCarry h.later_step (fun i hi => (hnames i hi).symm) hknown.2 ?_
        rw [Inst.eval_exec hknown.1, ← hreplaced.value]
        cases replacement with
        | imm value => rfl
        | inst n => exact (h.bits n).symm
    flags := by
      intro p hp op n hop hhead hn
      by_cases hname : n = inst.name
      · subst hname
        exact hturn.flags p hp op hop hhead
      · rw [henv' hname, Inst.exec_env hname]
        rcases hafter p hp with hmem | ⟨q, hq, replacement, -, -, rfl⟩
        · exact h.flags p (List.mem_cons_of_mem _ hmem) op n hop hhead
            (List.forall_mem_cons.mpr ⟨Ne.symm hname, hn⟩)
        · cases hop }

end Step

section Run

variable {before todo' todo : List (DataInst D)} {st' st st₀ : State R Flags}

/-- What the translator guarantees of a block, and that an addition takes a carry only where
its flags are used. -/
structure WellFormed (types : ℕ → Ty) (block : List (DataInst D)) : Prop where
  once : SingleAssignment block
  self : ∀ inst ∈ block, .inst inst.name ∉ inst.args
  typed : ∀ inst ∈ block, WellTyped types inst
  carryOnce : ∀ n, CarryOnce n block
  carryInUse : ∀ before inst after, block = before ++ inst :: after → CarryInUse inst after

theorem WellFormed.tail {inst : DataInst D} (h : WellFormed types (inst :: todo)) :
    WellFormed types todo where
  once := (List.pairwise_cons.mp h.once).2
  self i hi := h.self i (List.mem_cons_of_mem _ hi)
  typed i hi := h.typed i (List.mem_cons_of_mem _ hi)
  carryOnce n := (List.pairwise_cons.mp (h.carryOnce n)).2
  carryInUse before i after hblock := h.carryInUse (inst :: before) i after (by rw [hblock]; rfl)

theorem WellFormed.head_args {inst : DataInst D} (h : WellFormed types (inst :: todo)) :
    ∀ i ∈ inst :: todo, .inst i.name ∉ inst.args := by
  refine List.forall_mem_cons.mpr ⟨h.self inst List.mem_cons_self, fun i hi => ?_⟩
  exact ((List.pairwise_cons.mp h.once).1 i hi).2

/-- An addition that is left takes a carry only where its flags are used. -/
theorem Sim.carryInUse {inst' inst : DataInst D}
    (h : Sim b types before (inst' :: todo') (inst :: todo) st' st)
    (hcarry : CarryInUse inst todo) : CarryInUse inst' todo' := by
  intro s hop
  obtain ⟨hhead, hlater⟩ := List.forall₂_cons.mp h.later
  cases hhead with
  | carry _ _ _ _ => cases hop
  | same =>
    refine (hcarry s hop).imp id fun hpseudo => ?_
    obtain ⟨p, hp, hhangs⟩ := List.any_eq_true.mp hpseudo
    obtain ⟨p', hp', hlater'⟩ := exists_later_of_mem hlater hp
    refine List.any_eq_true.mpr ⟨p', hp', ?_⟩
    cases hlater' with
    | same => exact hhangs
    | @carry _ n _ hcarry hn _ _ =>
      obtain ⟨hop', hhead'⟩ := isCarryOf_iff.mp hcarry
      have hname : n = inst'.name := by
        simpa [hangsOn, hop', hhead', DataOp.isAPseudoOperation] using hhangs
      exact absurd hname.symm (hn inst' List.mem_cons_self)

variable [DecidableEq D]

/-- The run of the pass and of both blocks to the end. -/
theorem Sim.run (h : Sim b types before todo' todo st' st) (hwf : WellFormed types todo)
    (hfits : ∀ n, (types n).Fits ((exec b.semantics todo st).env n).bits)
    (hst : exec b.semantics before.reverse st₀ = st') {block : List (DataInst D)}
    (hpass : propagate todo.length before todo' = some block) :
    (exec b.semantics block st₀).guest = (exec b.semantics todo st).guest := by
  induction todo generalizing before todo' st' st with
  | nil =>
    have hnil := List.forall₂_nil_right_iff.mp h.later
    subst hnil
    simp only [List.length_nil, propagate, List.append_nil, Option.some.injEq] at hpass
    subst hpass
    rw [hst, exec_nil, State.guest, State.guest, h.file, h.rest]
  | cons inst todo ih =>
    obtain ⟨inst', rest', hlater, hrest, rfl⟩ := List.forall₂_cons_right_iff.mp h.later
    rw [List.length_cons, propagate] at hpass
    obtain ⟨⟨inst'', after'⟩, hfold, hpass⟩ := Option.bind_eq_some_iff.mp hpass
    have honce : CarryOnce inst.name rest' := (hwf.tail.carryOnce inst.name).of_later hrest
    have hcarry := h.carryInUse (hwf.carryInUse [] inst todo rfl)
    have hturn := h.turn hwf.head_args hfits honce hcarry hfold
    have hnames : ∀ i ∈ todo, inst.name ≠ i.name :=
      fun i hi => ((List.pairwise_cons.mp hwf.once).1 i hi).1
    rw [exec_cons]
    refine ih (h.step hnames hwf.head_args hturn) hwf.tail hfits ?_ hpass
    rw [List.reverse_cons, exec_append, hst, exec_cons, exec_nil]

/-- Without 64-bit signed divisions the pass gets to the end. -/
theorem Sim.exists_propagate (h : Sim b types before todo' todo st' st)
    (hwf : WellFormed types todo)
    (hfits : ∀ n, (types n).Fits ((exec b.semantics todo st).env n).bits)
    (hdiv : ∀ inst ∈ todo, inst.op ≠ .data (.signedDiv .w64)) :
    ∃ block, propagate todo.length before todo' = some block := by
  induction todo generalizing before todo' st' st with
  | nil => exact ⟨_, rfl⟩
  | cons inst todo ih =>
    obtain ⟨inst', rest', hlater, hrest, rfl⟩ := List.forall₂_cons_right_iff.mp h.later
    rw [List.forall_mem_cons] at hdiv
    have hdiv' : inst'.op ≠ .data (.signedDiv .w64) := by
      cases hlater with
      | same => exact hdiv.1
      | carry _ _ _ _ => exact nofun
    obtain ⟨⟨inst'', after'⟩, hfold⟩ : ∃ r, fold before rest' inst' = some r :=
      exists_fold (h.context hfits) (h.typed' inst' List.mem_cons_self) hdiv'
    have honce : CarryOnce inst.name rest' := (hwf.tail.carryOnce inst.name).of_later hrest
    have hcarry := h.carryInUse (hwf.carryInUse [] inst todo rfl)
    have hturn := h.turn hwf.head_args hfits honce hcarry hfold
    have hnames : ∀ i ∈ todo, inst.name ≠ i.name :=
      fun i hi => ((List.pairwise_cons.mp hwf.once).1 i hi).1
    rw [List.length_cons, propagate, hfold]
    exact ih (h.step hnames hwf.head_args hturn) hwf.tail hfits hdiv.2

end Run

end Simulation

section Theorems

variable {block : List (DataInst D)}

theorem sim_start (hwf : WellFormed types block) (st : State R Flags) :
    Sim b types [] block block st st where
  file := rfl
  rest := rfl
  bits _ := rfl
  unset _ _ := rfl
  defined := nofun
  typed := nofun
  names := nofun
  args := nofun
  typed' := hwf.typed
  later := List.forall₂_same.mpr fun inst _ => .same inst
  flags _ _ _ _ _ _ _ := .refl _ _

variable [DecidableEq D]

/-- If every value is one of its type, constant propagation and the removal of dead code
after it leave what the block does to the guest, as long as no instruction with status that the
lists of the source miss becomes dead; the pass comes to its end unless there is a signed
division of 64 bits. -/
theorem constantPropagation_guest (hwf : WellFormed types block) {st : State R Flags}
    (hfits : ∀ n, (types n).Fits ((exec b.semantics block st).env n).bits) :
    (∀ block', constantPropagation block = some block' → KeepsStatus block' →
      (exec b.semantics (deadCodeElimination block') st).guest =
        (exec b.semantics block st).guest) ∧
    ((∀ inst ∈ block, inst.op ≠ .data (.signedDiv .w64)) →
      ∃ block', constantPropagation block = some block') := by
  refine ⟨fun block' hpass hstatus => ?_,
    fun hdiv => (sim_start hwf st).exists_propagate hwf hfits hdiv⟩
  rw [exec_deadCodeElimination hstatus]
  exact (sim_start hwf st).run hwf hfits rfl hpass

def exampleSum (r d : Fin 31) : List (DataInst Unit) :=
  [⟨0, .a64GetX r, []⟩,
    ⟨1, .data (.add .w64), [.inst 0, .imm (.u64 5), .imm (.u1 false)]⟩,
    ⟨2, .data (.add .w64), [.inst 1, .imm (.u64 7), .imm (.u1 false)]⟩,
    ⟨3, .a64SetX d, [.inst 2]⟩]

def exampleBehaviour : Behaviour Unit Unit where
  other _ _ := .plain 0
  read _ _ _ := 0
  effect _ _ _ := (.plain 0, ())
  call _ _ file _ := (file, ())

def exampleTypes (n : ℕ) : Ty := if n < 3 then .u64 else .other

example : (constantPropagation (exampleSum 0 1)).map deadCodeElimination =
    some [⟨0, .a64GetX 0, []⟩, ⟨1, .void, []⟩,
      ⟨2, .data (.add .w64), [.inst 0, .imm (.u64 12), .imm (.u1 false)]⟩,
      ⟨3, .a64SetX 1, [.inst 2]⟩] := by
  decide

theorem constantPropagation_guest_example :
    ∃ block', constantPropagation (exampleSum 0 1) = some block' ∧
      (exec exampleBehaviour.semantics (deadCodeElimination block')
          ⟨fun _ => .plain 0, fun _ => 30, ()⟩).guest =
        (exec exampleBehaviour.semantics (exampleSum 0 1)
          ⟨fun _ => .plain 0, fun _ => 30, ()⟩).guest := by
  have hwf : WellFormed exampleTypes (exampleSum 0 1) := by
    refine ⟨by unfold SingleAssignment; decide, by decide, ?_, ?_, ?_⟩
    · intro inst hinst
      simp only [exampleSum, List.mem_cons, List.not_mem_nil, or_false] at hinst
      rcases hinst with rfl | rfl | rfl | rfl
      · exact ⟨nofun, nofun, nofun⟩
      · exact ⟨fun _ hop _ => by cases hop; rfl,
          fun _ _ hop ht => by cases hop; cases ht; rfl, nofun⟩
      · exact ⟨fun _ hop _ => by cases hop; rfl,
          fun _ _ hop ht => by cases hop; cases ht; rfl, nofun⟩
      · exact ⟨nofun, nofun, nofun⟩
    · intro n
      simp [CarryOnce, exampleSum, isCarryOf]
    · intro before inst after hblock s hop
      have hinst : inst ∈ exampleSum 0 1 := hblock ▸ by simp
      left
      simp only [exampleSum, List.mem_cons, List.not_mem_nil, or_false] at hinst
      rcases hinst with rfl | rfl | rfl | rfl
      · cases hop
      · rfl
      · rfl
      · cases hop
  have hfits : ∀ n, (exampleTypes n).Fits ((exec exampleBehaviour.semantics (exampleSum 0 1)
      ⟨fun _ => .plain 0, fun _ => 30, ()⟩).env n).bits := by
    intro n
    rcases n with _ | _ | _ | n
    · unfold Ty.Fits; decide
    · unfold Ty.Fits; decide
    · unfold Ty.Fits; decide
    · have hother : exampleTypes (n + 1 + 1 + 1) = .other := if_neg (by omega)
      rw [hother, Ty.Fits]
      exact (BitVec.setWidth_eq _).trans (BitVec.setWidth_eq _)
  obtain ⟨hguest, hexists⟩ := constantPropagation_guest hwf hfits
  obtain ⟨block', hblock'⟩ := hexists (by decide)
  have hstatus : KeepsStatus block' := by
    cases hblock'
    unfold KeepsStatus
    decide
  exact ⟨block', hblock', hguest block' hblock' hstatus⟩

end Theorems

end Sober.Ir
