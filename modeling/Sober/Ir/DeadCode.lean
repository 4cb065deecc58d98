import Sober.Ir.GetSetElimination

/-!
# Dead code elimination

`DeadCodeElimination` goes over a block backwards and invalidates the instructions whose
result is not used and that have no side effects. The two passes together, as `GetBlock`
runs them, leave what a block does to the guest.
-/

namespace Sober.Ir

variable {D R E : Type}

section Pass

/-- `HasUses`: the number of uses is kept up to date by `Use` and `UndoUse`. -/
def hasUses (name : ℕ) (block : List (Inst D)) : Bool :=
  block.any (·.uses name)

/-- The loop, with the instructions still to come in the order it takes them. -/
def eliminateDead : List (Inst D) → List (Inst D) → List (Inst D)
  | [], done => done
  | inst :: todo, done =>
    if !hasUses inst.name (todo.reverse ++ inst :: done) && !inst.op.mayHaveSideEffects then
      eliminateDead todo (inst.invalidate :: done)
    else
      eliminateDead todo (inst :: done)

def deadCodeElimination (block : List (Inst D)) : List (Inst D) :=
  eliminateDead block.reverse []

/-- The switches of the user's configuration that these passes depend on. -/
structure OptimizationConfig where
  getSetElimination : Bool
  checkHaltOnMemoryAccess : Bool

def OptimizationConfig.optimizes (conf : OptimizationConfig) : Bool :=
  conf.getSetElimination && !conf.checkHaltOnMemoryAccess

/-- The part of `GetBlock` between translation and constant propagation. -/
def OptimizationConfig.eliminate (conf : OptimizationConfig) (block : List (Inst D)) :
    List (Inst D) :=
  if conf.optimizes then
    deadCodeElimination (a64GetSetElimination block)
  else
    block

end Pass

section Correctness

variable [Inhabited E] {sem : Semantics D R E}

/-- What a block leaves for the code after it: results of instructions are local to it. -/
def State.guest (st : State R E) : (Slot → Word) × R := (st.file, st.rest)

/-- Two blocks do the same to the guest, and to have it the second one only needs the values
of the names that it uses itself. -/
def Replaces (sem : Semantics D R E) (block' block : List (Inst D)) : Prop :=
  ∀ st st' : State R E, st'.guest = st.guest →
    (∀ name, hasUses name block' = true → st'.env name = st.env name) →
    (exec sem block' st').guest = (exec sem block st).guest

theorem uses_of_mem {inst : Inst D} {name : ℕ} (h : .inst name ∈ inst.args) :
    inst.uses name = true :=
  List.contains_iff_mem.mpr h

theorem Inst.exec_guest {inst : Inst D} (hpure : inst.op.mayHaveSideEffects = false)
    (hlisted : inst.op.isUnlisted = false) (st : State R E) :
    (inst.exec sem st).guest = st.guest := by
  obtain ⟨hfile, hrest⟩ : (inst.op.apply sem (inst.args.map (Arg.eval st.env)) st.file
      st.rest).file = st.file ∧ _ := Opcode.apply_of_pure hpure hlisted
  exact Prod.ext hfile hrest

/-- An instruction depends on the values of its arguments alone. -/
theorem map_eval_congr {inst : Inst D} {env env' : ℕ → Datum E}
    (h : ∀ name, inst.uses name = true → env' name = env name) :
    inst.args.map (Arg.eval env') = inst.args.map (Arg.eval env) := by
  refine List.map_congr_left fun arg harg => ?_
  cases arg with
  | imm value => rfl
  | inst name => exact h name (uses_of_mem harg)

namespace Replaces

variable {block block' : List (Inst D)} {inst : Inst D}

theorem keep (h : Replaces sem block' block) : Replaces sem (inst :: block') (inst :: block) := by
  intro st st' hguest henv
  obtain ⟨hfile, hrest⟩ := Prod.mk.inj hguest
  have hargs : inst.args.map (Arg.eval st'.env) = inst.args.map (Arg.eval st.env) :=
    map_eval_congr fun name huse => henv name (by simp [hasUses, huse])
  rw [exec_cons, exec_cons]
  refine h _ _ ?_ fun name huse => ?_
  · simp only [Inst.exec, State.guest, hargs, hfile, hrest]
  · simp only [Inst.exec, hargs, hfile, hrest]
    have hsame : st'.env name = st.env name := by
      refine henv name ?_
      rw [hasUses, List.any_cons, ← hasUses, huse, Bool.or_true]
    cases (inst.op.apply sem (inst.args.map (Arg.eval st.env)) st.file st.rest).result with
    | none => exact hsame
    | some value =>
      simp only [Option.elim, Function.update_apply, hsame]

theorem drop (h : Replaces sem block' block) (huses : hasUses inst.name block' = false)
    (hpure : inst.op.mayHaveSideEffects = false) (hlisted : inst.op.isUnlisted = false) :
    Replaces sem (inst.invalidate :: block') (inst :: block) := by
  intro st st' hguest henv
  rw [exec_cons, exec_cons]
  refine h _ _ ?_ fun name huse => ?_
  · rw [Inst.exec_guest hpure hlisted]
    exact hguest
  · have hne : name ≠ inst.name := fun heq => by rw [heq, huses] at huse; cases huse
    rw [Inst.exec_env hne]
    exact henv name huse

end Replaces

theorem hasUses_append (name : ℕ) (block block' : List (Inst D)) :
    hasUses name (block ++ block') = (hasUses name block || hasUses name block') :=
  List.any_append

theorem hasUses_cons (name : ℕ) (inst : Inst D) (block : List (Inst D)) :
    hasUses name (inst :: block) = (inst.uses name || hasUses name block) :=
  List.any_cons

/-- The pass takes uses away and adds none. -/
theorem hasUses_of_eliminateDead {name : ℕ} {todo done : List (Inst D)}
    (h : hasUses name (eliminateDead todo done) = true) :
    hasUses name (todo.reverse ++ done) = true := by
  induction todo generalizing done with
  | nil => exact h
  | cons inst todo ih =>
    rw [List.reverse_cons, List.append_assoc, List.singleton_append]
    rw [eliminateDead] at h
    split_ifs at h
    · have hrest := ih h
      rw [hasUses_append, hasUses_cons] at hrest ⊢
      rcases Bool.or_eq_true_iff.mp hrest with htodo | hdone
      · rw [htodo, Bool.true_or]
      · have hdone' : hasUses name done = true := hdone
        rw [hdone', Bool.or_true, Bool.or_true]
    · exact ih h

/-- No instruction with status that the lists of the source miss loses its last use. -/
def KeepsStatus (block : List (Inst D)) : Prop :=
  ∀ inst ∈ block, inst.op.isUnlisted = true →
    hasUses inst.name (deadCodeElimination block) = true

theorem keepsStatus_of_listed {block : List (Inst D)}
    (h : ∀ inst ∈ block, inst.op.isUnlisted = false) : KeepsStatus block := by
  intro inst hinst hunlisted
  rw [h inst hinst] at hunlisted
  cases hunlisted

theorem eliminateDead_replaces {todo done block : List (Inst D)} (h : Replaces sem done block)
    (hstatus : ∀ inst ∈ todo, inst.op.isUnlisted = true →
      hasUses inst.name (eliminateDead todo done) = true) :
    Replaces sem (eliminateDead todo done) (todo.reverse ++ block) := by
  induction todo generalizing done block with
  | nil => exact h
  | cons inst todo ih =>
    rw [List.forall_mem_cons] at hstatus
    obtain ⟨hinst, hrest⟩ := hstatus
    rw [List.reverse_cons, List.append_assoc, List.singleton_append]
    rw [eliminateDead] at hinst hrest ⊢
    split_ifs with hdead
    · rw [if_pos hdead] at hinst hrest
      simp only [Bool.and_eq_true, Bool.not_eq_true'] at hdead
      -- it has no uses at all, in particular none after it and none in the end
      have hnone := hdead.1
      rw [hasUses_append, hasUses_cons, Bool.or_eq_false_iff, Bool.or_eq_false_iff] at hnone
      refine ih (h.drop hnone.2.2 hdead.2 (Bool.eq_false_iff.mpr fun hunlisted => ?_)) hrest
      have hused := hasUses_of_eliminateDead (hinst hunlisted)
      rw [hasUses_append, hasUses_cons, hnone.1, hnone.2.2] at hused
      cases hused
    · rw [if_neg hdead] at hrest
      exact ih h.keep hrest

theorem exec_deadCodeElimination {block : List (Inst D)} (hstatus : KeepsStatus block)
    (st : State R E) :
    (exec sem (deadCodeElimination block) st).guest = (exec sem block st).guest := by
  have hnil : Replaces sem ([] : List (Inst D)) [] := fun _ _ hguest _ => hguest
  have hreplaces : Replaces sem (deadCodeElimination block) (block.reverse.reverse ++ []) :=
    eliminateDead_replaces hnil fun inst hinst => hstatus inst (List.mem_reverse.mp hinst)
  rw [List.reverse_reverse, List.append_nil] at hreplaces
  exact hreplaces st st rfl fun _ _ => rfl

theorem deadCodeElimination_file {block : List (Inst D)} (hstatus : KeepsStatus block)
    (st : State R E) (s : Slot) :
    (exec sem (deadCodeElimination block) st).file s = (exec sem block st).file s :=
  congrFun (congrArg Prod.fst (exec_deadCodeElimination hstatus st)) s

/-- Whatever the configuration, a block does the same to the registers and to everything
else after these passes as before, from every state, as long as no instruction with status
that the lists of the source miss becomes dead. -/
theorem OptimizationConfig.eliminate_guest (conf : OptimizationConfig) {block : List (Inst D)}
    (hssa : SingleAssignment block) (hcalls : CallsLast block) {st : State R E}
    (hback : ReadsBack sem block st)
    (hstatus : conf.optimizes = true → KeepsStatus (a64GetSetElimination block)) :
    (exec sem (conf.eliminate block) st).guest = (exec sem block st).guest := by
  unfold eliminate
  split_ifs with hconf
  · rw [exec_deadCodeElimination (hstatus hconf), exec_a64GetSetElimination hssa hcalls hback]
  · rfl

/-- Sets a register twice, reads it in between, multiplies with `FMULX` and calls the
supervisor. -/
def exampleBlock : List (Inst Unit) :=
  [⟨0, .a64GetX 0, []⟩, ⟨1, .a64SetX 1, [.inst 0]⟩, ⟨2, .a64GetX 1, []⟩,
    ⟨3, .a64SetX 2, [.inst 2]⟩, ⟨4, .a64SetX 1, [.imm (.u64 5)]⟩, ⟨5, .a64GetQ (Fin.last 31), []⟩,
    ⟨6, .status (.fpMulX .w32), [.inst 5, .inst 5]⟩, ⟨7, .a64SetQ (Fin.last 31), [.inst 6]⟩,
    ⟨8, .a64SetPC, [.imm (.u64 0x1000)]⟩, ⟨9, .a64CallSupervisor, []⟩]

def exampleSemantics : Semantics Unit ℕ Unit where
  data _ _ := .plain 0
  read _ _ _ := .plain 0
  effect _ vals _ := (.plain 0, (bitsOf vals 0).toNat)
  call _ _ file pc := (Function.update file (.reg 0) (file (.reg 1)), pc + 4)

theorem eliminate_guest_example :
    (exec exampleSemantics (OptimizationConfig.eliminate ⟨true, false⟩ exampleBlock)
        ⟨fun _ => .plain 0, fun _ => 7, 0⟩).guest =
      (exec exampleSemantics exampleBlock ⟨fun _ => .plain 0, fun _ => 7, 0⟩).guest := by
  have hssa : SingleAssignment exampleBlock := by
    unfold SingleAssignment
    decide
  have hcalls : CallsLast exampleBlock := by
    unfold CallsLast
    decide
  have hback : ReadsBack exampleSemantics exampleBlock ⟨fun _ => .plain 0, fun _ => 7, 0⟩ := by
    refine ⟨?_, ?_, ?_, ?_, ?_, ?_, ?_, ?_, ?_, ?_, trivial⟩ <;> rintro _ _ ⟨⟩ _ <;> decide
  have hstatus : KeepsStatus (a64GetSetElimination exampleBlock) := by
    unfold KeepsStatus
    decide
  exact OptimizationConfig.eliminate_guest ⟨true, false⟩ hssa hcalls hback fun _ => hstatus

example : OptimizationConfig.eliminate ⟨true, false⟩ exampleBlock =
    [⟨0, .a64GetX 0, []⟩, ⟨2, .identity, [.inst 0]⟩, ⟨3, .a64SetX 2, [.inst 2]⟩,
      ⟨4, .a64SetX 1, [.imm (.u64 5)]⟩, ⟨5, .a64GetQ (Fin.last 31), []⟩,
      ⟨6, .status (.fpMulX .w32), [.inst 5, .inst 5]⟩, ⟨7, .a64SetQ (Fin.last 31), [.inst 6]⟩,
      ⟨8, .a64SetPC, [.imm (.u64 0x1000)]⟩, ⟨9, .a64CallSupervisor, []⟩] := by
  decide

end Correctness

section StatusFlags

variable [Inhabited E] {sem : Semantics D R E}

/-- What `MSR NZCV, Xs` and `MRS Xd, NZCV` one after the other are translated to. -/
def msrMrsBlock (source target : Fin 31) : List (Inst D) :=
  [⟨0, .a64GetW source, []⟩, ⟨1, .a64SetNZCVRaw, [.inst 0]⟩, ⟨2, .a64GetNZCVRaw, []⟩,
    ⟨3, .a64SetW target, [.inst 2]⟩]

theorem a64GetSetElimination_msrMrsBlock (source target : Fin 31) :
    a64GetSetElimination (msrMrsBlock source target : List (Inst D)) =
      [⟨0, .a64GetW source, []⟩, ⟨1, .a64SetNZCVRaw, [.inst 0]⟩, ⟨2, .identity, [.inst 0]⟩,
        ⟨3, .a64SetW target, [.inst 2]⟩] := by
  by_cases h : target = source <;>
    simp [a64GetSetElimination, msrMrsBlock, Elimination.step, Elimination.doGet,
      Elimination.doSet, Elimination.start, Opcode.gets, Opcode.sets, RegisterInfo.empty,
      Inst.arg, Inst.replaceUsesWith, h]

/-- The flags are the upper four bits of what is written, and a block that reads them back
has the other bits clear; after the passes it has them as they were written. So the values
given to `SetNZCVRaw` have to be clear there. -/
theorem msrMrsBlock_eliminate (source target : Fin 31) (st : State R E) :
    let value := (st.file (.reg source)).setWidth 32
    (exec sem (msrMrsBlock source target) st).file (.reg target) =
        (value &&& 0xF0000000#32).setWidth 128 ∧
      (exec sem (OptimizationConfig.eliminate ⟨true, false⟩ (msrMrsBlock source target))
        st).file (.reg target) = value.setWidth 128 := by
  intro value
  constructor
  · simp [msrMrsBlock, Inst.exec, Opcode.apply, TrackingType.load, TrackingType.store, bitsOf,
      Arg.eval, Datum.plain, fromX64_toX64, value]
  · have hstatus : KeepsStatus (a64GetSetElimination (msrMrsBlock source target : List (Inst D))) :=
      keepsStatus_of_listed (by simp [a64GetSetElimination_msrMrsBlock, Opcode.isUnlisted])
    have hfile : (exec sem (OptimizationConfig.eliminate ⟨true, false⟩
        (msrMrsBlock source target)) st).file (.reg target) = _ :=
      deadCodeElimination_file hstatus st (.reg target)
    rw [hfile, a64GetSetElimination_msrMrsBlock]
    simp [Inst.exec, Opcode.apply, TrackingType.load, TrackingType.store, bitsOf,
      Arg.eval, Datum.plain, value]

end StatusFlags

section FloatStatus

variable [Inhabited E] {sem : Semantics D R E}

/-- What `FMULX Dd, Dn, Dm` and `FMOV Dd, XZR` one after the other are translated to, with
`VectorGetElement64` and `ZeroExtendLongToQuad`. -/
def fmulxFmovBlock (getElement zeroExtend : D) (d n m : Fin 32) : List (Inst D) :=
  [⟨0, .a64GetQ n, []⟩, ⟨1, .data getElement, [.inst 0, .imm (.u8 0)]⟩, ⟨2, .a64GetQ m, []⟩,
    ⟨3, .data getElement, [.inst 2, .imm (.u8 0)]⟩,
    ⟨4, .status (.fpMulX .w64), [.inst 1, .inst 3]⟩, ⟨5, .data zeroExtend, [.inst 4]⟩,
    ⟨6, .a64SetQ d, [.inst 5]⟩, ⟨7, .data zeroExtend, [.imm (.u64 0)]⟩,
    ⟨8, .a64SetQ d, [.inst 7]⟩]

theorem a64GetSetElimination_fmulxFmovBlock (getElement zeroExtend : D) (d n m : Fin 32) :
    a64GetSetElimination (fmulxFmovBlock getElement zeroExtend d n m) =
      [⟨0, .a64GetQ n, []⟩, ⟨1, .data getElement, [.inst 0, .imm (.u8 0)]⟩,
        if m = n then ⟨2, .identity, [.inst 0]⟩ else ⟨2, .a64GetQ m, []⟩,
        ⟨3, .data getElement, [.inst 2, .imm (.u8 0)]⟩,
        ⟨4, .status (.fpMulX .w64), [.inst 1, .inst 3]⟩, ⟨5, .data zeroExtend, [.inst 4]⟩,
        ⟨7, .data zeroExtend, [.imm (.u64 0)]⟩, ⟨8, .a64SetQ d, [.inst 7]⟩] := by
  by_cases h : m = n <;>
  · simp [a64GetSetElimination, fmulxFmovBlock, Elimination.step, Elimination.doGet,
      Elimination.doSet, Elimination.doOther, Elimination.start, Opcode.gets, Opcode.sets,
      Opcode.forgets, Opcode.readsFromCoreRegister, Opcode.writesToCoreRegister,
      RegisterInfo.empty, Inst.arg, Inst.replaceUsesWith, Function.update_apply,
      apply_ite RegisterInfo.lastSetInstruction, h]
    rfl

/-- The product is not used after the passes, and they take `FPMulX64` for an instruction
without side effects: what it does to the FPSR is lost. -/
theorem fmulxFmovBlock_loses_status (getElement zeroExtend : D) (d n m : Fin 32)
    (st : State R E) :
    let element (v : Fin 32) := sem.data getElement [.plain (st.file (.vec v)), .plain 0]
    (exec sem (fmulxFmovBlock getElement zeroExtend d n m) st).rest =
        (sem.effect (.status (.fpMulX .w64)) [element n, element m] st.rest).2 ∧
      (exec sem (OptimizationConfig.eliminate ⟨true, false⟩
        (fmulxFmovBlock getElement zeroExtend d n m)) st).rest = st.rest := by
  intro element
  constructor
  · rfl
  · have hblock : OptimizationConfig.eliminate ⟨true, false⟩
        (fmulxFmovBlock getElement zeroExtend d n m) =
        deadCodeElimination (a64GetSetElimination _) := rfl
    rw [hblock, a64GetSetElimination_fmulxFmovBlock]
    split_ifs <;> rfl

end FloatStatus

end Sober.Ir
