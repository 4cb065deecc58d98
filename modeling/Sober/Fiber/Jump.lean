import Sober.Fiber.Nesting
import Sober.Fiber.Steps
import Sober.Machine.Store

/-! # Non-local jumps of the guest

`setjmp` stores the registers that its own fiber scope saved. `longjmp` makes
them the registers that its scope restores, so that leaving the scope is the
jump; `x0` is set before, and no result is written over it. It is the value
itself, also when that is zero, which the guest cannot tell from the return of
`setjmp`.
-/
namespace Sober
open Machine Abi

namespace SavedRegisters

def toSlots (regs : SavedRegisters) (i : ℕ) : Word :=
  if h : i < 12 then regs.r ⟨i, h⟩
  else if i = 12 then regs.sp
  else if i = 13 then regs.pc
  else if h : i - 14 < 8 then regs.d ⟨i - 14, h⟩
  else 0

def ofSlots (values : ℕ → Word) : SavedRegisters where
  r i := values i
  sp := values 12
  pc := values 13
  d i := values (14 + i)

def slots : ℕ := 22

theorem ofSlots_toSlots {regs : SavedRegisters} {values : ℕ → Word}
    (h : ∀ i < slots, values i = regs.toSlots i) : ofSlots values = regs := by
  apply SavedRegisters.ext
  · funext i
    change values i = _
    rw [h i (by simp only [slots]; omega), toSlots, dif_pos i.isLt]
  · exact h 12 (by decide)
  · exact h 13 (by decide)
  · funext i
    change values (14 + i) = _
    rw [h (14 + i) (by simp only [slots]; omega), toSlots, dif_neg (by omega), if_neg (by omega),
      if_neg (by omega), dif_pos (by omega)]
    congr
    omega

/-- `*reinterpret_cast<SavedRegisters*>(ctx) = regs` -/
def store (ctx : Word) (regs : SavedRegisters) (m : Memory) : Memory :=
  storeSlots m ctx slots regs.toSlots

def load (ctx : Word) (m : Memory) : SavedRegisters := ofSlots (slot m ctx)

/-- What was stored is loaded as long as nothing is written there. -/
theorem load_of_store {ctx : Word} {regs : SavedRegisters} {m m' : Memory}
    (h : AgreeOn ctx slots (store ctx regs m) m') : load ctx m' = regs := by
  apply ofSlots_toSlots
  intro i hi
  rw [← h.slot_eq (by decide) hi, store, slot_storeSlots m ctx (by decide) _ hi]

end SavedRegisters

/-- The scope's own registers are stored, and zero is returned. -/
def setjmpImpl (ctx : Word) : NativeBody :=
  .callee (.getSaved fun regs => .memory (SavedRegisters.store ctx regs) fun _ => .done ⟨0, 0⟩) .ret

/-- The conversion of `value` to the register type keeps its sign. -/
def longjmpImpl (ctx : Word) (value : BitVec 32) : NativeBody :=
  .callee (.memory id fun m => .setSaved (SavedRegisters.load ctx m)
    (.setRegister 0 (value.signExtend 64) (.done ⟨0, 0⟩))) .ret

def setjmpTypes : FunctionTypes := .of .signedWord [.pointer]
def longjmpTypes : FunctionTypes := .of .none [.pointer, .signedWord]

structure HasJumps {dc : Dyncall} (env : Env dc.Vm) (trampolines : List Trampoline)
    (setjmpId longjmpId : BitVec 32) : Prop where
  setjmp : HasEntry env trampolines setjmpId setjmpTypes fun call => setjmpImpl (call.integer 0)
  longjmp : HasEntry env trampolines longjmpId longjmpTypes fun call =>
    longjmpImpl (call.integer 0) ((call.integer 1).setWidth 32)

section Jump
variable {dc : Dyncall} {env : Env dc.Vm} {setjmpId longjmpId : BitVec 32} {w : World dc.Vm}

/-- Neither the result nor the next turn of the loop touches the saved registers. -/
theorem getSavedRegisters_resumed (r : ReturnType) (before : JitState) (value : HostReturn)
    (w : World dc.Vm) :
    getSavedRegisters ({ w with jit := writeBack r before value w.jit }.resumed).jit =
      getSavedRegisters w.jit :=
  (writeBack_delivered r value before w.jit).getSavedRegisters_eq

/-- The guest is behind the supervisor call at `w`, with its callee-saved registers. -/
abbrev ReturnedTo (w w' : World dc.Vm) : Prop :=
  CalleeSavedEq { w.jit with pc := w.jit.pc + 4 } w'.jit

/-- `setjmp` returns zero and leaves the callee-saved registers in `ctx`. -/
theorem setjmp_returns (hjumps : HasJumps env w.trampolines setjmpId longjmpId)
    (hat : AtSupervisorCall w setjmpId) :
    (∃ w₁, SupervisorCalled env w w₁) ∧ ∀ w₁, SupervisorCalled env w w₁ →
      ReturnedTo w w₁ ∧ w₁.jit.getRegister 0 = 0 ∧
        w₁.mem = SavedRegisters.store (w.jit.getRegister 0)
          (getSavedRegisters { w.jit with pc := w.jit.pc + 4 }) w.mem := by
  obtain ⟨call, w₀, hargs, hjit, hmem, hcalled⟩ :=
    supervisorCalled_iff hjumps.setjmp hat (by decide) rfl
  have hctx : call.integer 0 = w.jit.getRegister 0 := (List.cons.inj hargs).1
  have hsaved : getSavedRegisters w₀.jit =
      getSavedRegisters { w.jit with pc := w.jit.pc + 4 } := by
    rw [hjit]
    rfl
  constructor
  · exact ⟨_, (hcalled _).mpr ⟨0, _, _, rfl, rfl⟩⟩
  · intro w₁ hw₁
    obtain ⟨n, value, w₂, hexec, rfl⟩ := (hcalled w₁).mp hw₁
    cases hexec
    refine ⟨.of_saved ?_, rfl, ?_⟩
    · rw [getSavedRegisters_resumed, getSavedRegisters_restore, hsaved]
    · rw [← hctx, ← hsaved, ← hmem]
      rfl

/-- `longjmp` makes the registers in `ctx` current and sets `x0` to the value. -/
theorem longjmp_jumps (hjumps : HasJumps env w.trampolines setjmpId longjmpId)
    (hat : AtSupervisorCall w longjmpId) :
    (∃ w₁, SupervisorCalled env w w₁) ∧ ∀ w₁, SupervisorCalled env w w₁ →
      getSavedRegisters w₁.jit = SavedRegisters.load (w.jit.getRegister 0) w.mem ∧
        w₁.jit.getRegister 0 = ((w.jit.getRegister 1).setWidth 32).signExtend 64 := by
  obtain ⟨call, w₀, hargs, -, hmem, hcalled⟩ :=
    supervisorCalled_iff hjumps.longjmp hat (by decide) rfl
  have hctx : call.integer 0 = w.jit.getRegister 0 := (List.cons.inj hargs).1
  have hvalue : call.integer 1 = w.jit.getRegister 1 :=
    (List.cons.inj (List.cons.inj hargs).2).1
  constructor
  · exact ⟨_, (hcalled _).mpr ⟨0, _, _, rfl, rfl⟩⟩
  · intro w₁ hw₁
    obtain ⟨n, value, w₂, hexec, rfl⟩ := (hcalled w₁).mp hw₁
    cases hexec
    constructor
    · rw [getSavedRegisters_resumed, getSavedRegisters_restore, ← hctx, ← hmem]
    · rw [← hvalue]
      rfl

theorem signExtend_ne_zero {v : BitVec 32} (hv : v ≠ 0) : v.signExtend 64 ≠ 0 := by
  intro h
  apply hv
  apply BitVec.eq_of_toInt_eq
  rw [← BitVec.toInt_signExtend_of_le (by decide : 32 ≤ 64), h]
  rfl

end Jump

/-- From every guest state at a call of `setjmp` the call returns zero, and
however the fiber goes on without writing to the context, a later call of
`longjmp` continues behind the `setjmp` call with the callee-saved registers of
that call and the value in `x0`, which is zero exactly for the value zero. -/
theorem longjmp_returns_to_setjmp (dc : Dyncall) (env : Env dc.Vm)
    (setjmpId longjmpId : BitVec 32) (w : World dc.Vm)
    (hjumps : HasJumps env w.trampolines setjmpId longjmpId)
    (hat : AtSupervisorCall w setjmpId) :
    (∃ w₁, SupervisorCalled env w w₁) ∧ ∀ w₁, SupervisorCalled env w w₁ →
      ReturnedTo w w₁ ∧ w₁.jit.getRegister 0 = 0 ∧
      ∀ (w₂ : World dc.Vm) (v : BitVec 32), FiberSteps env w₁ w₂ →
        AgreeOn (w.jit.getRegister 0) SavedRegisters.slots w₁.mem w₂.mem →
        AtSupervisorCall w₂ longjmpId → w₂.jit.getRegister 0 = w.jit.getRegister 0 →
        (w₂.jit.getRegister 1).setWidth 32 = v →
        (∃ w₃, SupervisorCalled env w₂ w₃) ∧ ∀ w₃, SupervisorCalled env w₂ w₃ →
          ReturnedTo w w₃ ∧ w₃.jit.getRegister 0 = v.signExtend 64 ∧
            (v ≠ 0 → w₃.jit.getRegister 0 ≠ 0) ∧ (v = 0 → w₃.jit.getRegister 0 = 0) := by
  obtain ⟨hset, hreturns⟩ := setjmp_returns hjumps hat
  refine ⟨hset, fun w₁ hcalled => ?_⟩
  obtain ⟨hreturned, hzero, hmem⟩ := hreturns w₁ hcalled
  refine ⟨hreturned, hzero, ?_⟩
  rintro w₂ v hsteps hagree hat₂ hctx hv
  obtain ⟨w₀, hstep₁, hstep₂⟩ := hcalled
  have htrampolines := (FiberSteps.control (.head hstep₁ (.head hstep₂ hsteps)) hat.executing).2
  obtain ⟨hlong, hjumped⟩ := longjmp_jumps (htrampolines ▸ hjumps) hat₂
  refine ⟨hlong, fun w₃ hcalled₃ => ?_⟩
  obtain ⟨hsaved, hx0⟩ := hjumped w₃ hcalled₃
  rw [hmem, ← hctx] at hagree
  rw [SavedRegisters.load_of_store hagree] at hsaved
  rw [hv] at hx0
  refine ⟨.of_saved hsaved, hx0, fun hne => ?_, fun hzero => ?_⟩
  · rw [hx0]
    exact signExtend_ne_zero hne
  · rw [hx0, hzero]
    rfl

def jumpTrampolines : List Trampoline :=
  [⟨"setjmp", 0, 0x5000, setjmpTypes, false, true, 0x2004⟩,
    ⟨"longjmp", 1, 0x5010, longjmpTypes, false, true, 0x200C⟩]

/-- The supervisor calls of the two entries with another instruction between them. -/
def jumpMemory : Memory := fun a =>
  if a = 0x2004 then 0x01 else if a = 0x200C then 0x21
  else if a = 0x2005 ∨ a = 0x200D then 0x02
  else if a = 0x2007 ∨ a = 0x200F then 0xD4 else 0

/-- The instruction between them overwrites `x19` and passes the context and a value. -/
def jumpEnv (value : Word) : Env Dyncall.ofList.Vm where
  cpu _ j m :=
    some ({ ((j.setRegister 0 0x8000).setRegister 1 value).setRegister 19 99 with
      pc := j.pc + 4 }, m)
  native call :=
    if call.func = 0x5000 then setjmpImpl (call.integer 0)
    else longjmpImpl (call.integer 0) ((call.integer 1).setWidth 32)
  host _ := ⟨⟨fun _ _ => 0, fun _ => 0⟩, 0⟩
  frame _ := .cleared

/-- The guest at the call of `setjmp` with the context at `0x8000`. -/
def jumpWorld : World Dyncall.ofList.Vm :=
  { World.fresh jumpTrampolines 0x2004 with
    mem := jumpMemory
    isExecuting := true
    jit := (JitState.numbered 0x2004).setRegister 0 0x8000 }

theorem hasJumps_jumpEnv (value : Word) :
    HasJumps (jumpEnv value) jumpTrampolines 0x10 0x11 where
  setjmp := by
    refine ⟨_, rfl, rfl, rfl, rfl, fun call hcall => ?_⟩
    exact if_pos hcall
  longjmp := by
    refine ⟨_, rfl, rfl, rfl, rfl, fun call hcall => ?_⟩
    apply if_neg
    rw [hcall]
    decide

/-- The guest calls `setjmp`, goes on to the call of `longjmp`, and makes it. -/
theorem exists_jump {value : Word} (h : value = 0 ∨ value = 7) :
    ∃ w₁, SupervisorCalled (jumpEnv value) jumpWorld w₁ ∧
    ∃ w₂, FiberSteps (jumpEnv value) w₁ w₂ ∧ AtSupervisorCall w₂ 0x11 ∧ w₂.mem = w₁.mem ∧
    w₂.jit.getRegister 0 = 0x8000 ∧ w₂.jit.getRegister 1 = value ∧
    ∃ w₃, SupervisorCalled (jumpEnv value) w₂ w₃ ∧
      w₃.jit.getRegister 0 = (value.setWidth 32).signExtend 64 := by
  rcases h with rfl | rfl
  all_goals
    refine ⟨_, ⟨_, .guest (n := 0) rfl rfl, .handler (n := 0) rfl rfl⟩, ?_⟩
    refine ⟨_, .single (.guest (n := 0) rfl rfl), ?_⟩
    refine ⟨⟨rfl, rfl, rfl⟩, rfl, rfl, rfl, ?_⟩
    refine ⟨_, ⟨_, .guest (n := 0) rfl rfl, .handler (n := 0) rfl rfl⟩, ?_⟩
    rfl

/-- A jump with the value seven. -/
theorem longjmp_returns_to_setjmp_seven : ∃ w₁ w₂ w₃,
    SupervisorCalled (jumpEnv 7) jumpWorld w₁ ∧ FiberSteps (jumpEnv 7) w₁ w₂ ∧
    SupervisorCalled (jumpEnv 7) w₂ w₃ ∧ ReturnedTo jumpWorld w₃ ∧ w₃.jit.getRegister 0 = 7 := by
  obtain ⟨w₁, hset, w₂, hsteps, hat, hmem, hctx, hvalue, w₃, hlong, -⟩ :=
    exists_jump (.inr rfl)
  obtain ⟨-, hreturns⟩ := longjmp_returns_to_setjmp .ofList (jumpEnv 7) 0x10 0x11 jumpWorld
    (hasJumps_jumpEnv 7) ⟨rfl, rfl, rfl⟩
  obtain ⟨-, -, hjump⟩ := hreturns w₁ hset
  obtain ⟨-, hjumped⟩ := hjump w₂ 7 hsteps (hmem ▸ .refl _ _ _) hat hctx (by rw [hvalue]; rfl)
  obtain ⟨hreturned, hx0, -⟩ := hjumped w₃ hlong
  exact ⟨w₁, w₂, w₃, hset, hsteps, hlong, hreturned, hx0⟩

/-- A jump with the value zero delivers zero, as the return of `setjmp` did. -/
theorem longjmp_delivers_zero : ∃ w₁ w₂ w₃,
    SupervisorCalled (jumpEnv 0) jumpWorld w₁ ∧ w₁.jit.getRegister 0 = 0 ∧
    FiberSteps (jumpEnv 0) w₁ w₂ ∧ AtSupervisorCall w₂ 0x11 ∧ w₂.mem = w₁.mem ∧
    w₂.jit.getRegister 0 = jumpWorld.jit.getRegister 0 ∧ w₂.jit.getRegister 1 = 0 ∧
    SupervisorCalled (jumpEnv 0) w₂ w₃ ∧ w₃.jit.getRegister 0 = 0 := by
  obtain ⟨w₁, hset, w₂, hsteps, hat, hmem, hctx, hvalue, w₃, hlong, hx0⟩ :=
    exists_jump (.inl rfl)
  obtain ⟨-, hzero, -⟩ := (setjmp_returns (hasJumps_jumpEnv 0) ⟨rfl, rfl, rfl⟩).2 w₁ hset
  exact ⟨w₁, w₂, w₃, hset, hzero, hsteps, hat, hmem, hctx, hvalue, hlong, hx0⟩

end Sober
