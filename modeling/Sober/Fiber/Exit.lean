import Sober.Fiber.Control

/-! # How a fiber ends

The loop stops when the JIT reports the exit, and the JIT reports it right after
a YIELD, wherever that YIELD is. A fiber therefore ends at the exit stub as long
as the guest executes no other YIELD.
-/
namespace Sober
open Machine Abi

theorem EndsInYield.of_append {Vm : Type} {start more : List (Word × BitVec 32)} {w : World Vm}
    (h : EndsInYield (start ++ more) w) : EndsInYield start w := by
  rcases h with ⟨before, pc, h⟩
  exact ⟨more ++ before, pc, by rw [h, List.append_assoc start]⟩

section Exit
variable {dc : Dyncall} {env : Env dc.Vm}

/-- The last instruction of a loop that returns is a YIELD of its own turn. -/
theorem executionLoop_endsInYield (n : ℕ) {w w' : World dc.Vm}
    (h : executionLoop env n w = .ok w') (hhalt : w.haltReason = 0) :
    EndsInYield w.executed w' := by
  induction n generalizing w with
  | zero => cases h
  | succ n ih =>
    rcases executionLoop_succ h with ⟨reason, w₁, hj, ⟨-, w₂, hh, hrest⟩ | ⟨hexit, rfl⟩⟩
    · have hcalm := handleCallSvc_calm (executionLoop_calm n) hh
      rcases jitRun_control (executionLoop_calm n) n hj with ⟨-, -, hidle, ⟨more, htrace⟩, -⟩
      rcases hcalm.idle hidle with ⟨hidle₂, more₂, htrace₂⟩
      have hend := ih hrest hidle₂.haltReason
      rw [htrace₂, htrace] at hend
      exact hend.of_append.of_append
    · rcases jitRun_control (executionLoop_calm n) n hj with ⟨-, -, -, -, hend⟩
      exact hend hhalt hexit

/-- A fiber in whose run every executed YIELD is the one of the exit stub
returns only after the guest has executed the stub, as its last instruction. -/
theorem fiberRun_exits_at_stub (n : ℕ) (func address : Word) (w w' : World dc.Vm)
    (hhalt : w.haltReason = 0)
    (h : fiberRun (executionLoop env n) func address w = .ok w')
    (hyield : ∀ p ∈ w'.executed.drop w.executed.length,
      p.2 = encodeYield → p.1 = w.guestExit) :
    ∃ before, w'.executed = w.executed ++ before ++ [(w.guestExit, encodeYield)] := by
  rw [fiberRun] at h
  split_ifs at h
  rcases executionLoop_endsInYield n h hhalt with ⟨before, pc, htrace⟩
  have hmem : (pc, encodeYield) ∈ w'.executed.drop w.executed.length := by
    rw [htrace, List.append_assoc, List.drop_left]
    simp
  have hpc : pc = w.guestExit := hyield _ hmem rfl
  rw [← hpc]
  exact ⟨before, htrace⟩

end Exit

/-- Instructions at `0x4000` and at the exit stub at `0x3000`, both YIELD. -/
def yieldMemory : Memory := fun a =>
  if a = 0x3000 ∨ a = 0x4000 then 0x3F else if a = 0x3001 ∨ a = 0x4001 then 0x20
  else if a = 0x3002 ∨ a = 0x4002 then 0x03 else if a = 0x3003 ∨ a = 0x4003 then 0xD5 else 0

def returningEnv : Env Dyncall.ofList.Vm where
  cpu _ j m := some ({ j with pc := j.getRegister 30 }, m)
  native _ := .abort
  host _ := ⟨⟨fun _ _ => 0, fun _ => 0⟩, 0⟩
  frame _ := .cleared

theorem fiberRun_exits_at_stub_returning :
    ∃ w', fiberRun (executionLoop returningEnv 4) 0 0x4004
        { World.fresh [] 0 with mem := yieldMemory } = .ok w' ∧
      ∃ before, w'.executed = [] ++ before ++ [(0x3000, encodeYield)] := by
  have hrun : ∃ w', fiberRun (executionLoop returningEnv 4) 0 0x4004
        { World.fresh [] 0 with mem := yieldMemory } = .ok w' ∧
      w'.executed = [(0x4004, 0), (0x3000, encodeYield)] := ⟨_, rfl, rfl⟩
  rcases hrun with ⟨w', hrun, htrace⟩
  refine ⟨w', hrun, fiberRun_exits_at_stub 4 0 0x4004
    { World.fresh [] 0 with mem := yieldMemory } w' rfl hrun ?_⟩
  rw [htrace]
  intro p hp hyield
  rcases List.mem_cons.mp hp with rfl | hp
  · cases hyield
  · rw [List.mem_singleton.mp hp]
    rfl

/-- A routine that starts with a YIELD: its fiber returns and the guest has not
executed the exit stub. -/
theorem fiberRun_exits_early :
    ∃ w', fiberRun (executionLoop returningEnv 4) 0 0x4000
        { World.fresh [] 0 with mem := yieldMemory } = .ok w' ∧
      w'.guestExit = 0x3000 ∧ w'.executed = [(0x4000, encodeYield)] := by
  exact ⟨_, rfl, rfl, rfl⟩

end Sober
