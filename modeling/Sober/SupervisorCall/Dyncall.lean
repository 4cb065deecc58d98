import Sober.Abi.VaList

/-! # The call library

What the supervisor call handler relies on: arguments are pushed one after the
other onto a virtual machine, and a call passes them by the System V
convention. The library itself is not part of the program.
-/
namespace Sober
open Machine Abi

structure Dyncall where
  Vm : Type
  reset : Vm → Vm
  argLongLong : Vm → Word → Vm
  argDouble : Vm → Word → Vm
  argPointer : Vm → Word → Vm
  /-- The machine state in which a call enters the callee. -/
  enter : Vm → HostEntry
  /-- The arguments pushed since the last reset. -/
  args : Vm → List (Kind × Word)
  /-- What registers and stack held before the call was prepared. -/
  residue : Vm → ArgState
  args_reset : ∀ vm, args (reset vm) = []
  args_argLongLong : ∀ vm w, args (argLongLong vm w) = args vm ++ [(.integer, w)]
  args_argDouble : ∀ vm w, args (argDouble vm w) = args vm ++ [(.floating, w)]
  args_argPointer : ∀ vm w, args (argPointer vm w) = args vm ++ [(.integer, w)]
  enter_args : ∀ vm, (enter vm).args = systemV.place (args vm) (residue vm)
  le_al : ∀ vm, min 8 (((args vm).map Prod.fst).count .floating) ≤ (enter vm).al

namespace Dyncall

/-- A machine that is just its argument list, entering over cleared registers. -/
def ofList : Dyncall where
  Vm := List (Kind × Word)
  reset _ := []
  argLongLong vm w := vm ++ [(.integer, w)]
  argDouble vm w := vm ++ [(.floating, w)]
  argPointer vm w := vm ++ [(.integer, w)]
  enter vm := ⟨systemV.place vm ⟨fun _ _ => 0, fun _ => 0⟩, 8⟩
  args vm := vm
  residue _ := ⟨fun _ _ => 0, fun _ => 0⟩
  args_reset _ := rfl
  args_argLongLong _ _ := rfl
  args_argDouble _ _ := rfl
  args_argPointer _ _ := rfl
  enter_args _ := rfl
  le_al _ := min_le_left _ _

variable (dc : Dyncall)

theorem args_foldl_argLongLong (f : ℕ → Word) (is : List ℕ) (vm : dc.Vm) :
    dc.args (is.foldl (fun vm i => dc.argLongLong vm (f i)) vm) =
      dc.args vm ++ is.map (fun i => (.integer, f i)) := by
  induction is generalizing vm with
  | nil => simp
  | cons i is ih => simp [ih, dc.args_argLongLong]

theorem args_foldl_argDouble (f : ℕ → Word) (is : List ℕ) (vm : dc.Vm) :
    dc.args (is.foldl (fun vm i => dc.argDouble vm (f i)) vm) =
      dc.args vm ++ is.map (fun i => (.floating, f i)) := by
  induction is generalizing vm with
  | nil => simp
  | cons i is ih => simp [ih, dc.args_argDouble]

/-- The callee finds the pushed arguments in order. -/
theorem read_enter (vm : dc.Vm) :
    systemV.read ((dc.args vm).map Prod.fst) (dc.enter vm).args = (dc.args vm).map Prod.snd := by
  rw [dc.enter_args, systemV.read_place]

end Dyncall
end Sober
