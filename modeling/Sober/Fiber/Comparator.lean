import Sober.Fiber.Invariance
import Sober.Fiber.Nesting
import Sober.Fiber.Steps
import Sober.Machine.Store
import Sober.Symbols.Callers

/-! # Comparators of nested sorts and searches

`qsort` and `bsearch` of the guest run the function of the host library with a
lambda that starts the guest comparator. The lambda captures nothing: it reads
the comparator from a thread-local variable, one for each function, that the
call sets on entry and that no call restores. So the variable always holds the
comparator of the last call of its function, and a comparison runs the
comparator of its own call as long as the calls nested in it pass the same one.
-/
namespace Sober
open Machine Abi

section RunsAt
variable {Vm : Type} (run : Word → World Vm → Except Fault (World Vm))

/-- The body comes to run the routine at `address`, in the state `w'`. -/
def FiberBody.RunsAt : FiberBody → SavedRegisters → World Vm → Word → World Vm → Prop
  | .done _, _, _, _, _ => False
  | .memory f next, saved, w, address, w' =>
    (next w.mem).RunsAt saved { w with mem := f w.mem } address w'
  | .setRegister index value next, saved, w, address, w' =>
    next.RunsAt saved { w with jit := w.jit.setRegister index value } address w'
  | .setVectorFirst index value next, saved, w, address, w' =>
    next.RunsAt saved { w with jit := w.jit.setVectorFirst index value } address w'
  | .getRegister index next, saved, w, address, w' =>
    (next (w.jit.getRegister index)).RunsAt saved w address w'
  | .getSaved next, saved, w, address, w' => (next saved).RunsAt saved w address w'
  | .setSaved regs next, _, w, address, w' => next.RunsAt regs w address w'
  | .run routine next, saved, w, address, w' =>
    (routine = address ∧ w = w') ∨
      ∃ w₁, run routine w = .ok w₁ ∧ next.RunsAt saved w₁ address w'
  | .callee inner next, saved, w, address, w' =>
    inner.RunsAt (getSavedRegisters w.jit) w address w' ∨
      ∃ value regs w₁, inner.exec run (getSavedRegisters w.jit) w = .ok (value, regs, w₁) ∧
        (next value).RunsAt saved { w₁ with jit := restoreSavedRegisters regs w₁.jit } address w'

def NativeBody.RunsAt : NativeBody → World Vm → Word → World Vm → Prop
  | .ret _, _, _, _ => False
  | .abort, _, _, _ => False
  | .memory f next, w, address, w' => (next w.mem).RunsAt { w with mem := f w.mem } address w'
  | .callee inner next, w, address, w' =>
    inner.RunsAt run (getSavedRegisters w.jit) w address w' ∨
      ∃ value regs w₁, inner.exec run (getSavedRegisters w.jit) w = .ok (value, regs, w₁) ∧
        (next value).RunsAt { w₁ with jit := restoreSavedRegisters regs w₁.jit } address w'

end RunsAt

/-- What a function of the host library does here: it works on memory and has
pairs of elements compared. -/
inductive HostSort where
  | ret (value : HostReturn)
  | memory (f : Memory → Memory) (next : Memory → HostSort)
  | compare (a b : Word) (next : BitVec 32 → HostSort)

/-- The lambda, with the place from which it reads the comparator. -/
def compareFiber (routine : Memory → Word) (a b : Word) : FiberBody :=
  .memory id fun m => .runWith (routine m) (.getRegister 0 fun value => .done ⟨value, 0⟩)
    [.integer a, .integer b] 0 0

/-- The register is narrowed to the `int` that the lambda returns. -/
def HostSort.native (routine : Memory → Word) : HostSort → NativeBody
  | .ret value => .ret value
  | .memory f next => .memory f fun m => (next m).native routine
  | .compare a b next => .callee (compareFiber routine a b) fun r =>
    (next (r.rax.setWidth 32)).native routine

/-- The functions of the host library, and the addresses of the thread's variables. -/
structure HostLibc where
  qsort (base nmemb size : Word) : HostSort
  bsearch (key base nmemb size : Word) : HostSort
  currentQsortCompar : Word
  currentBsearchCompar : Word

def bsearchImpl (libc : HostLibc) (key base nmemb size compar : Word) : NativeBody :=
  .memory (write64 · libc.currentBsearchCompar compar) fun _ =>
    (libc.bsearch key base nmemb size).native (read64 · libc.currentBsearchCompar)

def qsortImpl (libc : HostLibc) (base nmemb size compar : Word) : NativeBody :=
  .memory (write64 · libc.currentQsortCompar compar) fun _ =>
    (libc.qsort base nmemb size).native (read64 · libc.currentQsortCompar)

inductive SortFunction where
  | qsort
  | bsearch

namespace SortFunction

def current (libc : HostLibc) : SortFunction → Word
  | .qsort => libc.currentQsortCompar
  | .bsearch => libc.currentBsearchCompar

def compar (call : NativeCall) : SortFunction → Word
  | .qsort => call.integer 3
  | .bsearch => call.integer 4

def host (libc : HostLibc) (call : NativeCall) : SortFunction → HostSort
  | .qsort => libc.qsort (call.integer 0) (call.integer 1) (call.integer 2)
  | .bsearch => libc.bsearch (call.integer 0) (call.integer 1) (call.integer 2) (call.integer 3)

def impl (libc : HostLibc) (call : NativeCall) : SortFunction → NativeBody
  | .qsort => qsortImpl libc (call.integer 0) (call.integer 1) (call.integer 2) (call.integer 3)
  | .bsearch => bsearchImpl libc (call.integer 0) (call.integer 1) (call.integer 2)
    (call.integer 3) (call.integer 4)

/-- The call with the host function's comparisons made by `routine`. -/
def callWith (k : SortFunction) (libc : HostLibc) (call : NativeCall) (routine : Memory → Word) :
    NativeBody :=
  .memory (write64 · (k.current libc) (k.compar call)) fun _ => (k.host libc call).native routine

theorem impl_eq (k : SortFunction) (libc : HostLibc) (call : NativeCall) :
    k.impl libc call = k.callWith libc call (read64 · (k.current libc)) := by
  cases k <;> rfl

end SortFunction

/-- A change of the memory that leaves both variables as they are. -/
def HostLibc.Kept (libc : HostLibc) (c : Change) : Prop :=
  read64 c.2 libc.currentQsortCompar = read64 c.1 libc.currentQsortCompar ∧
    read64 c.2 libc.currentBsearchCompar = read64 c.1 libc.currentBsearchCompar

instance (libc : HostLibc) : DecidablePred libc.Kept := fun _ =>
  inferInstanceAs (Decidable (_ ∧ _))

theorem HostLibc.Kept.current {libc : HostLibc} {c : Change} (h : libc.Kept c)
    (k : SortFunction) : read64 c.2 (k.current libc) = read64 c.1 (k.current libc) := by
  cases k with
  | qsort => exact h.1
  | bsearch => exact h.2

/-- The two functions are registered, each with a variable of its own. -/
structure HasSorts {dc : Dyncall} (env : Env dc.Vm) (libc : HostLibc)
    (func : SortFunction → Word) : Prop where
  impl : ∀ k call, call.func = func k → env.native call = k.impl libc call
  distinct : func .qsort ≠ func .bsearch
  apart : Apart libc.currentQsortCompar libc.currentBsearchCompar

section Changes
variable {dc : Dyncall} (env : Env dc.Vm) (libc : HostLibc) (func : SortFunction → Word)

/-- The changes of a native call, without the store that `qsort_impl` and
`bsearch_impl` begin with. -/
def sortChanges (loop : World dc.Vm → Except Fault (World dc.Vm))
    (inside : World dc.Vm → List Change) (call : NativeCall) (w : World dc.Vm) : List Change :=
  let changes := (env.native call).changes (fiberRun loop call.func) (fiberChanges inside) w
  if call.func = func .qsort ∨ call.func = func .bsearch then changes.tail else changes

/-- Nothing that happens in the call, at any depth, writes to the two variables
other than calls of the two functions. -/
def Undisturbed (n : ℕ) (call : NativeCall) (w : World dc.Vm) : Prop :=
  ∀ c ∈ sortChanges env func (executionLoop env n) (loopChanges env (sortChanges env func) n)
    call w, libc.Kept c

instance (n : ℕ) (call : NativeCall) (w : World dc.Vm) :
    Decidable (Undisturbed env libc func n call w) :=
  List.decidableBAll libc.Kept _

end Changes

namespace SortFunction

/-- The comparator of the last call of the function, or `c` if there is none. -/
def last (func : SortFunction → Word) (k : SortFunction) (calls : List NativeCall) (c : Word) :
    Word :=
  calls.foldl (fun c call => if call.func = func k then k.compar call else c) c

theorem last_of_same {func : SortFunction → Word} {k : SortFunction} {calls : List NativeCall}
    {c : Word} (h : ∀ call ∈ calls, call.func = func k → k.compar call = c) :
    k.last func calls c = c := by
  induction calls with
  | nil => rfl
  | cons call calls ih =>
    have hrest := ih fun call hcall => h call (List.mem_cons_of_mem _ hcall)
    rw [last, List.foldl_cons]
    by_cases hfunc : call.func = func k
    · rw [if_pos hfunc, h call List.mem_cons_self hfunc]
      exact hrest
    · rw [if_neg hfunc]
      exact hrest

end SortFunction

/-- Calls were recorded, and each variable holds the comparator of the last one of
its function. -/
def ComparatorsTracked {Vm : Type} (libc : HostLibc) (func : SortFunction → Word)
    (w w' : World Vm) : Prop :=
  ∃ more, w'.calls = w.calls ++ more ∧ ∀ k : SortFunction,
    read64 w'.mem (k.current libc) = k.last func more (read64 w.mem (k.current libc))

section Tracked
variable {Vm : Type} {libc : HostLibc} {func : SortFunction → Word}

namespace ComparatorsTracked

theorem unchanged {w w' : World Vm} (hcalls : w'.calls = w.calls)
    (hmem : ∀ k : SortFunction, read64 w'.mem (k.current libc) = read64 w.mem (k.current libc)) :
    ComparatorsTracked libc func w w' :=
  ⟨[], by rw [hcalls, List.append_nil], hmem⟩

theorem trans {w w₁ w₂ : World Vm} (h₁ : ComparatorsTracked libc func w w₁)
    (h₂ : ComparatorsTracked libc func w₁ w₂) : ComparatorsTracked libc func w w₂ := by
  obtain ⟨more₁, hcalls₁, hmem₁⟩ := h₁
  obtain ⟨more₂, hcalls₂, hmem₂⟩ := h₂
  refine ⟨more₁ ++ more₂, by rw [hcalls₂, hcalls₁, List.append_assoc], fun k => ?_⟩
  rw [hmem₂, hmem₁, SortFunction.last, SortFunction.last, SortFunction.last, List.foldl_append]

theorem effect : Effect (@ComparatorsTracked Vm libc func) where
  refl _ := unchanged rfl fun _ => rfl
  trans := trans
  jit _ _ := unchanged rfl fun _ => rfl

theorem store {w : World Vm} {mem : Memory} (h : libc.Kept (w.mem, mem)) :
    ComparatorsTracked libc func w { w with mem := mem } :=
  unchanged rfl h.current

end ComparatorsTracked
end Tracked

section Invariant
variable {dc : Dyncall} {env : Env dc.Vm} {libc : HostLibc} {func : SortFunction → Word}

theorem HasSorts.injective (h : HasSorts env libc func) : Function.Injective func := by
  rintro (_ | _) (_ | _) heq
  · rfl
  · exact absurd heq h.distinct
  · exact absurd heq.symm h.distinct
  · rfl

theorem HasSorts.read64_write64_of_ne (h : HasSorts env libc func) {k k' : SortFunction}
    (hne : k ≠ k') (m : Memory) (value : Word) :
    read64 (write64 m (k.current libc) value) (k'.current libc) = read64 m (k'.current libc) := by
  apply read64_write64_of_apart
  cases k with
  | qsort =>
    cases k' with
    | qsort => exact absurd rfl hne
    | bsearch => exact h.apart
  | bsearch =>
    cases k' with
    | qsort => exact h.apart.symm
    | bsearch => exact absurd rfl hne

/-- A call of one of the functions is recorded and sets the variable. -/
theorem HasSorts.tracked_call (h : HasSorts env libc func) {k : SortFunction} {call : NativeCall}
    (hcall : call.func = func k) (w : World dc.Vm) (vm : dc.Vm) :
    ComparatorsTracked libc func w { w with
      dyncallVm := vm
      calls := w.calls ++ [call]
      mem := write64 w.mem (k.current libc) (k.compar call) } := by
  refine ⟨[call], rfl, fun k' => ?_⟩
  change read64 (write64 w.mem (k.current libc) (k.compar call)) (k'.current libc) =
    if call.func = func k' then k'.compar call else read64 w.mem (k'.current libc)
  by_cases hk : k = k'
  · subst hk
    rw [if_pos hcall, read64_write64]
  · rw [if_neg, h.read64_write64_of_ne hk]
    intro hcall'
    exact hk (h.injective (hcall.symm.trans hcall'))

theorem tracked_record {call : NativeCall} (hother : ∀ k, call.func ≠ func k) (w : World dc.Vm)
    (vm : dc.Vm) : ComparatorsTracked libc func w
      { w with dyncallVm := vm, calls := w.calls ++ [call] } :=
  ⟨[call], rfl, fun k => (if_neg (hother k)).symm⟩

theorem sortChanges_of_other {loop : World dc.Vm → Except Fault (World dc.Vm)}
    {inside : World dc.Vm → List Change} {call : NativeCall} (hother : ∀ k, call.func ≠ func k)
    (w : World dc.Vm) : sortChanges env func loop inside call w =
      (env.native call).changes (fiberRun loop call.func) (fiberChanges inside) w := by
  rw [sortChanges, if_neg (not_or_intro (hother .qsort) (hother .bsearch))]

/-- The changes of a call of one of the functions are those of the host's function. -/
theorem HasSorts.sortChanges_eq (h : HasSorts env libc func)
    {loop : World dc.Vm → Except Fault (World dc.Vm)} {inside : World dc.Vm → List Change}
    {k : SortFunction} {call : NativeCall} (hcall : call.func = func k) (w : World dc.Vm) :
    sortChanges env func loop inside call w =
      ((k.host libc call).native (read64 · (k.current libc))).changes (fiberRun loop call.func)
        (fiberChanges inside)
        { w with mem := write64 w.mem (k.current libc) (k.compar call) } := by
  have hsort : call.func = func .qsort ∨ call.func = func .bsearch := by
    cases k with
    | qsort => exact .inl hcall
    | bsearch => exact .inr hcall
  rw [sortChanges, if_pos hsort, h.impl k call hcall, k.impl_eq]
  rfl

/-- The variables follow the calls through a run that does not disturb them. -/
theorem HasSorts.runInvariant (h : HasSorts env libc func) :
    RunInvariant env (sortChanges env func) libc.Kept (ComparatorsTracked libc func) where
  trans := .trans
  control hmem hcalls := .unchanged hcalls fun k => by rw [hmem]
  store _ _ := .store
  native := by
    rintro loop inside hloop call ret vm w w₁ w' rfl hinvoke hkept
    have hrun := ComparatorsTracked.effect.fiberRun_of_changes hloop call.func
    by_cases hsort : ∃ k, call.func = func k
    · obtain ⟨k, hcall⟩ := hsort
      rw [Env.invoke, h.impl k call hcall, k.impl_eq] at hinvoke
      rw [h.sortChanges_eq hcall] at hkept
      apply (h.tracked_call hcall w vm).trans
      exact NativeBody.keeps_of_changes ComparatorsTracked.effect (fun _ _ => .store) hrun
        hinvoke hkept
    · have hother : ∀ k, call.func ≠ func k := fun k hcall => hsort ⟨k, hcall⟩
      rw [sortChanges_of_other hother] at hkept
      apply (tracked_record hother w vm).trans
      exact NativeBody.keeps_of_changes ComparatorsTracked.effect (fun _ _ => .store) hrun
        hinvoke hkept

end Invariant

section Compare
variable {Vm : Type} {run : Word → World Vm → Except Fault (World Vm)}
  {libc : HostLibc} {func : SortFunction → Word} {routine routine' : Memory → Word}

/-- A comparison runs the routine that is read when it starts, and no other. -/
theorem compareFiber_runsAt {a b : Word} {saved : SavedRegisters} {w w' : World Vm}
    {address : Word} (h : (compareFiber routine a b).RunsAt run saved w address w') :
    address = routine w.mem ∧ w'.mem = w.mem ∧ w'.calls = w.calls := by
  rcases h with ⟨rfl, rfl⟩ | ⟨w₁, -, hdone⟩
  · exact ⟨rfl, rfl, rfl⟩
  · exact hdone.elim

variable (run routine) in
theorem exists_compareFiber_runsAt (a b : Word) (saved : SavedRegisters) (w : World Vm) :
    ∃ w', (compareFiber routine a b).RunsAt run saved w (routine w.mem) w' ∧ w'.mem = w.mem :=
  ⟨_, .inl ⟨rfl, rfl⟩, rfl⟩

theorem HostSort.native_runsAt {inside : Word → World Vm → List Change}
    (hrun : ∀ address w w', run address w = .ok w' → (∀ c ∈ inside address w, libc.Kept c) →
      ComparatorsTracked libc func w w')
    {body : HostSort} {w w' : World Vm} {address : Word}
    (hkept : ∀ c ∈ (body.native routine).changes run inside w, libc.Kept c)
    (h : (body.native routine).RunsAt run w address w') :
    address = routine w'.mem ∧ ComparatorsTracked libc func w w' := by
  induction body generalizing w with
  | ret value => exact h.elim
  | memory f next ih =>
    rw [HostSort.native, NativeBody.changes, List.forall_mem_cons] at hkept
    obtain ⟨haddress, htracked⟩ := ih w.mem hkept.2 h
    exact ⟨haddress, (ComparatorsTracked.store hkept.1).trans htracked⟩
  | compare a b next ih =>
    rcases h with hinner | ⟨value, regs, w₁, hexec, hlater⟩
    · obtain ⟨haddress, hmem, hcalls⟩ := compareFiber_runsAt hinner
      refine ⟨by rw [haddress, hmem], .unchanged hcalls fun k => by rw [hmem]⟩
    · rw [HostSort.native, NativeBody.changes, hexec, List.forall_mem_append] at hkept
      obtain ⟨haddress, htracked⟩ := ih _ hkept.2 hlater
      have hfiber : ComparatorsTracked libc func w w₁ :=
        FiberBody.keeps_of_changes ComparatorsTracked.effect (fun _ _ => .store) hrun hexec hkept.1
      exact ⟨haddress, (hfiber.trans (ComparatorsTracked.effect.jit w₁ _)).trans htracked⟩

/-- Two sources of the comparator that agree whenever a comparison is made give
the same execution. -/
theorem HostSort.exec_congr {body : HostSort} {w : World Vm}
    (h : ∀ address w', (body.native routine).RunsAt run w address w' →
      routine w'.mem = routine' w'.mem) :
    (body.native routine).exec run w = (body.native routine').exec run w := by
  induction body generalizing w with
  | ret value => rfl
  | memory f next ih => exact ih w.mem h
  | compare a b next ih =>
    have hsame : routine w.mem = routine' w.mem := by
      obtain ⟨w', hruns, hmem⟩ := exists_compareFiber_runsAt run routine a b _ w
      rw [← hmem]
      exact h _ w' (.inl hruns)
    have hfiber : (compareFiber routine a b).exec run (getSavedRegisters w.jit) w =
        (compareFiber routine' a b).exec run (getSavedRegisters w.jit) w := by
      simp only [compareFiber, FiberBody.exec, hsame]
    rw [HostSort.native, HostSort.native, NativeBody.exec, NativeBody.exec, ← hfiber]
    cases hexec : (compareFiber routine a b).exec run (getSavedRegisters w.jit) w with
    | error e => rfl
    | ok result =>
      apply ih
      intro address w' hlater
      exact h address w' (.inr ⟨_, _, _, hexec, hlater⟩)

end Compare

section Call
variable {dc : Dyncall} {env : Env dc.Vm} {libc : HostLibc} {func : SortFunction → Word}

/-- Every routine that a call runs is the comparator of the last call of the same
function, counting from the call itself. -/
theorem HasSorts.runsAt_last (h : HasSorts env libc func) (n : ℕ) {k : SortFunction}
    {call : NativeCall} (hcall : call.func = func k) {w w' : World dc.Vm} {address : Word}
    (hkept : Undisturbed env libc func n call w)
    (hruns : (env.native call).RunsAt (fiberRun (executionLoop env n) call.func) w address w') :
    address = read64 w'.mem (k.current libc) ∧
      address = k.last func (w'.calls.drop w.calls.length) (k.compar call) := by
  rw [h.impl k call hcall, k.impl_eq] at hruns
  rw [Undisturbed, h.sortChanges_eq hcall] at hkept
  have hrun := h.runInvariant.effect.fiberRun_of_changes (h.runInvariant.executionLoop n) call.func
  obtain ⟨haddress, more, hcalls, hmem⟩ := HostSort.native_runsAt hrun hkept hruns
  refine ⟨haddress, ?_⟩
  rw [haddress, hmem k, read64_write64]
  change w'.calls = w.calls ++ more at hcalls
  rw [hcalls, List.drop_left]

end Call

/-- Let nothing in a call of `qsort` or `bsearch` write to the two variables but
such calls, and let the calls of the same function that are nested in it pass its
own comparator, up to each comparison that it asks for. Then every guest routine
that it runs is its own comparator, and it ends as the host function with that
comparator does, whether it returns or not. Other calls may be nested to any depth. -/
theorem sort_runs_own_comparator (dc : Dyncall) (env : Env dc.Vm) (libc : HostLibc)
    (func : SortFunction → Word) (hsorts : HasSorts env libc func) (n : ℕ) (k : SortFunction)
    (call : NativeCall) (hcall : call.func = func k) (w : World dc.Vm)
    (hkept : Undisturbed env libc func n call w)
    (hsame : ∀ address w',
      (env.native call).RunsAt (fiberRun (executionLoop env n) call.func) w address w' →
      ∀ nested ∈ w'.calls.drop w.calls.length, nested.func = call.func →
        k.compar nested = k.compar call) :
    (∀ address w',
      (env.native call).RunsAt (fiberRun (executionLoop env n) call.func) w address w' →
      address = k.compar call) ∧
    env.invoke (executionLoop env n) call w =
      (k.callWith libc call fun _ => k.compar call).exec
        (fiberRun (executionLoop env n) call.func) w := by
  have hown : ∀ address w',
      (env.native call).RunsAt (fiberRun (executionLoop env n) call.func) w address w' →
      address = k.compar call ∧ read64 w'.mem (k.current libc) = k.compar call := by
    intro address w' hruns
    obtain ⟨hread, hlast⟩ := hsorts.runsAt_last n hcall hkept hruns
    rw [SortFunction.last_of_same (hcall ▸ hsame address w' hruns)] at hlast
    exact ⟨hlast, hread.symm.trans hlast⟩
  constructor
  · intro address w' hruns
    exact (hown address w' hruns).1
  · rw [Env.invoke, hsorts.impl k call hcall, k.impl_eq]
    apply HostSort.exec_congr
    intro address w' hruns
    apply (hown address w' _).2
    rw [hsorts.impl k call hcall, k.impl_eq]
    exact hruns

def bubbleIndices (n : ℕ) : List ℕ := (List.range n).reverse.flatMap List.range

/-- Exchange neighbouring doublewords that the comparator finds out of order. -/
def exchangeFrom (base : Word) (next : HostSort) (i : ℕ) : HostSort :=
  let a := base + BitVec.ofNat 64 (8 * i)
  let b := base + BitVec.ofNat 64 (8 * (i + 1))
  .compare a b fun order =>
    if 0 < order.toInt then
      .memory (fun m => write64 (write64 m a (read64 m b)) b (read64 m a)) fun _ => next
    else next

/-- A host library that sorts doublewords by exchanges and finds nothing. -/
def bubbleLibc : HostLibc where
  qsort base nmemb _ :=
    (bubbleIndices nmemb.toNat).foldr (fun i next => exchangeFrom base next i) (.ret ⟨0, 0⟩)
  bsearch _ _ _ _ := .ret ⟨0, 0⟩
  currentQsortCompar := 0x9000
  currentBsearchCompar := 0x9008

def sortTrampolines : List Trampoline :=
  [⟨"qsort", 0, 0x5000, .of .none [.pointer, .unsignedDoubleword, .unsignedDoubleword, .pointer],
      false, true, 0x2000⟩,
    ⟨"bsearch", 1, 0x5010, .of .pointer
      [.pointer, .pointer, .unsignedDoubleword, .unsignedDoubleword, .pointer],
      false, true, 0x2008⟩]

/-- The sign of the difference of two doublewords, as a comparator returns it. -/
def order (a b : Word) : Word := if a < b then -1 else if a = b then 0 else 1

/-- The routine at `0x4000` compares upwards. Before that it makes the supervisor
call at `0x4004`, of a sort or search of no elements with the comparator `inner`.
The routine at `0x4100` compares downwards. -/
def sortEnv (inner : Word) : Env Dyncall.ofList.Vm where
  cpu _ j m :=
    if j.pc = 0x4000 then
      some ({ (((((j.setRegister 19 (j.getRegister 0)).setRegister 20 (j.getRegister 1)).setRegister
        1 0).setRegister 2 0).setRegister 3 inner).setRegister 4 inner with pc := 0x4004 }, m)
    else if j.pc = 0x4008 then
      some ({ j.setRegister 0 (order (read64 m (j.getRegister 19)) (read64 m (j.getRegister 20)))
        with pc := j.getRegister 30 }, m)
    else if j.pc = 0x4100 then
      some ({ j.setRegister 0 (order (read64 m (j.getRegister 1)) (read64 m (j.getRegister 0)))
        with pc := j.getRegister 30 }, m)
    else none
  native call :=
    if call.func = 0x5000 then SortFunction.impl bubbleLibc call .qsort
    else if call.func = 0x5010 then SortFunction.impl bubbleLibc call .bsearch
    else .ret ⟨0, 0⟩
  host _ := ⟨⟨fun _ _ => 0, fun _ => 0⟩, 0⟩
  frame _ := .cleared

/-- Three elements at `0x8000`, the exit stub, and `svc #number` at `0x4004`. -/
def sortMemory (first second third number : Byte) : Memory := fun a =>
  if a = 0x8000 then first else if a = 0x8008 then second else if a = 0x8010 then third
  else if a = 0x4004 then number else if a = 0x4005 then 0x02 else if a = 0x4007 then 0xD4
  else stubMemory a

def sortWorld (mem : Memory) : World Dyncall.ofList.Vm :=
  { World.fresh sortTrampolines 0x2000 with mem := mem }

def searchWorld : World Dyncall.ofList.Vm := sortWorld (sortMemory 3 1 2 0x21)

def nestedWorld : World Dyncall.ofList.Vm := sortWorld (sortMemory 1 2 3 0x01)

/-- `qsort` of the three elements with the comparator at `0x4000`. -/
def sortCall : NativeCall where
  func := 0x5000
  entry := ⟨⟨fun _ i => if i = 0 then 0x8000 else if i = 1 then 3 else if i = 2 then 8
    else 0x4000, fun _ => 0⟩, 0⟩
  frame := none

def sortAddress : SortFunction → Word
  | .qsort => 0x5000
  | .bsearch => 0x5010

def sorted (result : Except Fault (HostReturn × World Dyncall.ofList.Vm)) : Option (List Word) :=
  match result with
  | .error _ => none
  | .ok (_, w) => some [slot w.mem 0x8000 0, slot w.mem 0x8000 1, slot w.mem 0x8000 2]

theorem hasSorts_sortEnv (inner : Word) : HasSorts (sortEnv inner) bubbleLibc sortAddress where
  impl k call hcall := by
    cases k with
    | qsort => exact if_pos hcall
    | bsearch =>
      change (if call.func = 0x5000 then _ else _) = _
      rw [hcall, sortAddress, if_neg (by decide), if_pos rfl]
  distinct := by decide
  apart := by decide

/-- A comparator may search with another comparator. -/
theorem sort_runs_own_comparator_search :
    sorted ((sortEnv 0x4100).invoke (executionLoop (sortEnv 0x4100) 8) sortCall searchWorld) =
      some [1, 2, 3] ∧
    ∀ address w', ((sortEnv 0x4100).native sortCall).RunsAt
        (fiberRun (executionLoop (sortEnv 0x4100) 8) sortCall.func) searchWorld address w' →
      address = 0x4000 := by
  have hsame : ∀ address w', ((sortEnv 0x4100).native sortCall).RunsAt
      (fiberRun (executionLoop (sortEnv 0x4100) 8) sortCall.func) searchWorld address w' →
      ∀ nested ∈ w'.calls.drop searchWorld.calls.length, nested.func = sortCall.func →
        SortFunction.compar nested .qsort = SortFunction.compar sortCall .qsort := by
    intro address w' hruns nested hnested hfunc
    rcases hruns with hinner | ⟨v, regs, w₁, hexec, hruns⟩
    · rw [(compareFiber_runsAt hinner).2.2] at hnested
      cases hnested
    cases hexec
    rcases hruns with hinner | ⟨v, regs, w₁, hexec, hruns⟩
    · rw [(compareFiber_runsAt hinner).2.2] at hnested
      rcases hnested with _ | ⟨_, hnested⟩
      · cases hfunc
      · cases hnested
    cases hexec
    rcases hruns with hinner | ⟨v, regs, w₁, hexec, hruns⟩
    · rw [(compareFiber_runsAt hinner).2.2] at hnested
      rcases hnested with _ | ⟨_, _ | ⟨_, hnested⟩⟩
      · cases hfunc
      · cases hfunc
      · cases hnested
    cases hexec
    exact hruns.elim
  exact ⟨by decide +kernel, (sort_runs_own_comparator .ofList (sortEnv 0x4100) bubbleLibc
    sortAddress (hasSorts_sortEnv 0x4100) 8 .qsort sortCall rfl searchWorld (by decide +kernel)
    hsame).1⟩

/-- A comparator that sorts with another comparator, though it be no elements, leaves
that one to the remaining comparisons of the outer sort, and an array that was in
order ends up out of order. -/
theorem sort_runs_nested_comparator :
    HasSorts (sortEnv 0x4100) bubbleLibc sortAddress ∧ sortCall.func = sortAddress .qsort ∧
    Undisturbed (sortEnv 0x4100) bubbleLibc sortAddress 8 sortCall nestedWorld ∧
    (∃ address w', ((sortEnv 0x4100).native sortCall).RunsAt
        (fiberRun (executionLoop (sortEnv 0x4100) 8) sortCall.func) nestedWorld address w' ∧
      address ≠ SortFunction.compar sortCall .qsort) ∧
    sorted ((sortEnv 0x4100).invoke (executionLoop (sortEnv 0x4100) 8) sortCall nestedWorld) =
      some [3, 1, 2] ∧
    sorted ((SortFunction.callWith .qsort bubbleLibc sortCall fun _ =>
        SortFunction.compar sortCall .qsort).exec
      (fiberRun (executionLoop (sortEnv 0x4100) 8) sortCall.func) nestedWorld) =
        some [1, 2, 3] := by
  refine ⟨hasSorts_sortEnv 0x4100, rfl, by decide +kernel, ?_, by decide +kernel,
    by decide +kernel⟩
  refine ⟨0x4100, _, .inr ⟨_, _, _, rfl, .inl (.inl ⟨rfl, rfl⟩)⟩, by decide⟩

end Sober
