import Mathlib.Tactic.Common
import Sober.Ir.Instruction

/-!
# Elimination of register reads and writes

`A64GetSetElimination` goes over a block once and remembers for every register the value it
holds and the instruction that set it. A read of a value that is known becomes an
`Identity`, a write that is overwritten before it is read is erased. Executing the block
gives the same as before.
-/

namespace Sober.Ir

variable {D R E : Type}

structure RegisterInfo where
  registerValue : Option Arg
  trackingType : TrackingType
  lastSetInstruction : Option ℕ

def RegisterInfo.empty : RegisterInfo := ⟨none, .w, none⟩

/-- The state of the pass: what it knows of the registers, and the instructions it has gone
over, as they are now. -/
structure Elimination (D : Type) where
  info : Slot → RegisterInfo
  block : List (Inst D)

namespace Elimination

def doSet (p : Elimination D) (slot : Slot) (value : Arg) (setInst : Inst D)
    (trackingType : TrackingType) : Elimination D :=
  let block := match (p.info slot).lastSetInstruction with
    | some last => p.block.filter (·.name != last)
    | none => p.block
  { info := Function.update p.info slot ⟨some value, trackingType, some setInst.name⟩
    block := block ++ [setInst] }

def doGet (p : Elimination D) (slot : Slot) (getInst : Inst D) (trackingType : TrackingType) :
    Elimination D :=
  let doNothing : Elimination D :=
    { info := Function.update p.info slot ⟨some (.inst getInst.name), trackingType, none⟩
      block := p.block ++ [getInst] }
  match (p.info slot).registerValue with
  | none => doNothing
  | some value =>
    if (p.info slot).trackingType = trackingType then
      { p with block := p.block ++ [getInst.replaceUsesWith value] }
    else
      doNothing

def doOther (p : Elimination D) (inst : Inst D) : Elimination D :=
  { info := fun slot => if inst.op.forgets slot then .empty else p.info slot
    block := p.block ++ [inst] }

def step (p : Elimination D) (inst : Inst D) : Elimination D :=
  match inst.op.gets with
  | some (slot, trackingType) => p.doGet slot inst trackingType
  | none =>
    match inst.op.sets with
    | some (slot, trackingType) => p.doSet slot (inst.arg 0) inst trackingType
    | none => p.doOther inst

def start : Elimination D := ⟨fun _ => .empty, []⟩

inductive Step (p : Elimination D) (inst : Inst D) : Elimination D → Prop where
  | known {slot : Slot} {value : Arg}
      (hgets : inst.op.gets = some (slot, (p.info slot).trackingType))
      (hvalue : (p.info slot).registerValue = some value) :
      Step p inst { p with block := p.block ++ [inst.replaceUsesWith value] }
  | get {slot : Slot} {t : TrackingType} (hgets : inst.op.gets = some (slot, t)) :
      Step p inst
        { info := Function.update p.info slot ⟨some (.inst inst.name), t, none⟩
          block := p.block ++ [inst] }
  | set {slot : Slot} {t : TrackingType} {block : List (Inst D)}
      (hsets : inst.op.sets = some (slot, t))
      (hblock : block = p.block ∨ ∃ last, (p.info slot).lastSetInstruction = some last ∧
        block = p.block.filter (·.name != last)) :
      Step p inst
        { info := Function.update p.info slot ⟨some (inst.arg 0), t, some inst.name⟩
          block := block ++ [inst] }
  | other (hgets : inst.op.gets = none) (hsets : inst.op.sets = none) :
      Step p inst (p.doOther inst)

theorem step_cases (p : Elimination D) (inst : Inst D) : Step p inst (p.step inst) := by
  unfold step
  split
  · rename_i slot t hgets
    unfold doGet
    split
    · exact .get hgets
    · rename_i value hvalue
      by_cases ht : (p.info slot).trackingType = t
      · subst ht
        rw [if_pos rfl]
        exact .known hgets hvalue
      · rw [if_neg ht]
        exact .get hgets
  · rename_i hgets
    split
    · rename_i slot t hsets
      unfold doSet
      split
      · rename_i last hlast
        exact .set hsets (.inr ⟨last, hlast, rfl⟩)
      · exact .set hsets (.inl rfl)
    · rename_i hsets
      exact .other hgets hsets

end Elimination

def a64GetSetElimination (block : List (Inst D)) : List (Inst D) :=
  (block.foldl Elimination.step .start).block

section Correctness

variable [Inhabited E] {sem : Semantics D R E}

/-- The write `name` of a register is not seen by the instructions after it. -/
def Erasable (block : List (Inst D)) (slot : Slot) (name : ℕ) : Prop :=
  ∃ pre set mid t, block = pre ++ set :: mid ∧ set.op.sets = some (slot, t) ∧ set.name = name ∧
    (∀ inst ∈ pre ++ mid, inst.name ≠ name) ∧
    ∀ inst ∈ mid, inst.op.touches slot = false ∧ inst.op.isCall = false

namespace Erasable

variable {block : List (Inst D)} {slot : Slot} {name : ℕ}

theorem append (h : Erasable block slot name) {inst : Inst D} (hname : inst.name ≠ name)
    (htouches : inst.op.touches slot = false) (hcall : inst.op.isCall = false) :
    Erasable (block ++ [inst]) slot name := by
  obtain ⟨pre, set, mid, t, rfl, hset, rfl, hnames, hmid⟩ := h
  refine ⟨pre, set, mid ++ [inst], t, by simp, hset, rfl, ?_, ?_⟩
  · intro other hother
    rw [← List.append_assoc, List.mem_append, List.mem_singleton] at hother
    rcases hother with hother | rfl
    · exact hnames other hother
    · exact hname
  · intro other hother
    rw [List.mem_append, List.mem_singleton] at hother
    rcases hother with hother | rfl
    · exact hmid other hother
    · exact ⟨htouches, hcall⟩

theorem filter (h : Erasable block slot name) {other : ℕ} (hne : name ≠ other) :
    Erasable (block.filter (·.name != other)) slot name := by
  obtain ⟨pre, set, mid, t, rfl, hset, rfl, hnames, hmid⟩ := h
  refine ⟨pre.filter (·.name != other), set, mid.filter (·.name != other), t, ?_, hset, rfl,
    ?_, ?_⟩
  · rw [List.filter_append, List.filter_cons_of_pos (by simpa using hne)]
  · rw [← List.filter_append]
    exact fun inst hinst => hnames inst (List.mem_of_mem_filter hinst)
  · exact fun inst hinst => hmid inst (List.mem_of_mem_filter hinst)

theorem exists_mem (h : Erasable block slot name) : ∃ set ∈ block, set.name = name := by
  obtain ⟨pre, set, mid, t, rfl, -, hname, -, -⟩ := h
  exact ⟨set, by simp, hname⟩

/-- A write belongs to one register. -/
theorem slot_unique (h : Erasable block slot name) {slot' : Slot}
    (h' : Erasable block slot' name) : slot = slot' := by
  obtain ⟨pre, set, mid, t, rfl, hset, rfl, hnames, -⟩ := h
  obtain ⟨pre', set', mid', t', hblock, hset', hname', -, -⟩ := h'
  have hmem : set' ∈ pre ++ set :: mid := by simp [hblock]
  have hsame : set' = set := by
    by_contra hne
    refine hnames set' ?_ hname'
    simpa [hne] using hmem
  subst hsame
  rw [hset] at hset'
  exact congrArg Prod.fst (Option.some.inj hset')

/-- Erasing it makes no difference to a block that overwrites the register next. -/
theorem exec_filter (h : Erasable block slot name) {inst : Inst D} {t : TrackingType}
    (hsets : inst.op.sets = some (slot, t)) (st : State R E) :
    inst.exec sem (exec sem (block.filter (·.name != name)) st) =
      inst.exec sem (exec sem block st) := by
  obtain ⟨pre, set, mid, t', rfl, hset, rfl, hnames, hmid⟩ := h
  have hfilter : (pre ++ set :: mid).filter (·.name != set.name) = pre ++ mid := by
    rw [List.filter_append, List.filter_cons_of_neg (by simp), ← List.filter_append]
    exact List.filter_eq_self.mpr fun inst hinst => bne_iff_ne.mpr (hnames inst hinst)
  rw [hfilter, exec_append, exec_append, exec_cons, Inst.exec_of_sets hset,
    exec_write (fun i hi => (hmid i hi).1) (fun i hi => (hmid i hi).2),
    Inst.exec_of_sets hsets, Inst.exec_of_sets hsets]
  simp only [State.write, Function.update_idem]

end Erasable

/-- What a register holds is read as `t` before anything else is done with the register. -/
def readNext (slot : Slot) (t : TrackingType) : List (Inst D) → Bool
  | [] => false
  | inst :: block =>
    decide (inst.op.gets = some (slot, t)) || (!inst.op.touches slot && readNext slot t block)

theorem readNext_cons {slot : Slot} {t : TrackingType} {inst : Inst D} {block : List (Inst D)}
    (htouches : inst.op.touches slot = false) (h : readNext slot t block = true) :
    readNext slot t (inst :: block) = true := by
  rw [readNext, htouches, h]
  exact Bool.or_true _

theorem readNext_gets {slot : Slot} {t : TrackingType} {inst : Inst D}
    (h : inst.op.gets = some (slot, t)) (block : List (Inst D)) :
    readNext slot t (inst :: block) = true := by
  rw [readNext, decide_eq_true h, Bool.true_or]

/-- What the pass knows, when the block so far takes `st₀` to `st` and `todo` is to come. -/
structure Knows (sem : Semantics D R E) (st₀ : State R E) (todo : List (Inst D))
    (p : Elimination D) (st : State R E) : Prop where
  same : exec sem p.block st₀ = st
  value : ∀ slot value, (p.info slot).registerValue = some value →
    readNext slot (p.info slot).trackingType todo = true →
    (p.info slot).trackingType.load (st.file slot) = (value.eval st.env).bits
  erasable : ∀ slot name, (p.info slot).lastSetInstruction = some name →
    Erasable p.block slot name

/-- The instruction is new to the pass. -/
structure Fresh (p : Elimination D) (inst : Inst D) : Prop where
  name : ∀ other ∈ p.block, other.name ≠ inst.name
  value : ∀ slot, (p.info slot).registerValue ≠ some (.inst inst.name)

/-- A value that is set and read next can be got back. -/
def SetsBack (todo : List (Inst D)) (st : State R E) (inst : Inst D) : Prop :=
  ∀ slot t, inst.op.sets = some (slot, t) → readNext slot t todo = true →
    t.load (t.store ((inst.arg 0).eval st.env).bits) = ((inst.arg 0).eval st.env).bits

namespace Knows

variable {st₀ st : State R E} {p : Elimination D} {inst : Inst D} {todo : List (Inst D)}

theorem step_same (h : Knows sem st₀ (inst :: todo) p st) {p' : Elimination D}
    (hstep : p.Step inst p') :
    exec sem p'.block st₀ = inst.exec sem st := by
  cases hstep with
  | known hgets hvalue =>
    rw [exec_append, h.same, exec_cons, exec_nil, Inst.exec_replaceUsesWith,
      Inst.exec_of_gets hgets, h.value _ _ hvalue (readNext_gets hgets todo)]
  | get hgets => rw [exec_append, h.same, exec_cons, exec_nil]
  | set hsets hblock =>
    rw [exec_append, exec_cons, exec_nil]
    rcases hblock with rfl | ⟨last, hlast, rfl⟩
    · rw [h.same]
    · rw [(h.erasable _ last hlast).exec_filter hsets, h.same]
  | other hgets hsets => rw [Elimination.doOther, exec_append, h.same, exec_cons, exec_nil]

/-- What is known of a register stays true when an instruction leaves the register. -/
theorem value_exec (h : Knows sem st₀ (inst :: todo) p st) (hfresh : Fresh p inst) {slot : Slot}
    {value : Arg} (hvalue : (p.info slot).registerValue = some value)
    (hnext : readNext slot (p.info slot).trackingType (inst :: todo) = true)
    (hfile : (inst.exec sem st).file slot = st.file slot) :
    (p.info slot).trackingType.load ((inst.exec sem st).file slot) =
      (value.eval (inst.exec sem st).env).bits := by
  have hne : value ≠ .inst inst.name := fun heq => hfresh.value slot (heq ▸ hvalue)
  rw [hfile, Inst.eval_exec hne]
  exact h.value slot value hvalue hnext

theorem step_value (h : Knows sem st₀ (inst :: todo) p st) (hfresh : Fresh p inst)
    (hback : SetsBack todo st inst) (hcall : inst.op.isCall = false) {p' : Elimination D}
    (hstep : p.Step inst p') (slot : Slot) (value : Arg)
    (hvalue : (p'.info slot).registerValue = some value)
    (hnext : readNext slot (p'.info slot).trackingType todo = true) :
    (p'.info slot).trackingType.load ((inst.exec sem st).file slot) =
      (value.eval (inst.exec sem st).env).bits := by
  cases hstep with
  | @known read _ hgets hknown =>
    refine h.value_exec hfresh hvalue ?_ ?_
    · by_cases hslot : slot = read
      · subst hslot
        exact readNext_gets hgets todo
      · exact readNext_cons (by simpa [Opcode.touches, hgets] using hslot) hnext
    · rw [Inst.exec_of_gets hgets]
  | @get read t hgets =>
    by_cases hslot : slot = read
    · subst hslot
      simp only [Function.update_self] at hvalue ⊢
      cases hvalue
      simp only [Inst.exec_of_gets hgets, Arg.eval, Function.update_self, Datum.plain]
    · simp only [Function.update_of_ne hslot] at hvalue hnext ⊢
      refine h.value_exec hfresh hvalue ?_ ?_
      · exact readNext_cons (by simpa [Opcode.touches, hgets] using hslot) hnext
      · rw [Inst.exec_of_gets hgets]
  | @set written t block hsets hblock =>
    by_cases hslot : slot = written
    · subst hslot
      simp only [Function.update_self] at hvalue hnext ⊢
      cases hvalue
      simpa only [Inst.exec_of_sets hsets, State.write, Function.update_self]
        using hback slot t hsets hnext
    · have hgets : inst.op.gets = none := Opcode.gets_of_sets hsets
      simp only [Function.update_of_ne hslot] at hvalue hnext ⊢
      refine h.value_exec hfresh hvalue ?_ ?_
      · exact readNext_cons (by simpa [Opcode.touches, hgets, hsets] using hslot) hnext
      · rw [Inst.exec_of_sets hsets]
        exact Function.update_of_ne hslot ..
  | other hgets hsets =>
    by_cases hforgets : inst.op.forgets slot = true
    · simp [Elimination.doOther, hforgets, RegisterInfo.empty] at hvalue
    · simp only [Elimination.doOther, hforgets] at hvalue hnext ⊢
      have htouches : inst.op.touches slot = false := by
        simpa [Opcode.touches, hgets, hsets] using hforgets
      exact h.value_exec hfresh hvalue (readNext_cons htouches hnext)
        (Inst.exec_file htouches hcall)

/-- A write that could be erased still can when another instruction follows that has
nothing to do with its register. -/
theorem erasable_append (h : Knows sem st₀ (inst :: todo) p st) (hfresh : Fresh p inst)
    {slot : Slot}
    {name : ℕ} (hlast : (p.info slot).lastSetInstruction = some name) {inst' : Inst D}
    (hname : inst'.name = inst.name) (htouches : inst'.op.touches slot = false)
    (hcall : inst'.op.isCall = false) : Erasable (p.block ++ [inst']) slot name := by
  have herasable := h.erasable slot name hlast
  obtain ⟨set, hmem, hset⟩ := herasable.exists_mem
  refine herasable.append ?_ htouches hcall
  rw [hname, ← hset]
  exact (hfresh.name set hmem).symm

theorem step_erasable (h : Knows sem st₀ (inst :: todo) p st) (hfresh : Fresh p inst)
    (hcall : inst.op.isCall = false) {p' : Elimination D} (hstep : p.Step inst p') (slot : Slot)
    (name : ℕ) (hlast : (p'.info slot).lastSetInstruction = some name) :
    Erasable p'.block slot name := by
  cases hstep with
  | known hgets hknown => exact h.erasable_append hfresh hlast rfl (by cases slot <;> rfl) rfl
  | @get read t hgets =>
    by_cases hslot : slot = read
    · subst hslot
      simp only [Function.update_self] at hlast
      cases hlast
    · simp only [Function.update_of_ne hslot] at hlast
      refine h.erasable_append hfresh hlast rfl ?_ hcall
      simpa [Opcode.touches, hgets] using hslot
  | @set written t block hsets hblock =>
    have hgets : inst.op.gets = none := Opcode.gets_of_sets hsets
    have hsub : ∀ other ∈ block, other ∈ p.block := by
      rcases hblock with rfl | ⟨last, -, rfl⟩
      · exact fun _ h => h
      · exact fun _ h => List.mem_of_mem_filter h
    by_cases hslot : slot = written
    · subst hslot
      simp only [Function.update_self] at hlast
      cases hlast
      refine ⟨block, inst, [], t, rfl, hsets, rfl, ?_, List.forall_mem_nil _⟩
      rw [List.append_nil]
      exact fun other hother => hfresh.name other (hsub other hother)
    · simp only [Function.update_of_ne hslot] at hlast
      have herasable := h.erasable slot name hlast
      have hkept : Erasable block slot name := by
        rcases hblock with rfl | ⟨last, hwritten, rfl⟩
        · exact herasable
        · refine herasable.filter fun hname => hslot ?_
          subst hname
          exact herasable.slot_unique (h.erasable written name hwritten)
      obtain ⟨set, hmem, rfl⟩ := hkept.exists_mem
      refine hkept.append (hfresh.name set (hsub set hmem)).symm ?_ hcall
      simpa [Opcode.touches, hgets, hsets] using hslot
  | other hgets hsets =>
    by_cases hforgets : inst.op.forgets slot = true
    · simp [Elimination.doOther, hforgets, RegisterInfo.empty] at hlast
    · simp only [Elimination.doOther, hforgets] at hlast
      refine h.erasable_append hfresh hlast rfl ?_ hcall
      simpa [Opcode.touches, hgets, hsets] using hforgets

theorem step (h : Knows sem st₀ (inst :: todo) p st) (hfresh : Fresh p inst)
    (hback : SetsBack todo st inst) (hcall : inst.op.isCall = false) :
    Knows sem st₀ todo (p.step inst) (inst.exec sem st) where
  same := h.step_same (p.step_cases inst)
  value := h.step_value hfresh hback hcall (p.step_cases inst)
  erasable := h.step_erasable hfresh hcall (p.step_cases inst)

end Knows

/-- No instruction uses a later one, and names are not used twice. -/
def SingleAssignment (block : List (Inst D)) : Prop :=
  block.Pairwise fun inst later => inst.name ≠ later.name ∧ .inst later.name ∉ inst.args

theorem Fresh.step {p : Elimination D} {inst later : Inst D} (h : Fresh p later)
    (hname : inst.name ≠ later.name) (huses : .inst later.name ∉ inst.args) :
    Fresh (p.step inst) later := by
  have hinst : Arg.inst inst.name ≠ .inst later.name := fun heq => hname (Arg.inst.inj heq)
  have harg : inst.arg 0 ≠ .inst later.name := by
    intro heq
    rw [Inst.arg, List.getD_eq_getElem?_getD] at heq
    cases hget : inst.args[0]? with
    | none => simp [hget] at heq
    | some arg =>
      rw [hget, Option.getD_some] at heq
      exact huses (heq ▸ List.mem_of_getElem? hget)
  have hnames : ∀ {block : List (Inst D)} {inst' : Inst D}, (∀ other ∈ block, other ∈ p.block) →
      inst'.name = inst.name → ∀ other ∈ block ++ [inst'], other.name ≠ later.name := by
    intro block inst' hsub hsame other hother
    rw [List.mem_append, List.mem_singleton] at hother
    rcases hother with hother | rfl
    · exact h.name other (hsub other hother)
    · rwa [hsame]
  have hvalues : ∀ {slot : Slot} {info : RegisterInfo},
      info.registerValue ≠ some (.inst later.name) →
      ∀ slot', (Function.update p.info slot info slot').registerValue ≠
        some (.inst later.name) := by
    intro slot info hinfo slot'
    by_cases hslot : slot' = slot
    · subst hslot
      rwa [Function.update_self]
    · rw [Function.update_of_ne hslot]
      exact h.value slot'
  have hstep := p.step_cases inst
  generalize p.step inst = p' at hstep ⊢
  cases hstep with
  | known hgets hknown => exact ⟨hnames (fun _ h => h) rfl, h.value⟩
  | get hgets =>
    exact ⟨hnames (fun _ h => h) rfl, hvalues fun heq => hinst (Option.some.inj heq)⟩
  | set hsets hblock =>
    refine ⟨hnames ?_ rfl, hvalues fun heq => harg (Option.some.inj heq)⟩
    rcases hblock with rfl | ⟨last, -, rfl⟩
    · exact fun _ h => h
    · exact fun _ h => List.mem_of_mem_filter h
  | other hgets hsets =>
    refine ⟨hnames (fun _ h => h) rfl, fun slot => ?_⟩
    by_cases hforgets : inst.op.forgets slot = true
    · simp [Elimination.doOther, hforgets, RegisterInfo.empty]
    · simpa [Elimination.doOther, hforgets] using h.value slot

/-- Along the run of the block every value that is set and read next can be got back. For
`SetW`, `SetX`, `SetQ` and `SetSP` this is the type of the value; it says something about the
upper part of what `SetS` and `SetD` are given and about the lower bits for `SetNZCVRaw`. -/
def ReadsBack (sem : Semantics D R E) : List (Inst D) → State R E → Prop
  | [], _ => True
  | inst :: block, st => SetsBack block st inst ∧ ReadsBack sem block (inst.exec sem st)

/-- A supervisor call or an exception ends its block. -/
def CallsLast (block : List (Inst D)) : Prop :=
  ∀ inst ∈ block.dropLast, inst.op.isCall = false

theorem Knows.foldl {block todo : List (Inst D)} (hssa : SingleAssignment block)
    (hcall : ∀ inst ∈ block, inst.op.isCall = false) {st₀ st : State R E} {p : Elimination D}
    (h : Knows sem st₀ (block ++ todo) p st) (hfresh : ∀ inst ∈ block, Fresh p inst)
    (hback : ReadsBack sem (block ++ todo) st) :
    Knows sem st₀ todo (block.foldl Elimination.step p) (exec sem block st) := by
  induction block generalizing p st with
  | nil => exact h
  | cons inst block ih =>
    rw [SingleAssignment, List.pairwise_cons] at hssa
    rw [List.forall_mem_cons] at hcall hfresh
    refine ih hssa.2 hcall.2 (h.step hfresh.1 hback.1 hcall.1) (fun later hlater => ?_) hback.2
    have hlast := hssa.1 later hlater
    exact (hfresh.2 later hlater).step hlast.1 hlast.2

theorem knows_start (todo : List (Inst D)) (st : State R E) :
    Knows sem st todo (Elimination.start : Elimination D) st :=
  ⟨rfl, nofun, nofun⟩

theorem exec_a64GetSetElimination {block : List (Inst D)} (hssa : SingleAssignment block)
    (hcalls : CallsLast block) {st : State R E} (hback : ReadsBack sem block st) :
    exec sem (a64GetSetElimination block) st = exec sem block st := by
  rcases List.eq_nil_or_concat' block with rfl | ⟨body, last, rfl⟩
  · rfl
  · rw [CallsLast, List.dropLast_concat] at hcalls
    have hbody : SingleAssignment body := (List.pairwise_append.mp hssa).1
    have hknows := (knows_start _ st).foldl hbody hcalls (fun _ _ => ⟨nofun, nofun⟩) hback
    rw [a64GetSetElimination, List.foldl_append, List.foldl_cons, List.foldl_nil,
      hknows.step_same (Elimination.step_cases _ last), exec_append, exec_cons, exec_nil]

end Correctness

end Sober.Ir
