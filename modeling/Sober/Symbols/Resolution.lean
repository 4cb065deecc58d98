import Sober.Symbols.Library
import Sober.Fiber.Stub

/-! # Where native symbols resolve to

Read from the layout of the code buffer: the `n`-th function entered by any
library gets the `n`-th entry of the registry, so that the symbol map of each
library is determined by its list and by the number of functions before it.
-/
namespace Sober
open Machine

section Description

namespace DynamicSymbol

def creations (shim : DynamicSymbol) : List CreateArgs := (shim.createArgs? shim.value).toList

/-- The address entered for a symbol when the registry has `n` entries. -/
def address (base : Word) (n : ℕ) (shim : DynamicSymbol) : Word :=
  if shim.argTypes = [] then shim.value else wordAddress base (1 + 2 * n)

theorem createArgs?_of_nil {shim : DynamicSymbol} (h : shim.argTypes = []) (f : Word) :
    shim.createArgs? f = none := by
  rw [createArgs?, dif_pos h]

theorem createArgs?_of_ne {shim : DynamicSymbol} (h : shim.argTypes ≠ []) (f : Word) :
    shim.createArgs? f = some ⟨shim.name, f, ⟨shim.argTypes, h⟩, shim.isEllipsisFunction,
      shim.hasExecutionSideEffects⟩ := by
  rw [createArgs?, dif_neg h]

end DynamicSymbol

/-- The symbols of a list entered into a library when the registry has `n` entries. -/
def enterSymbols (base : Word) : ℕ → List DynamicSymbol → SymbolSoinfo → SymbolSoinfo
  | _, [], si => si
  | n, shim :: rest, si => enterSymbols base (n + shim.creations.length) rest
      (si.addCustomSymbol shim.name (shim.address base n))

theorem DeferredSymbol.createArgs?_of_ne {sym : DeferredSymbol} (h : sym.argTypes ≠ []) :
    sym.createArgs? = some ⟨sym.name, 0, ⟨sym.argTypes, h⟩, false, false⟩ := by
  rw [createArgs?, dif_neg h]

/-- The names of a Vulkan table entered when the registry has `n` entries. -/
def enterProcs : ℕ → List DynamicSymbol → Finmap (fun _ : String => BitVec 32) →
    Finmap (fun _ : String => BitVec 32)
  | _, [], procs => procs
  | n, sym :: rest, procs =>
    enterProcs (n + 1) rest (emplace sym.name (BitVec.ofNat 32 (n + 16)) procs)

namespace SymsOp

def creations : SymsOp → List CreateArgs
  | .addLibrary _ symbols => symbols.flatMap DynamicSymbol.creations
  | .createExtraGlTrampolines symbols => symbols.filterMap DeferredSymbol.createArgs?
  | .createVulkanTrampolines symbols => symbols.filterMap (·.createArgs? 0)

/-- The library an operation adds when the registry has `n` entries. -/
def soinfos (base : Word) (n : ℕ) : SymsOp → List SymbolSoinfo
  | .addLibrary name symbols => [enterSymbols base n symbols ⟨name, 0, 0, false, ∅⟩]
  | _ => []

/-- The names known after an operation that starts when the registry has `n` entries. -/
def procs (n : ℕ) (known : Finmap (fun _ : String => BitVec 32)) :
    SymsOp → Finmap (fun _ : String => BitVec 32)
  | .createVulkanTrampolines symbols => enterProcs n symbols known
  | _ => known

/-- The operation passes its own checks: a name the linker takes, and only
functions in the tables of functions. -/
def Accepted : SymsOp → Prop
  | .addLibrary name _ => name.utf8ByteSize < pathMax
  | .createExtraGlTrampolines symbols => ∀ sym ∈ symbols, sym.argTypes ≠ []
  | .createVulkanTrampolines symbols => ∀ sym ∈ symbols, sym.argTypes ≠ []

end SymsOp

/-- All libraries of a sequence that starts when the registry has `n` entries. -/
def enteredLibraries (base : Word) : ℕ → List SymsOp → List SymbolSoinfo
  | _, [] => []
  | n, op :: ops =>
    op.soinfos base n ++ enteredLibraries base (n + op.creations.length) ops

/-- All names known after a sequence that starts when the registry has `n` entries. -/
def enteredProcs : ℕ → List SymsOp → Finmap (fun _ : String => BitVec 32) →
    Finmap (fun _ : String => BitVec 32)
  | _, [], known => known
  | n, op :: ops, known => enteredProcs (n + op.creations.length) ops (op.procs n known)

end Description

section Layout
variable {m : Mapping} {calls : List CreateArgs}

theorem createTrampoline_layout {s : TrampolineState} (h : Layout m calls s)
    (hn : calls.length < 8191) (c : CreateArgs) :
    ∃ s', createTrampoline c s = .ok (c.entry m.base calls.length, s') ∧
      Layout m (calls ++ [c]) s' := by
  rcases h.create hn c with ⟨s', hcreate, hlayout⟩
  have hlast : s'.trampolines.getLast? = some (c.entry m.base calls.length) := by
    rw [hlayout.trampolines, List.mapIdx_concat, List.getLast?_concat]
  exact ⟨s', by simp only [createTrampoline, hcreate, hlast], hlayout⟩

theorem addSymbols_layout (symbols : List DynamicSymbol) (si : SymbolSoinfo)
    {s : TrampolineState} (h : Layout m calls s)
    (hn : calls.length + (symbols.flatMap DynamicSymbol.creations).length ≤ 8191) :
    ∃ s', addSymbols symbols si s = .ok (enterSymbols m.base calls.length symbols si, s') ∧
      Layout m (calls ++ symbols.flatMap DynamicSymbol.creations) s' := by
  induction symbols generalizing calls si s with
  | nil => exact ⟨s, rfl, by simpa using h⟩
  | cons shim rest ih =>
    by_cases hdata : shim.argTypes = []
    · have hargs := shim.createArgs?_of_nil hdata shim.value
      have hc : shim.creations = [] := by rw [DynamicSymbol.creations, hargs]; rfl
      rw [List.flatMap_cons, hc, List.nil_append] at hn ⊢
      rcases ih (si.addCustomSymbol shim.name shim.value) h hn with ⟨s', hrun, hlayout⟩
      refine ⟨s', ?_, hlayout⟩
      simp only [addSymbols, hargs, hrun, enterSymbols, hc, DynamicSymbol.address, if_pos hdata]
      rfl
    · have hargs := shim.createArgs?_of_ne hdata shim.value
      set c : CreateArgs := ⟨shim.name, shim.value, ⟨shim.argTypes, hdata⟩,
        shim.isEllipsisFunction, shim.hasExecutionSideEffects⟩
      have hc : shim.creations = [c] := by rw [DynamicSymbol.creations, hargs]; rfl
      rw [List.flatMap_cons, hc, List.length_append, List.length_singleton] at hn
      rcases createTrampoline_layout h (by omega) c with ⟨s₁, hcreate, hlayout₁⟩
      rcases ih (si.addCustomSymbol shim.name (c.entry m.base calls.length).guestTrampoline)
        hlayout₁ (by rw [List.length_append, List.length_singleton]; omega)
        with ⟨s', hrun, hlayout⟩
      refine ⟨s', ?_, by simpa [hc] using hlayout⟩
      simp only [addSymbols, hargs, hcreate, hrun, enterSymbols, hc, DynamicSymbol.address,
        if_neg hdata, List.length_append, List.length_singleton]
      rfl

theorem entry_id_add {n : ℕ} (hn : n < 8191) (c : CreateArgs) :
    (c.entry m.base n).id + trampolineIdOffset = BitVec.ofNat 32 (n + 16) := by
  change (BitVec.ofNat 16 n).setWidth 32 + trampolineIdOffset = _
  simp only [trampolineIdOffset]
  bv_omega

theorem createExtraGlTrampolines_layout (symbols : List DeferredSymbol) {g : SymsState}
    (h : Layout m calls g.trampoline)
    (hn : calls.length + (symbols.filterMap DeferredSymbol.createArgs?).length ≤ 8191)
    (hfun : ∀ sym ∈ symbols, sym.argTypes ≠ []) :
    ∃ s', createExtraGlTrampolines symbols g = .ok { g with
        trampoline := s'
        symbolsWithTrampolineIds := g.symbolsWithTrampolineIds ++ symbols.mapIdx
          fun k sym => (sym, (BitVec.ofNat 16 (calls.length + k)).setWidth 32) } ∧
      Layout m (calls ++ symbols.filterMap DeferredSymbol.createArgs?) s' := by
  induction symbols generalizing calls g with
  | nil => exact ⟨g.trampoline, by simp [createExtraGlTrampolines], by simpa using h⟩
  | cons sym rest ih =>
    obtain ⟨c, hargs⟩ : ∃ c, sym.createArgs? = some c :=
      ⟨_, DeferredSymbol.createArgs?_of_ne (hfun sym (by simp))⟩
    rw [List.filterMap_cons_some hargs, List.length_cons] at hn
    rcases createTrampoline_layout h (by omega) c with ⟨s₁, hcreate, hlayout₁⟩
    rcases ih (g := { g with
        trampoline := s₁
        symbolsWithTrampolineIds := g.symbolsWithTrampolineIds ++
          [(sym, (BitVec.ofNat 16 calls.length).setWidth 32)] }) hlayout₁
      (by rw [List.length_append, List.length_singleton]; omega)
      (fun s hs => hfun s (by simp [hs])) with ⟨s', hrun, hlayout⟩
    refine ⟨s', ?_, by simpa [List.filterMap_cons_some hargs] using hlayout⟩
    simp only [createExtraGlTrampolines, hargs, hcreate]
    refine hrun.trans ?_
    simp [List.mapIdx_cons, Nat.add_assoc, Nat.add_comm 1]

theorem createVulkanTrampolines_layout (symbols : List DynamicSymbol) {g : SymsState}
    (h : Layout m calls g.trampoline)
    (hn : calls.length + (symbols.filterMap (·.createArgs? 0)).length ≤ 8191)
    (hfun : ∀ sym ∈ symbols, sym.argTypes ≠ []) :
    ∃ s', createVulkanTrampolines symbols g = .ok { g with
        trampoline := s'
        procToTrampoline := enterProcs calls.length symbols g.procToTrampoline } ∧
      Layout m (calls ++ symbols.filterMap (·.createArgs? 0)) s' := by
  induction symbols generalizing calls g with
  | nil => exact ⟨g.trampoline, rfl, by simpa using h⟩
  | cons sym rest ih =>
    obtain ⟨c, hargs⟩ : ∃ c, sym.createArgs? 0 = some c :=
      ⟨_, DynamicSymbol.createArgs?_of_ne (hfun sym (by simp)) 0⟩
    have hcons : (sym :: rest).filterMap (·.createArgs? 0) =
        c :: rest.filterMap (·.createArgs? 0) := List.filterMap_cons_some hargs
    rw [hcons, List.length_cons] at hn
    rcases createTrampoline_layout h (by omega) c with ⟨s₁, hcreate, hlayout₁⟩
    rcases ih (g := { g with
        trampoline := s₁
        procToTrampoline :=
          emplace sym.name (BitVec.ofNat 32 (calls.length + 16)) g.procToTrampoline })
      hlayout₁ (by rw [List.length_append, List.length_singleton]; omega)
      (fun s hs => hfun s (by simp [hs])) with ⟨s', hrun, hlayout⟩
    refine ⟨s', ?_, by rw [hcons, List.append_cons]; exact hlayout⟩
    simp only [createVulkanTrampolines, hargs, hcreate]
    rw [entry_id_add (by omega), hrun]
    simp [enterProcs]

theorem createExtraGlTrampolines_accepts {symbols : List DeferredSymbol} {g g' : SymsState}
    (h : createExtraGlTrampolines symbols g = .ok g') : ∀ sym ∈ symbols, sym.argTypes ≠ [] := by
  induction symbols generalizing g with
  | nil => simp
  | cons sym rest ih =>
    by_cases hdata : sym.argTypes = []
    · simp [createExtraGlTrampolines, DeferredSymbol.createArgs?, hdata] at h
    · obtain ⟨c, hargs⟩ : ∃ c, sym.createArgs? = some c :=
        ⟨_, DeferredSymbol.createArgs?_of_ne hdata⟩
      simp only [createExtraGlTrampolines, hargs] at h
      cases hcreate : createTrampoline c g.trampoline with
      | error e => simp [hcreate] at h
      | ok result =>
        simp only [hcreate] at h
        simpa [hdata] using ih h

theorem createVulkanTrampolines_accepts {symbols : List DynamicSymbol} {g g' : SymsState}
    (h : createVulkanTrampolines symbols g = .ok g') : ∀ sym ∈ symbols, sym.argTypes ≠ [] := by
  induction symbols generalizing g with
  | nil => simp
  | cons sym rest ih =>
    by_cases hdata : sym.argTypes = []
    · simp [createVulkanTrampolines, DynamicSymbol.createArgs?_of_nil hdata] at h
    · obtain ⟨c, hargs⟩ : ∃ c, sym.createArgs? 0 = some c :=
        ⟨_, DynamicSymbol.createArgs?_of_ne hdata 0⟩
      simp only [createVulkanTrampolines, hargs] at h
      cases hcreate : createTrampoline c g.trampoline with
      | error e => simp [hcreate] at h
      | ok result =>
        simp only [hcreate] at h
        simpa [hdata] using ih h

namespace SymsOp

theorem accepted_of_exec {op : SymsOp} {g g' : SymsState} (h : op.exec g = .ok g') :
    op.Accepted := by
  cases op with
  | addLibrary name symbols =>
    by_contra hlong
    simp [exec, Sober.addLibrary, createEmptySoinfo, not_lt.mp hlong] at h
  | createExtraGlTrampolines symbols => exact createExtraGlTrampolines_accepts h
  | createVulkanTrampolines symbols => exact createVulkanTrampolines_accepts h

/-- An operation that passes its checks extends the layout, the list of libraries
and the names. -/
theorem exec_layout {op : SymsOp} {g : SymsState} (haccepted : op.Accepted)
    (h : Layout m calls g.trampoline) (hn : calls.length + op.creations.length ≤ 8191) :
    ∃ g', op.exec g = .ok g' ∧ Layout m (calls ++ op.creations) g'.trampoline ∧
      g'.solist = g.solist ++ op.soinfos m.base calls.length ∧
      g'.procToTrampoline = op.procs calls.length g.procToTrampoline := by
  cases op with
  | addLibrary name symbols =>
    have hname : ¬ name.utf8ByteSize ≥ pathMax := not_le.mpr haccepted
    rcases addSymbols_layout symbols ⟨name, 0, 0, false, ∅⟩ h hn with ⟨s', hrun, hlayout⟩
    refine ⟨{ g with trampoline := s', solist := g.solist ++ [_] }, ?_, hlayout, rfl, rfl⟩
    simp only [exec, Sober.addLibrary, createEmptySoinfo, if_neg hname, hrun]
  | createExtraGlTrampolines symbols =>
    rcases createExtraGlTrampolines_layout symbols h hn haccepted with ⟨s', hrun, hlayout⟩
    exact ⟨_, hrun, hlayout, (List.append_nil _).symm, rfl⟩
  | createVulkanTrampolines symbols =>
    rcases createVulkanTrampolines_layout symbols h hn haccepted with ⟨s', hrun, hlayout⟩
    exact ⟨_, hrun, hlayout, (List.append_nil _).symm, rfl⟩

end SymsOp

/-- Every sequence whose operations pass their checks ends in its layout. -/
theorem symsRun_layout (ops : List SymsOp) {g : SymsState} (haccepted : ∀ op ∈ ops, op.Accepted)
    (h : Layout m calls g.trampoline)
    (hn : calls.length + (ops.flatMap SymsOp.creations).length ≤ 8191) :
    ∃ g', symsRun ops g = .ok g' ∧ Layout m (calls ++ ops.flatMap SymsOp.creations) g'.trampoline ∧
      g'.solist = g.solist ++ enteredLibraries m.base calls.length ops ∧
      g'.procToTrampoline = enteredProcs calls.length ops g.procToTrampoline := by
  induction ops generalizing calls g with
  | nil => exact ⟨g, rfl, by simpa using h, (List.append_nil _).symm, rfl⟩
  | cons op ops ih =>
    rw [List.flatMap_cons, List.length_append] at hn
    obtain ⟨g₁, hexec, hlayout₁, hlist₁, hprocs₁⟩ :=
      SymsOp.exec_layout (haccepted op (by simp)) h (by omega)
    obtain ⟨g', hrun, hlayout, hlist, hprocs⟩ :=
      ih (fun o ho => haccepted o (by simp [ho])) hlayout₁ (by rw [List.length_append]; omega)
    refine ⟨g', by simp only [symsRun, hexec, hrun], by simpa using hlayout, ?_, ?_⟩
    · rw [hlist, hlist₁, List.length_append, List.append_assoc, enteredLibraries]
    · rw [hprocs, hprocs₁, List.length_append, enteredProcs]

theorem accepted_of_symsRun {ops : List SymsOp} {g g' : SymsState} (h : symsRun ops g = .ok g') :
    ∀ op ∈ ops, op.Accepted := by
  induction ops generalizing g with
  | nil => simp
  | cons op ops ih =>
    rw [symsRun] at h
    cases hexec : op.exec g with
    | error e => simp [hexec] at h
    | ok g₁ =>
      simp only [hexec] at h
      simpa [SymsOp.accepted_of_exec hexec] using ih h

theorem symsRun_append {ops more : List SymsOp} {g g' : SymsState}
    (h : symsRun (ops ++ more) g = .ok g') :
    ∃ g₁, symsRun ops g = .ok g₁ ∧ symsRun more g₁ = .ok g' := by
  induction ops generalizing g with
  | nil => exact ⟨g, rfl, h⟩
  | cons op ops ih =>
    rw [List.cons_append, symsRun] at h
    cases hexec : op.exec g with
    | error e => simp [hexec] at h
    | ok g₁ =>
      simp only [hexec] at h
      rcases ih h with ⟨g₂, hops, hmore⟩
      exact ⟨g₂, by simp only [symsRun, hexec, hops], hmore⟩

/-- The inverse reading: a sequence that completes ends in its layout. -/
theorem layout_of_symsRun {ops : List SymsOp} {g g' : SymsState} (hrun : symsRun ops g = .ok g')
    (h : Layout m calls g.trampoline)
    (hn : calls.length + (ops.flatMap SymsOp.creations).length ≤ 8191) :
    Layout m (calls ++ ops.flatMap SymsOp.creations) g'.trampoline ∧
      g'.solist = g.solist ++ enteredLibraries m.base calls.length ops ∧
      g'.procToTrampoline = enteredProcs calls.length ops g.procToTrampoline := by
  obtain ⟨g₁, hrun₁, hlayout, hlist, hprocs⟩ := symsRun_layout ops (accepted_of_symsRun hrun) h hn
  rw [hrun] at hrun₁
  cases hrun₁
  exact ⟨hlayout, hlist, hprocs⟩

/-- More entries leave the generated code and the entries of the others as they are. -/
theorem Layout.extend {more : List CreateArgs} {s s' : TrampolineState} (h : Layout m calls s)
    (h' : Layout m (calls ++ more) s')
    {a : Word} {word : BitVec 32} {imm : BitVec 16} {t : Trampoline}
    (hload : s.loadAt a = some word) (hsvc : decodeSvc word = some imm)
    (hget : trampolineMaybeGetById s.trampolines (imm.setWidth 32) = some t) :
    s'.loadAt a = some word ∧
      trampolineMaybeGetById s'.trampolines (imm.setWidth 32) = some t := by
  constructor
  · simp only [TrampolineState.loadAt, h.code, h'.code] at hload ⊢
    split_ifs at hload ⊢ with haligned
    set i := (a - m.base).toNat / 4
    have hi : i < trampolineCodeWords := by
      by_contra hi
      simp [loadWord, hi] at hload
    rw [Layout.loadWord_layout _ hi, Option.some.injEq] at hload
    rw [Layout.loadWord_layout _ hi, ← hload]
    have hle : i = 0 ∨ ¬ 2 * calls.length < i := by
      by_contra hgt
      rw [not_or, not_not] at hgt
      rw [layoutWord, if_neg hgt.1, if_pos hgt.2] at hload
      have hzero : decodeSvc 0 = none := by decide
      rw [← hload, hzero] at hsvc
      cases hsvc
    rcases hle with hzero | hle
    · simp [layoutWord, hzero]
    · have hle' : ¬ 2 * (calls ++ more).length < i := by
        rw [List.length_append]
        omega
      simp only [layoutWord, if_neg hle, if_neg hle']
  · rw [trampolineMaybeGetById_eq] at hget ⊢
    split_ifs at hget ⊢ with hlow
    have hlt := (List.getElem?_eq_some_iff.mp hget).1
    rw [h.length] at hlt
    rw [h.trampolines_getElem? hlt] at hget
    rw [h'.trampolines_getElem? (by rw [List.length_append]; omega),
      List.getElem_append_left hlt, hget]

end Layout

section Lookup

@[simp] theorem lookup_addCustomSymbol (si : SymbolSoinfo) (name x : String) (address : Word) :
    (si.addCustomSymbol name address).customSymbols.lookup x =
      if x = name then some (.custom address) else si.customSymbols.lookup x := by
  by_cases hx : x = name
  · rw [if_pos hx, hx]
    exact Finmap.lookup_insert _
  · rw [if_neg hx]
    exact Finmap.lookup_insert_of_ne _ hx

theorem enterSymbols_append (base : Word) (n : ℕ) (pre post : List DynamicSymbol)
    (si : SymbolSoinfo) : enterSymbols base n (pre ++ post) si =
      enterSymbols base (n + (pre.flatMap DynamicSymbol.creations).length) post
        (enterSymbols base n pre si) := by
  induction pre generalizing n si with
  | nil => rfl
  | cons shim pre ih =>
    rw [List.cons_append, enterSymbols, ih, List.flatMap_cons, List.length_append, Nat.add_assoc]
    rfl

theorem lookup_enterSymbols_of_ne (base : Word) (n : ℕ) {symbols : List DynamicSymbol}
    {x : String} (hx : ∀ sym ∈ symbols, sym.name ≠ x) (si : SymbolSoinfo) :
    (enterSymbols base n symbols si).customSymbols.lookup x = si.customSymbols.lookup x := by
  induction symbols generalizing n si with
  | nil => rfl
  | cons shim rest ih =>
    rw [enterSymbols, ih _ (fun s hs => hx s (by simp [hs])), lookup_addCustomSymbol,
      if_neg (Ne.symm (hx shim (by simp)))]

/-- The last entry of a name decides. -/
theorem lookup_enterSymbols_last (base : Word) (n : ℕ) (pre : List DynamicSymbol)
    (sym : DynamicSymbol) {post : List DynamicSymbol} (hpost : ∀ s ∈ post, s.name ≠ sym.name)
    (si : SymbolSoinfo) :
    (enterSymbols base n (pre ++ sym :: post) si).customSymbols.lookup sym.name =
      some (.custom (sym.address base
        (n + (pre.flatMap DynamicSymbol.creations).length))) := by
  rw [enterSymbols_append, enterSymbols, lookup_enterSymbols_of_ne _ _ hpost,
    lookup_addCustomSymbol, if_pos rfl]

theorem isSome_lookup_enterSymbols (base : Word) (n : ℕ) (symbols : List DynamicSymbol)
    (x : String) (si : SymbolSoinfo) :
    ((enterSymbols base n symbols si).customSymbols.lookup x).isSome ↔
      (∃ sym ∈ symbols, sym.name = x) ∨ (si.customSymbols.lookup x).isSome := by
  induction symbols generalizing n si with
  | nil => simp [enterSymbols]
  | cons shim rest ih =>
    rw [enterSymbols, ih, lookup_addCustomSymbol]
    by_cases hx : x = shim.name
    · simp [hx]
    · simp [hx, Ne.symm hx]

/-- Entering symbols changes nothing else that a lookup reads. -/
theorem enterSymbols_rest (base : Word) (n : ℕ) (symbols : List DynamicSymbol)
    (si : SymbolSoinfo) :
    enterSymbols base n symbols si =
      { si with customSymbols := (enterSymbols base n symbols si).customSymbols } := by
  induction symbols generalizing n si with
  | nil => rfl
  | cons shim rest ih =>
    rw [enterSymbols, ih]
    rfl

end Lookup

/-- The guest code at an address calls the function of this symbol. -/
def CallsSymbol (g : SymsState) (address : Word) (sym : DynamicSymbol) : Prop :=
  ∃ word imm t, g.trampoline.loadAt address = some word ∧ decodeSvc word = some imm ∧
    trampolineMaybeGetById g.trampoline.trampolines (imm.setWidth 32) = some t ∧
    t.guestTrampoline = address ∧ t.nativeFunc = sym.value ∧ t.types.val = sym.argTypes ∧
    t.isEllipsisFunction = sym.isEllipsisFunction ∧
    t.hasExecutionSideEffects = sym.hasExecutionSideEffects

/-- The library finds the names of the list and resolves each to its last entry. -/
def Resolves (g : SymsState) (si : SymbolSoinfo) (symbols : List DynamicSymbol)
    (lookup : String → Option ElfSym) (resolver : Word → Word) : Prop :=
  (∀ x, (si.findSymbolByName lookup x).isSome ↔ ∃ sym ∈ symbols, sym.name = x) ∧
  ∀ pre sym post, symbols = pre ++ sym :: post → (∀ s ∈ post, s.name ≠ sym.name) →
    ∃ e, si.findSymbolByName lookup sym.name = some e ∧
      (sym.argTypes = [] → si.resolveSymbolAddress resolver e = sym.value) ∧
      (sym.argTypes ≠ [] → CallsSymbol g (si.resolveSymbolAddress resolver e) sym)

theorem callsSymbol_of_layout {m : Mapping} {calls : List CreateArgs} {g : SymsState}
    (h : Layout m calls g.trampoline) (hn : calls.length ≤ 8191) {k : ℕ} {sym : DynamicSymbol}
    (hfun : sym.argTypes ≠ [])
    (hk : calls[k]? = some ⟨sym.name, sym.value, ⟨sym.argTypes, hfun⟩, sym.isEllipsisFunction,
      sym.hasExecutionSideEffects⟩) :
    CallsSymbol g (wordAddress m.base (1 + 2 * k)) sym := by
  rcases List.getElem?_eq_some_iff.mp hk with ⟨hlt, hget⟩
  have hentry := h.maybeGetById hn hlt
  rw [hget, ← setWidth_identifier (show k + 16 < 2 ^ 16 by omega)] at hentry
  exact ⟨_, _, _, h.loadAt_entry hn hlt, decodeSvc_svcWord (by omega), hentry, rfl, rfl, rfl, rfl,
    rfl⟩

/-- A library entered behind `before` resolves its list, whatever was created after it. -/
theorem resolves_of_layout {m : Mapping} {g : SymsState} (before after : List CreateArgs)
    (name : String) (symbols : List DynamicSymbol)
    (h : Layout m (before ++ symbols.flatMap DynamicSymbol.creations ++ after) g.trampoline)
    (hn : (before ++ symbols.flatMap DynamicSymbol.creations ++ after).length ≤ 8191)
    (lookup : String → Option ElfSym) (resolver : Word → Word) :
    Resolves g (enterSymbols m.base before.length symbols ⟨name, 0, 0, false, ∅⟩) symbols lookup
      resolver := by
  set si := enterSymbols m.base before.length symbols ⟨name, 0, 0, false, ∅⟩ with hsi
  have hrest : si = ⟨name, 0, 0, false, si.customSymbols⟩ := enterSymbols_rest _ _ _ _
  have hfind (x : String) : si.findSymbolByName lookup x = si.customSymbols.lookup x := by
    rw [hrest, SymbolSoinfo.findSymbolByName]
    cases si.customSymbols.lookup x with
    | none => simp
    | some e => rfl
  have hresolve (a : Word) : si.resolveSymbolAddress resolver (.custom a) = a := by
    rw [hrest]
    simp [SymbolSoinfo.resolveSymbolAddress, ElfSym.custom]
  constructor
  · intro x
    rw [hfind, hsi, isSome_lookup_enterSymbols]
    simp
  · intro pre sym post hsplit hpost
    have hlast := lookup_enterSymbols_last m.base before.length pre sym hpost ⟨name, 0, 0, false, ∅⟩
    rw [← hsplit, ← hsi] at hlast
    refine ⟨_, (hfind _).trans hlast, ?_, ?_⟩
    · intro hdata
      rw [hresolve, DynamicSymbol.address, if_pos hdata]
    · intro hfun
      rw [hresolve, DynamicSymbol.address, if_neg hfun]
      apply callsSymbol_of_layout h hn hfun
      have hc : sym.creations = [⟨sym.name, sym.value, ⟨sym.argTypes, hfun⟩,
          sym.isEllipsisFunction, sym.hasExecutionSideEffects⟩] := by
        rw [DynamicSymbol.creations, DynamicSymbol.createArgs?_of_ne hfun]
        rfl
      rw [hsplit, List.flatMap_append, List.flatMap_cons, hc, ← List.length_append]
      simp

/-- Every sequence of operations that enters at most 8191 functions completes
unless a check rejects it. Afterwards each library finds exactly the names of
its list, data at their value and functions at the entry made for the last
symbol of the name; and what an earlier part of the sequence resolved is
resolved the same way after the rest of it. -/
theorem symbols_resolve (m : Mapping) (s₀ : TrampolineState)
    (hinit : trampolineInit (some m) .initial = some (0, s₀)) (ops : List SymsOp)
    (hcount : (ops.flatMap SymsOp.creations).length ≤ 8191)
    (lookup : String → Option ElfSym) (resolver : Word → Word) :
    ((∀ op ∈ ops, op.Accepted) → ∃ g, symsRun ops (.initial s₀) = .ok g) ∧
    ∀ g, symsRun ops (.initial s₀) = .ok g →
      (∀ before name symbols after, ops = before ++ .addLibrary name symbols :: after →
        ∃ g₀ si, symsRun before (.initial s₀) = .ok g₀ ∧
          g.solist[g₀.solist.length]? = some si ∧ si.soname = name ∧
          Resolves g si symbols lookup resolver) ∧
      (∀ earlier later g₀, ops = earlier ++ later → symsRun earlier (.initial s₀) = .ok g₀ →
        g₀.solist <+: g.solist ∧
        ∀ a word imm t, g₀.trampoline.loadAt a = some word → decodeSvc word = some imm →
          trampolineMaybeGetById g₀.trampoline.trampolines (imm.setWidth 32) = some t →
          g.trampoline.loadAt a = some word ∧
            trampolineMaybeGetById g.trampoline.trampolines (imm.setWidth 32) = some t) := by
  have hlayout₀ := layout_of_init hinit
  constructor
  · intro haccepted
    obtain ⟨g, hrun, -⟩ := symsRun_layout ops (g := .initial s₀) haccepted hlayout₀
      (by simpa using hcount)
    exact ⟨g, hrun⟩
  · intro g hrun
    constructor
    · rintro before name symbols after rfl
      rcases symsRun_append hrun with ⟨g₀, hbefore, hmore⟩
      rw [List.flatMap_append, List.flatMap_cons, List.length_append, List.length_append] at hcount
      obtain ⟨hl₀, -⟩ := layout_of_symsRun hbefore hlayout₀ (by rw [List.length_nil]; omega)
      rw [List.nil_append] at hl₀
      obtain ⟨hl, hlist, -⟩ := layout_of_symsRun hmore hl₀
        (by rw [List.flatMap_cons, List.length_append]; omega)
      rw [List.flatMap_cons, ← List.append_assoc] at hl
      refine ⟨g₀, _, hbefore, by rw [hlist]; simp [enteredLibraries, SymsOp.soinfos], ?_,
        resolves_of_layout _ _ name symbols hl ?_ lookup resolver⟩
      · rw [enterSymbols_rest]
      · rw [List.length_append, List.length_append]
        exact (Nat.add_assoc _ _ _).trans_le hcount
    · rintro earlier later g₀ rfl hearlier
      rcases symsRun_append hrun with ⟨g₁, hearlier₁, hlater⟩
      rw [hearlier] at hearlier₁
      cases hearlier₁
      rw [List.flatMap_append, List.length_append] at hcount
      obtain ⟨hl₀, -⟩ := layout_of_symsRun hearlier hlayout₀ (by rw [List.length_nil]; omega)
      rw [List.nil_append] at hl₀
      obtain ⟨hl, hlist, -⟩ := layout_of_symsRun hlater hl₀ (by omega)
      exact ⟨⟨_, hlist.symm⟩, fun a word imm t hload hsvc hget => hl₀.extend hl hload hsvc hget⟩

/-- A datum and a function under one name; the function is entered last. -/
def duplicatedSymbols : List DynamicSymbol :=
  [⟨"getpid", 0x2000, [], false, false⟩, ⟨"getpid", 0x1000, [.signedWord], false, false⟩]

theorem symbols_resolve_duplicated :
    ∃ s₀ g si e, trampolineInit (some lowMapping) .initial = some (0, s₀) ∧
      symsRun [.addLibrary "libc.so" duplicatedSymbols] (.initial s₀) = .ok g ∧
      g.solist[0]? = some si ∧ si.findSymbolByName (fun _ => none) "getpid" = some e ∧
      CallsSymbol g (si.resolveSymbolAddress id e)
        ⟨"getpid", 0x1000, [.signedWord], false, false⟩ := by
  obtain ⟨s₀, hinit, -⟩ := trampolineInit_layout lowMapping
  obtain ⟨hcompletes, hresolves⟩ := symbols_resolve lowMapping s₀ hinit
    [.addLibrary "libc.so" duplicatedSymbols] (by decide) (fun _ => none) id
  have haccepted : ∀ op ∈ [SymsOp.addLibrary "libc.so" duplicatedSymbols], op.Accepted := by
    intro op hop
    rw [List.mem_singleton.mp hop]
    change "libc.so".utf8ByteSize < pathMax
    decide
  obtain ⟨g, hrun⟩ := hcompletes haccepted
  obtain ⟨g₀, si, hbefore, hsi, -, -, hlast⟩ := (hresolves g hrun).1 [] _ _ [] rfl
  cases hbefore
  obtain ⟨e, hfind, -, hcalls⟩ := hlast [duplicatedSymbols.head (by decide)] _ [] rfl (by simp)
  exact ⟨s₀, g, si, e, hinit, hrun, hsi, hfind, hcalls (by decide)⟩

end Sober
