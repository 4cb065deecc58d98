import Sober.Graphics.Lookup
import Sober.Symbols.Resolution
import Sober.Transition.Run

/-! # Extra GL functions looked up by name

Start-up creates an entry without a function for each row of a table. Every
lookup loads the driver's functions, stores them in all of these entries, enters
the guest addresses of the entries under their names, and answers from the names.
The answer is the address of the entry in each case. It does not depend on
whether the driver has the function, so it is right exactly if the driver has it.
-/
namespace Sober
open Machine Transition

/-- `extra_gl_symbols`: each name with the variable of the loader that holds the
function. -/
def extraGlRows : List (String × String) :=
  [("glBindVertexArray", "glBindVertexArray"),
    ("glDeleteVertexArrays", "glDeleteVertexArrays"),
    ("glGenVertexArrays", "glGenVertexArrays"),
    ("glMapBuffer", "glMapBufferRange"),
    ("glUnmapBuffer", "glUnmapBuffer"),
    ("glMapBufferRange", "glMapBufferRange"),
    ("glTexImage3D", "glTexImage3D"),
    ("glTexSubImage3D", "glTexSubImage3D"),
    ("glCompressedTexImage3D", "glCompressedTexImage3D"),
    ("glCompressedTexSubImage3D", "glCompressedTexSubImage3D"),
    ("glCopyImageSubData", "glCopyImageSubData"),
    ("glTexStorage2D", "glTexStorage2D"),
    ("glTexStorage3D", "glTexStorage3D"),
    ("glFenceSync", "glFenceSync"),
    ("glDeleteSync", "glDeleteSync"),
    ("glClientWaitSync", "glClientWaitSync"),
    ("glWaitSync", "glWaitSync"),
    ("glBlitFramebuffer", "glBlitFramebuffer"),
    ("glRenderbufferStorageMultisample", "glRenderbufferStorageMultisample"),
    ("glInvalidateFramebuffer", "glInvalidateFramebuffer"),
    ("glDrawBuffers", "glDrawBuffers"),
    ("glClearBufferiv", "glClearBufferiv"),
    ("glClearBufferfv", "glClearBufferfv"),
    ("glClearBufferfi", "glClearBufferfi"),
    ("glUniformBlockBinding", "glUniformBlockBinding"),
    ("glBindBufferBase", "glBindBufferBase"),
    ("glBindBufferRange", "glBindBufferRange"),
    ("glGetUniformBlockIndex", "glGetUniformBlockIndex"),
    ("glDrawElementsInstanced", "glDrawElementsInstanced"),
    ("glDrawArraysInstanced", "glDrawArraysInstanced"),
    ("glPushGroupMarker", "glPushGroupMarkerEXT"),
    ("glPopGroupMarker", "glPopGroupMarkerEXT"),
    ("glGenQueries", "glGenQueries"),
    ("glDeleteQueries", "glDeleteQueries"),
    ("glBeginQuery", "glBeginQuery"),
    ("glEndQuery", "glEndQuery"),
    ("glQueryCounter", "glQueryCounterEXT"),
    ("glGetQueryiv", "glGetQueryiv"),
    ("glGetQueryObjectiv", "glGetQueryObjectivEXT"),
    ("glGetQueryObjectui64v", "glGetQueryObjectui64vEXT"),
    ("glGetInteger64v", "glGetInteger64v")]

/-- Where the variables are, and the types that they were declared with. -/
structure GlLoader where
  address : String → Word
  argTypes : String → List FunctionArgumentType
  argTypes_ne : ∀ name, argTypes name ≠ []

def extraGlSymbols (loader : GlLoader) : List DeferredSymbol :=
  extraGlRows.map fun row => ⟨row.1, loader.address row.2, loader.argTypes row.2⟩

theorem extraGlRows_nodup : (extraGlRows.map Prod.fst).Nodup := by decide +kernel

theorem extraGlSymbols_nodup (loader : GlLoader) :
    ((extraGlSymbols loader).map DeferredSymbol.name).Nodup := by
  rw [extraGlSymbols, List.map_map]
  exact extraGlRows_nodup

theorem getElem?_extraGlSymbols (loader : GlLoader) {k : ℕ} {name pointer : String}
    (hrow : extraGlRows[k]? = some (name, pointer)) :
    (extraGlSymbols loader)[k]? =
      some ⟨name, loader.address pointer, loader.argTypes pointer⟩ := by
  rw [extraGlSymbols, List.getElem?_map, hrow]
  rfl

section Store

def setNativeFunc (func : Word) (t : Trampoline) : Trampoline := { t with nativeFunc := func }

/-- Functions stored one after the other in the entries at these indices. -/
def storeAll (stores : List (ℕ × Word)) (trampolines : List Trampoline) : List Trampoline :=
  stores.foldl (fun trampolines p => trampolines.modify p.1 (setNativeFunc p.2)) trampolines

def funcAfter (stores : List (ℕ × Word)) (i : ℕ) (func : Word) : Word :=
  stores.foldl (fun func p => if p.1 = i then p.2 else func) func

theorem getElem?_storeAll (stores : List (ℕ × Word)) (trampolines : List Trampoline) (i : ℕ) :
    (storeAll stores trampolines)[i]? =
      trampolines[i]?.map fun t => setNativeFunc (funcAfter stores i t.nativeFunc) t := by
  induction stores generalizing trampolines with
  | nil => exact Option.map_id'.symm
  | cons p stores ih =>
    rw [storeAll, List.foldl_cons]
    refine (ih _).trans ?_
    rw [List.getElem?_modify]
    cases trampolines[i]? with
    | none => rfl
    | some t =>
      by_cases hi : p.1 = i
      · simp only [funcAfter, List.foldl_cons, if_pos hi]
        rfl
      · simp only [funcAfter, List.foldl_cons, if_neg hi]
        rfl

/-- What is stored at `i` does not depend on what was there, unless nothing is. -/
theorem funcAfter_eq_or (stores : List (ℕ × Word)) (i : ℕ) :
    (∀ func func', funcAfter stores i func = funcAfter stores i func') ∨
      ∀ func, funcAfter stores i func = func := by
  induction stores with
  | nil => exact .inr fun _ => rfl
  | cons p stores ih =>
    by_cases hi : p.1 = i
    · left
      intro func func'
      simp only [funcAfter, List.foldl_cons, if_pos hi]
    · simp only [funcAfter, List.foldl_cons, if_neg hi]
      exact ih

theorem funcAfter_idem (stores : List (ℕ × Word)) (i : ℕ) (func : Word) :
    funcAfter stores i (funcAfter stores i func) = funcAfter stores i func := by
  rcases funcAfter_eq_or stores i with h | h
  · exact h _ _
  · exact h _

/-- A function that is stored at `i`, and no other there, is the one found. -/
theorem funcAfter_of_mem {stores : List (ℕ × Word)} {i : ℕ} {value func : Word}
    (hunique : ∀ p ∈ stores, p.1 = i → p.2 = value)
    (hmem : func = value ∨ (i, value) ∈ stores) : funcAfter stores i func = value := by
  induction stores generalizing func with
  | nil =>
    rcases hmem with h | h
    · exact h
    · cases h
  | cons p stores ih =>
    apply ih fun q hq => hunique q (List.mem_cons_of_mem _ hq)
    dsimp only
    by_cases hi : p.1 = i
    · left
      rw [if_pos hi]
      exact hunique p List.mem_cons_self hi
    · rw [if_neg hi]
      rcases hmem with h | h
      · exact .inl h
      · rcases List.mem_cons.mp h with rfl | h
        · exact absurd rfl hi
        · exact .inr h

theorem storeAll_idem (stores : List (ℕ × Word)) (trampolines : List Trampoline) :
    storeAll stores (storeAll stores trampolines) = storeAll stores trampolines := by
  apply List.ext_getElem?
  intro i
  rw [getElem?_storeAll, getElem?_storeAll, Option.map_map]
  congr 1
  funext t
  change setNativeFunc (funcAfter stores i (funcAfter stores i t.nativeFunc)) t = _
  rw [funcAfter_idem]

end Store

section Routines

def guestRoutine (trampolines : List Trampoline) (id : BitVec 32) : Option Word :=
  (trampolineGetById trampolines id).map Trampoline.guestTrampoline

theorem guestRoutine_store (trampolines : List Trampoline) (id : BitVec 32) (func : Word) :
    guestRoutine (storeNativeFunc trampolines id func) = guestRoutine trampolines := by
  funext id'
  rw [guestRoutine, trampolineGetById, storeNativeFunc, List.getElem?_modify, guestRoutine,
    trampolineGetById]
  cases trampolines[(id' - trampolineIdOffset).toNat]? with
  | none => rfl
  | some t =>
    simp only [Option.map_eq_map, Option.map_some]
    split_ifs <;> rfl

def enterRoutines (routine : BitVec 32 → Option Word) (symbols : List (DeferredSymbol × BitVec 32))
    (known : Finmap (fun _ : String => Word)) : Finmap (fun _ : String => Word) :=
  symbols.foldl (fun known p => match routine (p.2 + trampolineIdOffset) with
    | none => known
    | some address => emplace p.1.name address known) known

def GraphicsState.glStores (glValue : Word → Word) (g : GraphicsState) : List (ℕ × Word) :=
  g.symbolsWithTrampolineIds.map fun p =>
    ((p.2 + trampolineIdOffset - trampolineIdOffset).toNat, glValue p.1.value)

def GraphicsState.assigned (glValue : Word → Word) (g : GraphicsState) : GraphicsState :=
  { g with
    trampolines := storeAll (g.glStores glValue) g.trampolines
    procToGuestRoutine := enterRoutines (guestRoutine g.trampolines) g.symbolsWithTrampolineIds
      g.procToGuestRoutine }

theorem assignGlSymbols_eq (glValue : Word → Word) (symbols : List (DeferredSymbol × BitVec 32))
    (g : GraphicsState)
    (h : ∀ p ∈ symbols, (guestRoutine g.trampolines (p.2 + trampolineIdOffset)).isSome) :
    assignGlSymbols glValue symbols g = .ok { g with
      trampolines := storeAll (symbols.map fun p =>
        ((p.2 + trampolineIdOffset - trampolineIdOffset).toNat, glValue p.1.value)) g.trampolines
      procToGuestRoutine := enterRoutines (guestRoutine g.trampolines) symbols
        g.procToGuestRoutine } := by
  induction symbols generalizing g with
  | nil => rfl
  | cons p symbols ih =>
    have hfirst := h p List.mem_cons_self
    rw [guestRoutine, Option.isSome_map] at hfirst
    obtain ⟨t, ht⟩ := Option.isSome_iff_exists.mp hfirst
    have hroutine : guestRoutine g.trampolines (p.2 + trampolineIdOffset) =
        some t.guestTrampoline := by
      rw [guestRoutine, ht]
      rfl
    rw [assignGlSymbols, ht]
    dsimp only
    rw [ih]
    · simp only [guestRoutine_store, enterRoutines, List.foldl_cons, hroutine]
      rfl
    · intro q hq
      rw [guestRoutine_store]
      exact h q (List.mem_cons_of_mem _ hq)

variable {routine : BitVec 32 → Option Word} {symbols : List (DeferredSymbol × BitVec 32)}
  {known : Finmap (fun _ : String => Word)}

/-- An entered name is an old one or has the address of its entry. -/
theorem lookup_enterRoutines {name : String} {address : Word}
    (h : (enterRoutines routine symbols known).lookup name = some address) :
    known.lookup name = some address ∨
      ∃ p ∈ symbols, p.1.name = name ∧ routine (p.2 + trampolineIdOffset) = some address := by
  induction symbols generalizing known with
  | nil => exact .inl h
  | cons p symbols ih =>
    rw [enterRoutines, List.foldl_cons] at h
    rcases ih h with hknown | ⟨q, hq, hname, hroutine⟩
    · cases hp : routine (p.2 + trampolineIdOffset) with
      | none =>
        rw [hp] at hknown
        exact .inl hknown
      | some value =>
        rw [hp] at hknown
        rcases lookup_emplace hknown with ⟨rfl, rfl⟩ | hold
        · exact .inr ⟨p, List.mem_cons_self, rfl, hp⟩
        · exact .inl hold
    · exact .inr ⟨q, List.mem_cons_of_mem _ hq, hname, hroutine⟩

theorem mem_enterRoutines (hroutine : ∀ p ∈ symbols, (routine (p.2 + trampolineIdOffset)).isSome)
    {name : String} (h : name ∈ known ∨ ∃ p ∈ symbols, p.1.name = name) :
    name ∈ enterRoutines routine symbols known := by
  induction symbols generalizing known with
  | nil =>
    rcases h with h | ⟨p, hp, -⟩
    · exact h
    · cases hp
  | cons p symbols ih =>
    obtain ⟨value, hvalue⟩ := Option.isSome_iff_exists.mp (hroutine p List.mem_cons_self)
    rw [enterRoutines, List.foldl_cons, hvalue]
    apply ih fun q hq => hroutine q (List.mem_cons_of_mem _ hq)
    rcases h with h | ⟨q, hq, rfl⟩
    · exact .inl (mem_emplace (.inr h))
    · rcases List.mem_cons.mp hq with rfl | hq
      · exact .inl (mem_emplace (.inl rfl))
      · exact .inr ⟨q, hq, rfl⟩

/-- Names that are all known already are not entered again. -/
theorem enterRoutines_of_mem (h : ∀ p ∈ symbols, p.1.name ∈ known) :
    enterRoutines routine symbols known = known := by
  induction symbols with
  | nil => rfl
  | cons p symbols ih =>
    have hrest := ih fun q hq => h q (List.mem_cons_of_mem _ hq)
    rw [enterRoutines, List.foldl_cons]
    cases routine (p.2 + trampolineIdOffset) with
    | none => exact hrest
    | some value =>
      have hknown : emplace p.1.name value known = known := if_pos (h p List.mem_cons_self)
      simp only [hknown]
      exact hrest

end Routines

/-- A lookup with the functions that the driver has at the time. -/
def glStep (g : GraphicsState) (call : (Word → Word) × String) :
    Except LookupFault GraphicsState :=
  (eglGetProcAddress call.1 call.2 g).map Prod.snd

/-- The extra entries are the ones at `n` and above that start-up has created, up to
their functions, and the names that are known are theirs. -/
structure GlReady (n : ℕ) (symbols : List DeferredSymbol) (created : List Trampoline)
    (g : GraphicsState) : Prop where
  ids : g.symbolsWithTrampolineIds =
    symbols.mapIdx fun k sym => (sym, (BitVec.ofNat 16 (n + k)).setWidth 32)
  uninitialized : g.glInitialized = false
  entries : ∀ k sym, symbols[k]? = some sym → ∃ t func, created[n + k]? = some t ∧
    t.name = sym.name ∧ g.trampolines[n + k]? = some (setNativeFunc func t)
  routines : ∀ name address, g.procToGuestRoutine.lookup name = some address →
    ∃ k sym t, symbols[k]? = some sym ∧ sym.name = name ∧ created[n + k]? = some t ∧
      address = t.guestTrampoline

theorem toNat_gl_index {i : ℕ} (hi : i < 8191) :
    ((BitVec.ofNat 16 i).setWidth 32 + trampolineIdOffset - trampolineIdOffset).toNat = i := by
  rw [BitVec.add_sub_cancel, BitVec.toNat_setWidth, BitVec.toNat_ofNat]
  omega

namespace GlReady
variable {n : ℕ} {symbols : List DeferredSymbol} {created : List Trampoline} {g : GraphicsState}
  {k : ℕ} {sym : DeferredSymbol}

theorem mem_ids (h : GlReady n symbols created g) {p : DeferredSymbol × BitVec 32}
    (hp : p ∈ g.symbolsWithTrampolineIds) :
    ∃ k sym, symbols[k]? = some sym ∧ p = (sym, (BitVec.ofNat 16 (n + k)).setWidth 32) := by
  rw [h.ids] at hp
  obtain ⟨k, hk⟩ := List.mem_iff_getElem?.mp hp
  rw [List.getElem?_mapIdx] at hk
  obtain ⟨sym, hsym, hp⟩ := Option.map_eq_some_iff.mp hk
  exact ⟨k, sym, hsym, hp.symm⟩

theorem mem_of_row (h : GlReady n symbols created g) (hsym : symbols[k]? = some sym) :
    (sym, (BitVec.ofNat 16 (n + k)).setWidth 32) ∈ g.symbolsWithTrampolineIds := by
  rw [h.ids]
  apply List.mem_of_getElem? (i := k)
  rw [List.getElem?_mapIdx, hsym]
  rfl

variable (hn : n + symbols.length ≤ 8191)
include hn

theorem index_lt (hsym : symbols[k]? = some sym) : n + k < 8191 := by
  have hk := (List.getElem?_eq_some_iff.mp hsym).1
  omega

/-- The guest address of an entry is the one it was created with. -/
theorem guestRoutine (h : GlReady n symbols created g) (hsym : symbols[k]? = some sym) :
    ∃ t, created[n + k]? = some t ∧ t.name = sym.name ∧
      Sober.guestRoutine g.trampolines
        ((BitVec.ofNat 16 (n + k)).setWidth 32 + trampolineIdOffset) = some t.guestTrampoline := by
  obtain ⟨t, func, hcreated, hname, hentry⟩ := h.entries k sym hsym
  refine ⟨t, hcreated, hname, ?_⟩
  rw [Sober.guestRoutine, trampolineGetById, toNat_gl_index (index_lt hn hsym), hentry]
  rfl

theorem routine_isSome (h : GlReady n symbols created g) :
    ∀ p ∈ g.symbolsWithTrampolineIds,
      (Sober.guestRoutine g.trampolines (p.2 + trampolineIdOffset)).isSome := by
  intro p hp
  obtain ⟨k, sym, hsym, rfl⟩ := h.mem_ids hp
  obtain ⟨t, -, -, hroutine⟩ := h.guestRoutine hn hsym
  rw [hroutine]
  rfl

theorem assigned (h : GlReady n symbols created g) (glValue : Word → Word) :
    GlReady n symbols created (g.assigned glValue) where
  ids := h.ids
  uninitialized := h.uninitialized
  entries k sym hsym := by
    obtain ⟨t, func, hcreated, hname, hentry⟩ := h.entries k sym hsym
    refine ⟨t, funcAfter (g.glStores glValue) (n + k) func, hcreated, hname, ?_⟩
    rw [GraphicsState.assigned, getElem?_storeAll, hentry]
    rfl
  routines name address haddress := by
    rcases lookup_enterRoutines haddress with hold | ⟨p, hp, rfl, hroutine⟩
    · exact h.routines name address hold
    · obtain ⟨k, sym, hsym, rfl⟩ := h.mem_ids hp
      obtain ⟨t, hcreated, -, hroutine'⟩ := h.guestRoutine hn hsym
      rw [hroutine', Option.some.injEq] at hroutine
      exact ⟨k, sym, t, hsym, rfl, hcreated, hroutine.symm⟩

theorem mem_assigned (h : GlReady n symbols created g) (glValue : Word → Word)
    {p : DeferredSymbol × BitVec 32} (hp : p ∈ g.symbolsWithTrampolineIds) :
    p.1.name ∈ (g.assigned glValue).procToGuestRoutine :=
  mem_enterRoutines (h.routine_isSome hn) (.inr ⟨p, hp, rfl⟩)

/-- A second loop over the same functions changes nothing. -/
theorem assigned_assigned (h : GlReady n symbols created g) (glValue : Word → Word) :
    (g.assigned glValue).assigned glValue = g.assigned glValue := by
  have hstores : (g.assigned glValue).glStores glValue = g.glStores glValue := rfl
  have hroutines : enterRoutines (Sober.guestRoutine (g.assigned glValue).trampolines)
      (g.assigned glValue).symbolsWithTrampolineIds (g.assigned glValue).procToGuestRoutine =
        (g.assigned glValue).procToGuestRoutine :=
    enterRoutines_of_mem fun p hp => h.mem_assigned hn glValue hp
  rw [GraphicsState.assigned, hroutines, hstores]
  change { g.assigned glValue with
    trampolines := storeAll (g.glStores glValue) (storeAll (g.glStores glValue) g.trampolines) } = _
  rw [storeAll_idem]
  rfl

theorem eglGetProcAddress_eq (h : GlReady n symbols created g) (glValue : Word → Word)
    (name : String) :
    eglGetProcAddress glValue name g =
      ((g.assigned glValue).procToGuestRoutine.lookup name).elim (.error .assertion)
        fun address => .ok (address, g.assigned glValue) := by
  have hassign : assignGlSymbols glValue g.symbolsWithTrampolineIds g =
      .ok (g.assigned glValue) :=
    assignGlSymbols_eq glValue g.symbolsWithTrampolineIds g (h.routine_isSome hn)
  rw [eglGetProcAddress, h.uninitialized, if_neg Bool.false_ne_true, hassign]
  cases hlookup : (g.assigned glValue).procToGuestRoutine.lookup name with
  | none => simp only [hlookup, Option.elim]
  | some address => simp only [hlookup, Option.elim]

/-- A lookup of a name of the table answers the guest address of its entry. -/
theorem eglGetProcAddress_ok (h : GlReady n symbols created g)
    (hnames : (symbols.map DeferredSymbol.name).Nodup) (glValue : Word → Word)
    (hsym : symbols[k]? = some sym) :
    ∃ t, created[n + k]? = some t ∧ t.name = sym.name ∧
      eglGetProcAddress glValue sym.name g = .ok (t.guestTrampoline, g.assigned glValue) := by
  have hmem : sym.name ∈ (g.assigned glValue).procToGuestRoutine :=
    h.mem_assigned hn glValue (h.mem_of_row hsym)
  obtain ⟨address, haddress⟩ := Finmap.mem_iff.mp hmem
  obtain ⟨k', sym', t, hsym', hname, hcreated, rfl⟩ :=
    (h.assigned hn glValue).routines sym.name address haddress
  have hk : k' = k := by
    refine (List.getElem?_inj (l := symbols.map DeferredSymbol.name) ?_ hnames).mp ?_
    · rw [List.length_map]
      exact (List.getElem?_eq_some_iff.mp hsym').1
    · rw [List.getElem?_map, List.getElem?_map, hsym, hsym', Option.map_some, Option.map_some,
        hname]
  subst hk
  obtain ⟨t', -, hcreated', hname', -⟩ := h.entries k' sym hsym
  rw [hcreated, Option.some.injEq] at hcreated'
  subst hcreated'
  refine ⟨t, hcreated, hname', ?_⟩
  rw [h.eglGetProcAddress_eq hn, haddress, Option.elim_some]

/-- Afterwards the entry has the function that the loader found. -/
theorem assigned_entry (h : GlReady n symbols created g) (glValue : Word → Word)
    (hsym : symbols[k]? = some sym) {t : Trampoline} (ht : created[n + k]? = some t) :
    (g.assigned glValue).trampolines[n + k]? = some (setNativeFunc (glValue sym.value) t) := by
  obtain ⟨t', func, hcreated, -, hentry⟩ := h.entries k sym hsym
  rw [ht, Option.some.injEq] at hcreated
  subst hcreated
  have hlast : funcAfter (g.glStores glValue) (n + k) func = glValue sym.value := by
    apply funcAfter_of_mem
    · intro p hp hindex
      obtain ⟨q, hq, rfl⟩ := List.mem_map.mp hp
      obtain ⟨k', sym', hsym', rfl⟩ := h.mem_ids hq
      change ((BitVec.ofNat 16 (n + k')).setWidth 32 + trampolineIdOffset -
        trampolineIdOffset).toNat = n + k at hindex
      rw [toNat_gl_index (index_lt hn hsym')] at hindex
      obtain rfl : k' = k := by omega
      rw [hsym, Option.some.injEq] at hsym'
      rw [hsym']
    · right
      refine List.mem_map.mpr ⟨_, h.mem_of_row hsym, ?_⟩
      rw [toNat_gl_index (index_lt hn hsym)]
  rw [GraphicsState.assigned, getElem?_storeAll, hentry]
  simp only [Option.map_some, setNativeFunc, hlast]

theorem step (h : GlReady n symbols created g) {call : (Word → Word) × String}
    {g' : GraphicsState} (hstep : glStep g call = .ok g') : GlReady n symbols created g' := by
  obtain ⟨result, hlookup, rfl⟩ := ok_of_map hstep
  rw [h.eglGetProcAddress_eq hn] at hlookup
  cases haddress : (g.assigned call.1).procToGuestRoutine.lookup call.2 with
  | none =>
    rw [haddress] at hlookup
    cases hlookup
  | some address =>
    rw [haddress] at hlookup
    cases hlookup
    exact h.assigned hn call.1

theorem run (h : GlReady n symbols created g) {calls : List ((Word → Word) × String)}
    {g' : GraphicsState} (hrun : Run glStep (fun _ _ => True) g calls g') :
    GlReady n symbols created g' :=
  hrun.invariant (fun _ _ _ hready _ hstep => hready.step hn hstep) h

end GlReady

section Start
variable {m : Mapping} {s₀ : TrampolineState}

def SymsOp.NoGl : SymsOp → Prop
  | .createExtraGlTrampolines _ => False
  | _ => True

theorem createVulkanTrampolines_symbolsWithTrampolineIds {symbols : List DynamicSymbol}
    {g g' : SymsState} (h : createVulkanTrampolines symbols g = .ok g') :
    g'.symbolsWithTrampolineIds = g.symbolsWithTrampolineIds := by
  induction symbols generalizing g with
  | nil =>
    cases h
    rfl
  | cons sym symbols ih =>
    rw [createVulkanTrampolines] at h
    split at h
    · cases h
    · split at h
      · cases h
      · have hrest := ih h
        exact hrest

theorem exec_symbolsWithTrampolineIds {op : SymsOp} (hop : op.NoGl) {g g' : SymsState}
    (h : op.exec g = .ok g') : g'.symbolsWithTrampolineIds = g.symbolsWithTrampolineIds := by
  cases op with
  | createExtraGlTrampolines symbols => exact hop.elim
  | addLibrary name symbols =>
    simp only [SymsOp.exec, addLibrary] at h
    split at h
    · cases h
    · split at h
      · cases h
      · cases h
        rfl
  | createVulkanTrampolines symbols => exact createVulkanTrampolines_symbolsWithTrampolineIds h

theorem symsRun_symbolsWithTrampolineIds {ops : List SymsOp} (hops : ∀ op ∈ ops, op.NoGl)
    {g g' : SymsState} (h : symsRun ops g = .ok g') :
    g'.symbolsWithTrampolineIds = g.symbolsWithTrampolineIds := by
  induction ops generalizing g with
  | nil =>
    cases h
    rfl
  | cons op ops ih =>
    rw [symsRun] at h
    cases hexec : op.exec g with
    | error e => simp [hexec] at h
    | ok g₁ =>
      simp only [hexec] at h
      rw [ih (fun o ho => hops o (List.mem_cons_of_mem _ ho)) h,
        exec_symbolsWithTrampolineIds (hops op List.mem_cons_self) hexec]

/-- Each row of the table asks for one creation under its name. -/
theorem getElem?_gl_creations {symbols : List DeferredSymbol}
    (hfun : ∀ sym ∈ symbols, sym.argTypes ≠ []) {k : ℕ} {sym : DeferredSymbol}
    (hsym : symbols[k]? = some sym) :
    ∃ c, (symbols.filterMap DeferredSymbol.createArgs?)[k]? = some c ∧ c.name = sym.name := by
  induction symbols generalizing k with
  | nil => cases hsym
  | cons first symbols ih =>
    have hargs := DeferredSymbol.createArgs?_of_ne (hfun first List.mem_cons_self)
    rw [List.filterMap_cons_some hargs]
    cases k with
    | zero =>
      cases hsym
      exact ⟨_, rfl, rfl⟩
    | succ k => exact ih (fun sym h => hfun sym (List.mem_cons_of_mem _ h)) hsym

theorem length_gl_creations {symbols : List DeferredSymbol}
    (hfun : ∀ sym ∈ symbols, sym.argTypes ≠ []) :
    (symbols.filterMap DeferredSymbol.createArgs?).length = symbols.length := by
  apply List.filterMap_length_eq_length.mpr
  intro sym hsym
  rw [DeferredSymbol.createArgs?_of_ne (hfun sym hsym)]
  rfl

/-- Start-up records each row of the table with the index of its entry. -/
theorem symbolsWithTrampolineIds_of_start
    (hinit : trampolineInit (some m) .initial = some (0, s₀)) {symbols : List DeferredSymbol}
    {before after : List SymsOp} (hbefore : ∀ op ∈ before, op.NoGl)
    (hafter : ∀ op ∈ after, op.NoGl) (hfun : ∀ sym ∈ symbols, sym.argTypes ≠ [])
    (hcount : (before.flatMap SymsOp.creations).length + symbols.length ≤ 8191)
    {g₁ g₂ g₀ : SymsState} (hrun₁ : symsRun before (.initial s₀) = .ok g₁)
    (hcreate : createExtraGlTrampolines symbols g₁ = .ok g₂)
    (hrest : symsRun after g₂ = .ok g₀) :
    g₀.symbolsWithTrampolineIds = symbols.mapIdx fun k sym =>
      (sym, (BitVec.ofNat 16 ((before.flatMap SymsOp.creations).length + k)).setWidth 32) := by
  obtain ⟨hlayout, -⟩ := layout_of_symsRun hrun₁ (layout_of_init hinit) (by
    rw [List.length_nil]
    omega)
  obtain ⟨s', hcreate', -⟩ := createExtraGlTrampolines_layout symbols hlayout (by
    rw [List.nil_append, length_gl_creations hfun]
    exact hcount) hfun
  rw [hcreate, Except.ok.injEq] at hcreate'
  rw [symsRun_symbolsWithTrampolineIds hafter hrest, hcreate']
  change g₁.symbolsWithTrampolineIds ++ _ = _
  rw [symsRun_symbolsWithTrampolineIds hbefore hrun₁]
  rfl

/-- The entry of a row among all entries of start-up. -/
theorem getElem?_gl_entry {symbols : List DeferredSymbol} {before after : List SymsOp}
    {s : TrampolineState}
    (hlayout : Layout m ((before ++ .createExtraGlTrampolines symbols :: after).flatMap
      SymsOp.creations) s)
    (hfun : ∀ sym ∈ symbols, sym.argTypes ≠ []) {k : ℕ} {sym : DeferredSymbol}
    (hsym : symbols[k]? = some sym) :
    ∃ t, s.trampolines[(before.flatMap SymsOp.creations).length + k]? = some t ∧
      t.name = sym.name := by
  obtain ⟨c, hc, hname⟩ := getElem?_gl_creations hfun hsym
  refine ⟨c.entry m.base ((before.flatMap SymsOp.creations).length + k), ?_, hname⟩
  rw [hlayout.trampolines, List.getElem?_mapIdx, List.flatMap_append, List.flatMap_cons,
    List.getElem?_append_right (Nat.le_add_right _ _), Nat.add_sub_cancel_left,
    SymsOp.creations, List.getElem?_append_left (List.getElem?_eq_some_iff.mp hc).1, hc]
  rfl

/-- Start-up leaves the extra entries ready. -/
theorem glReady_of_start (hinit : trampolineInit (some m) .initial = some (0, s₀))
    {symbols : List DeferredSymbol} (before after : List SymsOp)
    (hbefore : ∀ op ∈ before, op.NoGl) (hafter : ∀ op ∈ after, op.NoGl)
    (hcount : ((before ++ .createExtraGlTrampolines symbols :: after).flatMap
      SymsOp.creations).length ≤ 8191) {g₀ : SymsState}
    (hstart : symsRun (before ++ .createExtraGlTrampolines symbols :: after) (.initial s₀) =
      .ok g₀) :
    GlReady (before.flatMap SymsOp.creations).length symbols g₀.trampoline.trampolines
        (.ofSyms g₀) ∧
      (before.flatMap SymsOp.creations).length + symbols.length ≤ 8191 ∧
      Layout m ((before ++ .createExtraGlTrampolines symbols :: after).flatMap SymsOp.creations)
        g₀.trampoline := by
  obtain ⟨hlayout, -⟩ := layout_of_symsRun hstart (layout_of_init hinit)
    (by rwa [List.length_nil, Nat.zero_add])
  rw [List.nil_append] at hlayout
  obtain ⟨g₁, hrun₁, hrest⟩ := symsRun_append hstart
  rw [symsRun] at hrest
  cases hexec : (SymsOp.createExtraGlTrampolines symbols).exec g₁ with
  | error e => simp [hexec] at hrest
  | ok g₂ =>
    simp only [hexec] at hrest
    have hfun := createExtraGlTrampolines_accepts hexec
    have hn : (before.flatMap SymsOp.creations).length + symbols.length ≤ 8191 := by
      simp only [List.flatMap_append, List.flatMap_cons, List.length_append, SymsOp.creations,
        length_gl_creations hfun] at hcount
      omega
    refine ⟨⟨?_, rfl, ?_, ?_⟩, hn, hlayout⟩
    · exact symbolsWithTrampolineIds_of_start hinit hbefore hafter hfun hn hrun₁ hexec hrest
    · intro k sym hsym
      obtain ⟨t, hentry, hname⟩ := getElem?_gl_entry hlayout hfun hsym
      exact ⟨t, t.nativeFunc, hentry, hname, hentry⟩
    · intro name address h
      cases h

end Start

/-- The address that a creation returns is not null. -/
theorem wordAddress_ne_zero (m : Mapping) {i : ℕ} (hi : i < trampolineCodeWords) :
    wordAddress m.base i ≠ 0 := by
  intro h
  have hbase : m.base.toNat ≠ 0 := fun hzero => m.nonnull (BitVec.eq_of_toNat_eq hzero)
  have hfits := m.fits
  have hsum := congrArg BitVec.toNat h
  simp only [trampolineCodeWords, trampolineCodeSize] at hi hfits
  rw [wordAddress, BitVec.toNat_add, BitVec.toNat_ofNat] at hsum
  change _ = 0 at hsum
  omega

/-- The answer can be called if it is not null, and it is null if the driver lacks the
function. -/
def CallableAnswer (answer : Word) (behind : Trampoline) (driver : Word) : Prop :=
  (answer ≠ 0 → behind.nativeFunc ≠ 0) ∧ (driver = 0 → answer = 0)

/-- After any run of lookups, whatever the driver's functions in each, a lookup of a
row of the table answers the guest address of the entry that was created for it, and
leaves the driver's function in that entry. The answer can be told from that of a
missing function if and only if the driver has it. A further lookup with the same
functions answers in the same way and changes nothing. -/
theorem egl_lookup_answers (m : Mapping) (s₀ : TrampolineState)
    (hinit : trampolineInit (some m) .initial = some (0, s₀)) (loader : GlLoader)
    (before after : List SymsOp) (hbefore : ∀ op ∈ before, op.NoGl)
    (hafter : ∀ op ∈ after, op.NoGl)
    (hcount : ((before ++ .createExtraGlTrampolines (extraGlSymbols loader) :: after).flatMap
      SymsOp.creations).length ≤ 8191) (g₀ : SymsState)
    (hstart : symsRun (before ++ .createExtraGlTrampolines (extraGlSymbols loader) :: after)
      (.initial s₀) = .ok g₀)
    (calls : List ((Word → Word) × String)) (g : GraphicsState)
    (hrun : Run glStep (fun _ _ => True) (.ofSyms g₀) calls g)
    (k : ℕ) (name pointer : String) (hrow : extraGlRows[k]? = some (name, pointer))
    (glValue : Word → Word) :
    ∃ t g', g₀.trampoline.trampolines[(before.flatMap SymsOp.creations).length + k]? = some t ∧
      t.name = name ∧ eglGetProcAddress glValue name g = .ok (t.guestTrampoline, g') ∧
      g'.trampolines[(before.flatMap SymsOp.creations).length + k]? =
        some (setNativeFunc (glValue (loader.address pointer)) t) ∧
      (CallableAnswer t.guestTrampoline (setNativeFunc (glValue (loader.address pointer)) t)
        (glValue (loader.address pointer)) ↔ glValue (loader.address pointer) ≠ 0) ∧
      ∀ k' name' pointer', extraGlRows[k']? = some (name', pointer') → ∃ t',
        g₀.trampoline.trampolines[(before.flatMap SymsOp.creations).length + k']? = some t' ∧
        t'.name = name' ∧ eglGetProcAddress glValue name' g' = .ok (t'.guestTrampoline, g') := by
  obtain ⟨hready₀, hn, hlayout⟩ := glReady_of_start hinit before after hbefore hafter hcount hstart
  have hready := hready₀.run hn hrun
  have hnames := extraGlSymbols_nodup loader
  have hsym := getElem?_extraGlSymbols loader hrow
  obtain ⟨t, ht, hname, hanswer⟩ := hready.eglGetProcAddress_ok hn hnames glValue hsym
  refine ⟨t, g.assigned glValue, ht, hname, hanswer,
    hready.assigned_entry hn glValue hsym ht, ?_, ?_⟩
  · have hnonnull : t.guestTrampoline ≠ 0 := by
      have hentry := ht
      rw [hlayout.trampolines, List.getElem?_mapIdx] at hentry
      obtain ⟨c, -, rfl⟩ := Option.map_eq_some_iff.mp hentry
      apply wordAddress_ne_zero
      have hk := (List.getElem?_eq_some_iff.mp hsym).1
      simp only [trampolineCodeWords, trampolineCodeSize]
      omega
    constructor
    · intro hcallable hmissing
      exact hnonnull (hcallable.2 hmissing)
    · intro hdriver
      exact ⟨fun _ => hdriver, fun hmissing => absurd hmissing hdriver⟩
  · intro k' name' pointer' hrow'
    obtain ⟨t', ht', hname', hanswer'⟩ :=
      (hready.assigned hn glValue).eglGetProcAddress_ok hn hnames glValue
        (getElem?_extraGlSymbols loader hrow')
    rw [hready.assigned_assigned hn] at hanswer'
    exact ⟨t', ht', hname', hanswer'⟩

def lowLoader : GlLoader where
  address name := if name = "glFenceSync" then 0x9008 else 0x9000
  argTypes _ := [.none]
  argTypes_ne _ := by decide

/-- Start-up that creates only the extra entries. -/
theorem symsRun_lowLoader : ∃ s₀ g₀, trampolineInit (some lowMapping) .initial = some (0, s₀) ∧
    symsRun [.createExtraGlTrampolines (extraGlSymbols lowLoader)] (.initial s₀) = .ok g₀ := by
  obtain ⟨s₀, hinit, hlayout⟩ := trampolineInit_layout lowMapping
  obtain ⟨s', hcreate, -⟩ := createExtraGlTrampolines_layout (extraGlSymbols lowLoader)
    (g := .initial s₀) hlayout (by decide) (by decide)
  have hstart : symsRun [.createExtraGlTrampolines (extraGlSymbols lowLoader)] (.initial s₀) =
      createExtraGlTrampolines (extraGlSymbols lowLoader) (.initial s₀) := by
    rw [symsRun, SymsOp.exec, hcreate]
    rfl
  exact ⟨s₀, _, hinit, hstart.trans hcreate⟩

/-- A driver with all the functions: the entry of `glFenceSync` gets its function. -/
theorem egl_lookup_answers_present : ∃ s₀ g₀ t g',
    trampolineInit (some lowMapping) .initial = some (0, s₀) ∧
    symsRun [.createExtraGlTrampolines (extraGlSymbols lowLoader)] (.initial s₀) = .ok g₀ ∧
    eglGetProcAddress (fun _ => 0x7000) "glFenceSync" (.ofSyms g₀) = .ok (t.guestTrampoline, g') ∧
    g'.trampolines[13]? = some t ∧ t.nativeFunc = 0x7000 ∧
    CallableAnswer t.guestTrampoline t 0x7000 := by
  obtain ⟨s₀, g₀, hinit, hstart⟩ := symsRun_lowLoader
  obtain ⟨t, g', -, -, hanswer, hentry, hcallable, -⟩ :=
    egl_lookup_answers lowMapping s₀ hinit lowLoader [] [] (by simp) (by simp) (by decide) g₀
      hstart [] _ (.nil _) 13 "glFenceSync" "glFenceSync" (by decide) fun _ => 0x7000
  have hzero : [].flatMap SymsOp.creations = [] := rfl
  rw [hzero, List.length_nil, Nat.zero_add] at hentry
  exact ⟨s₀, g₀, setNativeFunc 0x7000 t, g', hinit, hstart, hanswer, hentry, rfl,
    hcallable.mpr (by decide)⟩

/-- A driver without `glFenceSync`: the guest gets an address all the same, and the entry
behind it has no function. -/
theorem egl_lookup_missing : ∃ s₀ g₀ t g',
    trampolineInit (some lowMapping) .initial = some (0, s₀) ∧
    symsRun [.createExtraGlTrampolines (extraGlSymbols lowLoader)] (.initial s₀) = .ok g₀ ∧
    eglGetProcAddress (fun p => if p = 0x9008 then 0 else 0x7000) "glFenceSync" (.ofSyms g₀) =
      .ok (0x1006c, g') ∧
    g'.trampolines[13]? = some t ∧ t.guestTrampoline = 0x1006c ∧ t.nativeFunc = 0 := by
  obtain ⟨s₀, g₀, hinit, hstart⟩ := symsRun_lowLoader
  obtain ⟨hready, hn, hlayout⟩ := glReady_of_start hinit [] [] (by simp) (by simp) (by decide)
    hstart
  have hsym := getElem?_extraGlSymbols lowLoader (k := 13)
    (show extraGlRows[13]? = some ("glFenceSync", "glFenceSync") by decide)
  obtain ⟨t, ht, -, hanswer⟩ :=
    hready.eglGetProcAddress_ok hn (extraGlSymbols_nodup lowLoader)
      (fun p => if p = 0x9008 then 0 else 0x7000) hsym
  have hguest : t.guestTrampoline = 0x1006c := by
    have hentry := ht
    rw [hlayout.trampolines, List.getElem?_mapIdx] at hentry
    obtain ⟨c, -, rfl⟩ := Option.map_eq_some_iff.mp hentry
    change wordAddress lowMapping.base 27 = 0x1006c
    decide
  rw [hguest] at hanswer
  exact ⟨s₀, g₀, _, _, hinit, hstart, hanswer, hready.assigned_entry hn _ hsym ht, hguest, rfl⟩

end Sober
