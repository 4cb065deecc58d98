import Sober.Linker.Relocate
import Sober.Transition.Fallible
import Sober.Transition.Run

/-! # What relocation writes

The value of a relocation depends on its entry, on a fresh lookup of its symbol and, for
an indirect function, on the memory that its resolver finds. Neither the cache nor the
choice between fast and general path shows.
-/
namespace Sober
open Machine
open Transition (Refines)

section Meaning
variable {Lib Version : Type} (env : RelocEnv Lib Version)

/-- A lookup that no cache takes part in. -/
def freshSymbol (rSym : BitVec 32) (symName : String) :
    Except RelocError (Option (Lib × ElfSym)) := do
  let vi ← env.lookupVersionInfo rSym symName
  checkResolved env rSym symName (← env.doLookup symName vi)

def symbolAddress (m : Memory) (missing : Word) (reloc : Rela) (symName : Option String) :
    Except RelocError Word :=
  if reloc.rSym = 0 then .ok 0
  else do return addressOf env m missing (← freshSymbol env reloc.rSym (symName.getD ""))

/-- The library and the offset in its TLS segment that a relocation refers to. -/
def tlsReference (reloc : Rela) (symName : Option String) :
    Except RelocError (Option Lib × Word) :=
  let own := env.own reloc.rSym
  if reloc.rSym = 0 then do
    checkTls env symName (some env.si) none
    return (some env.si, 0)
  else if own.stBind = stbLocal then
    .error (if own.stType = sttSection then .tlsReferenceToLocalSection own.stType reloc.rType
      else .tlsReferenceToLocalSymbol symName own.stType reloc.rType)
  else do
    let found ← freshSymbol env reloc.rSym (symName.getD "")
    checkTls env symName (found.map Prod.fst) (found.map Prod.snd)
    return (found.map Prod.fst, (found.map fun f => f.2.stValue).getD 0)

def relocWrite (m : Memory) (reloc : Rela) : Except RelocError RelocWrite := do
  let symName ← relocSymName env reloc.rSym
  match reloc.rType with
  | .none => return .nothing
  | .jumpSlot | .absolute | .globDat =>
    return .word ((← symbolAddress env m 0 reloc symName) + reloc.rAddend)
  | .relative =>
    -- A symbol is not used, but it has to resolve.
    let _ ← symbolAddress env m 0 reloc symName
    return .word (env.loadBias + reloc.rAddend)
  | .irelative =>
    let _ ← symbolAddress env m 0 reloc symName
    if env.isLinker then return .nothing
    else return .word (env.resolver m (env.loadBias + reloc.rAddend))
  | .copy =>
    let _ ← symbolAddress env m 0 reloc symName
    throw .copyNotSupported
  | .x86Direct32 =>
    return .half (((← symbolAddress env m 0 reloc symName) + reloc.rAddend).setWidth 32)
  | .x86Pc32 =>
    let address ← symbolAddress env m (env.target reloc) reloc symName
    return .half ((address + reloc.rAddend - env.target reloc).setWidth 32)
  | .unknown rType =>
    let _ ← symbolAddress env m 0 reloc symName
    throw (.unknownType (.unknown rType))
  | .tlsTprel | .tlsDtprel =>
    return .word ((← tlsReference env reloc symName).2 + reloc.rAddend)
  | .tlsDtpmod =>
    return .word (← tlsModuleId env (← tlsReference env reloc symName).1)
  | .tlsdesc =>
    let _ ← tlsReference env reloc symName
    throw (.unknownType .tlsdesc)

def applyReloc (reloc : Rela) (m : Memory) : Except RelocError Memory := do
  return (← relocWrite env m reloc).apply (env.target reloc) m

/-- Relative relocations, then packed ones, then plain ones. -/
def relocatedMemory (tables : RelocTables) (m : Memory) : Except RelocError Memory := do
  let m ← relocateAndroid (applyReloc env) (relocateRelr env.loadBias tables.relr m)
    tables.androidRelocs
  (tables.rela ++ tables.pltRela).foldlM (fun m reloc => applyReloc env reloc m) m

end Meaning

section Cache
variable {Lib Version : Type} {env : RelocEnv Lib Version} {m : Memory} {reloc : Rela}
  {st : RelocState Lib}

/-- The cache holds what a lookup of its symbol finds. Symbol 0 is never looked up. -/
def CacheOk (env : RelocEnv Lib Version) (st : RelocState Lib) : Prop :=
  st.cacheSymVal ≠ 0 → ∃ symName vi,
    env.getString (env.own st.cacheSymVal).stName = some symName ∧
    env.lookupVersionInfo st.cacheSymVal symName = .ok vi ∧ env.doLookup symName vi = .ok st.cached

def Shows (env : RelocEnv Lib Version) (st : RelocState Lib) (m : Memory) : Prop :=
  st.memory = m ∧ CacheOk env st

/-- A result together with a state that stands for the memory `m`. -/
def Carries {A : Type} (env : RelocEnv Lib Version) (m : Memory) (p : A × RelocState Lib)
    (a : A) : Prop :=
  p.1 = a ∧ Shows env p.2 m

theorem Shows.initial (m : Memory) : Shows env (.initial m) m :=
  ⟨rfl, fun h => (h rfl).elim⟩

theorem Shows.write (h : Shows env st m) (target : Word) (w : RelocWrite) :
    Shows env (st.write target w) (w.apply target m) :=
  ⟨congrArg (w.apply target) h.1, h.2⟩

theorem relocSymName_ok {rSym : BitVec 32} {symName : Option String} (hsym : rSym ≠ 0)
    (h : relocSymName env rSym = .ok symName) :
    env.symtab rSym = some (env.own rSym) ∧
      env.getString (env.own rSym).stName = some (symName.getD "") := by
  rw [relocSymName, if_neg hsym] at h
  rw [RelocEnv.own]
  cases hown : env.symtab rSym with
  | none =>
    rw [hown] at h
    cases h
  | some own =>
    rw [hown] at h
    refine ⟨rfl, ?_⟩
    dsimp only [Option.getD_some] at h ⊢
    cases hstring : env.getString own.stName with
    | none =>
      rw [hstring] at h
      cases h
    | some name =>
      rw [hstring] at h
      cases h
      rfl

theorem checkResolved_ok {rSym : BitVec 32} {symName : String}
    {found found' : Option (Lib × ElfSym)}
    (h : checkResolved env rSym symName found = .ok found') :
    found' = found ∧ (found = none → (env.own rSym).stBind = stbWeak) := by
  rw [checkResolved] at h
  split_ifs at h with hmissing
  cases h
  refine ⟨rfl, fun hnone => ?_⟩
  subst hnone
  simpa using hmissing

theorem lookupSymbol_refines (h : Shows env st m) {rSym : BitVec 32} {symName : String}
    (hsym : rSym ≠ 0) (hname : env.getString (env.own rSym).stName = some symName) :
    Refines (Carries env m) (lookupSymbol env rSym symName st) (freshSymbol env rSym symName) := by
  obtain ⟨hm, hcache⟩ := h
  by_cases hhit : rSym = st.cacheSymVal
  · obtain ⟨name, vi, hstring, hvi, hcached⟩ := hcache (hhit ▸ hsym)
    rw [← hhit, hname, Option.some.injEq] at hstring
    subst hstring
    have hfresh : freshSymbol env rSym symName = checkResolved env rSym symName st.cached := by
      rw [freshSymbol, hhit, hvi]
      exact congrArg (· >>= checkResolved env st.cacheSymVal symName) hcached
    rw [hfresh, lookupSymbol, if_pos hhit]
    cases hcheck : checkResolved env rSym symName st.cached with
    | error e => exact .error e
    | ok found => exact .ok ⟨rfl, hm, hcache⟩
  · rw [lookupSymbol, if_neg hhit, freshSymbol]
    refine .bind_same _ fun vi hvi => .bind_same _ fun found hfound => ?_
    cases hcheck : checkResolved env rSym symName found with
    | error e => exact .error e
    | ok found' => exact .ok ⟨rfl, hm, fun _ => ⟨symName, vi, hname, hvi, hfound⟩⟩

theorem tlsSymbol_refines (h : Shows env st m) {symName : Option String}
    (hname : relocSymName env reloc.rSym = .ok symName) :
    Refines (Carries env m) (tlsSymbol env reloc symName st) (tlsReference env reloc symName) := by
  rw [tlsSymbol, tlsReference]
  split_ifs with hsym hlocal
  · exact .bind_same _ fun _ _ => .ok ⟨rfl, h⟩
  · exact .error _
  · exact .error _
  · refine (lookupSymbol_refines h hsym (relocSymName_ok hsym hname).2).bind ?_
    rintro ⟨found, st'⟩ _ ⟨rfl, h'⟩
    exact .bind_same _ fun _ _ => .ok ⟨rfl, h'⟩

theorem plainSymbol_refines (h : Shows env st m) {symName : Option String}
    (hname : relocSymName env reloc.rSym = .ok symName) (missing : Word) :
    Refines (fun p address => p.1.2 = address ∧ Shows env p.2 m)
      (plainSymbol env missing reloc symName st) (symbolAddress env m missing reloc symName) := by
  rw [plainSymbol, symbolAddress]
  split_ifs with hsym
  · exact .ok ⟨rfl, h⟩
  · refine (lookupSymbol_refines h hsym (relocSymName_ok hsym hname).2).bind ?_
    rintro ⟨found, st'⟩ _ ⟨rfl, h'⟩
    exact .ok ⟨by rw [h'.1], h'⟩

end Cache

section Symbols
variable {Lib Version : Type} {env : RelocEnv Lib Version} {m : Memory} {reloc : Rela}

def RelocType.isAddress : RelocType → Bool
  | jumpSlot | absolute | globDat => true
  | _ => false

/-- What it takes for such a relocation to succeed, and what it writes. -/
theorem relocWrite_address {w : RelocWrite} (htype : reloc.rType.isAddress = true)
    (hsym : reloc.rSym ≠ 0) (h : relocWrite env m reloc = .ok w) :
    ∃ symName vi found, env.symtab reloc.rSym = some (env.own reloc.rSym) ∧
      env.getString (env.own reloc.rSym).stName = some symName ∧
      env.lookupVersionInfo reloc.rSym symName = .ok vi ∧ env.doLookup symName vi = .ok found ∧
      (found = none → (env.own reloc.rSym).stBind = stbWeak) ∧
      w = .word (addressOf env m 0 found + reloc.rAddend) := by
  obtain ⟨symName, hname, hrest⟩ := Transition.ok_of_bind h
  have hword : (do return .word ((← symbolAddress env m 0 reloc symName) + reloc.rAddend) :
      Except RelocError RelocWrite) = .ok w := by
    cases htype' : reloc.rType <;> simp_all [RelocType.isAddress]
  obtain ⟨address, haddress, hw⟩ := Transition.ok_of_bind hword
  rw [symbolAddress, if_neg hsym] at haddress
  obtain ⟨found', hfresh, hfound'⟩ := Transition.ok_of_bind haddress
  obtain ⟨vi, hvi, hlookup⟩ := Transition.ok_of_bind hfresh
  obtain ⟨found, hfound, hcheck⟩ := Transition.ok_of_bind hlookup
  obtain ⟨rfl, hweak⟩ := checkResolved_ok hcheck
  cases hfound'
  cases hw
  obtain ⟨hown, hstring⟩ := relocSymName_ok hsym hname
  exact ⟨_, vi, _, hown, hstring, hvi, hfound, hweak, rfl⟩

end Symbols

section Paths
variable {Lib Version : Type} {env : RelocEnv Lib Version} {m : Memory} {reloc : Rela}
  {st : RelocState Lib}

section Spec
variable {symName : Option String}

theorem applyReloc_error {e : RelocError} (hname : relocSymName env reloc.rSym = .error e) :
    applyReloc env reloc m = .error e := by
  rw [applyReloc, relocWrite, hname]
  rfl

variable (hname : relocSymName env reloc.rSym = .ok symName)
include hname

theorem applyReloc_none (h : reloc.rType = .none) : applyReloc env reloc m = .ok m := by
  rw [applyReloc, relocWrite, hname, h]
  rfl

/-- The switch of the code, for a relocation of thread-local storage. -/
theorem applyReloc_tls (h : reloc.rType.isTls = true) :
    applyReloc env reloc m = (do
      let reference ← tlsReference env reloc symName
      let w ← anyWrite env m reloc reference.1 reference.2
      return w.apply (env.target reloc) m) := by
  rw [applyReloc, relocWrite, hname]
  cases htype : reloc.rType
  case tlsDtpmod | tlsDtprel | tlsTprel | tlsdesc =>
    simp [anyWrite, jumpSlotValue, typicalValue, generalWrite, htype]
    rfl
  all_goals simp [RelocType.isTls, htype] at h

/-- The switch of the code, for any other relocation. -/
theorem applyReloc_plain (hnone : reloc.rType ≠ .none) (h : reloc.rType.isTls = false) :
    applyReloc env reloc m = (do
      let address ← symbolAddress env m (missingAddress env reloc) reloc symName
      let w ← anyWrite env m reloc none address
      return w.apply (env.target reloc) m) := by
  rw [applyReloc, relocWrite, hname]
  cases htype : reloc.rType
  case none => exact (hnone htype).elim
  case tlsDtpmod | tlsDtprel | tlsTprel | tlsdesc => simp [RelocType.isTls, htype] at h
  all_goals
    simp [anyWrite, jumpSlotValue, typicalValue, generalWrite, missingAddress, htype]
    rfl

end Spec

/-- Only thread-local storage depends on the library that a symbol was found in. -/
theorem anyWrite_foundIn (h : reloc.rType.isTls = false) (foundIn : Option Lib) (address : Word) :
    anyWrite env m reloc foundIn address = anyWrite env m reloc none address := by
  cases htype : reloc.rType
  case tlsDtpmod | tlsDtprel | tlsTprel | tlsdesc => simp [RelocType.isTls, htype] at h
  all_goals simp only [anyWrite, generalWrite, htype]

theorem processRelocationGeneral_refines (h : Shows env st m) :
    Refines (Shows env) (processRelocationGeneral env reloc st) (applyReloc env reloc m) := by
  rw [processRelocationGeneral]
  refine (Refines.refl _).bind_left (fun _ => applyReloc_error) ?_
  rintro symName _ rfl hname
  by_cases hnone : reloc.rType = .none
  · rw [if_pos hnone, applyReloc_none hname hnone]
    exact .ok h
  cases htls : reloc.rType.isTls with
  | true =>
    rw [if_neg hnone, if_pos rfl, applyReloc_tls hname htls]
    refine (tlsSymbol_refines h hname).bind ?_
    rintro ⟨⟨foundIn, offset⟩, st'⟩ _ ⟨rfl, rfl, hcache⟩
    exact .bind_same _ fun w _ => .ok (Shows.write ⟨rfl, hcache⟩ _ w)
  | false =>
    rw [if_neg hnone, if_neg Bool.false_ne_true, applyReloc_plain hname hnone htls]
    refine (plainSymbol_refines h hname _).bind ?_
    rintro ⟨⟨foundIn, address⟩, st'⟩ _ ⟨rfl, rfl, hcache⟩
    dsimp only
    rw [anyWrite_foundIn htls foundIn]
    exact .bind_same _ fun w _ => .ok (Shows.write ⟨rfl, hcache⟩ _ w)

/-- The value of a fast path is the value of the general path. -/
def Covers (env : RelocEnv Lib Version) (fastValue : Rela → Word → Option Word) : Prop :=
  ∀ reloc address value, fastValue reloc address = some value →
    reloc.rType ≠ .x86Pc32 ∧ ∀ m, anyWrite env m reloc none address = .ok (.word value)

theorem covers_jumpSlotValue : Covers env jumpSlotValue := by
  intro reloc address value h
  rw [jumpSlotValue] at h
  split_ifs at h with htype
  exact ⟨by simp [htype], fun m => by simpa [anyWrite, jumpSlotValue, htype] using h⟩

theorem covers_typicalValue : Covers env (typicalValue env) := by
  intro reloc address value h
  have hnot : reloc.rType ≠ .jumpSlot ∧ reloc.rType ≠ .x86Pc32 := by
    constructor <;>
    · intro htype
      simp [typicalValue, htype] at h
  exact ⟨hnot.2, fun m => by simp [anyWrite, jumpSlotValue, hnot.1, h]⟩

/-- A lookup fails or not, whatever stands for a missing symbol. -/
theorem symbolAddress_error {missing : Word} {symName : Option String} {e : RelocError}
    (h : symbolAddress env m missing reloc symName = .error e) (missing' : Word) :
    symbolAddress env m missing' reloc symName = .error e := by
  rw [symbolAddress] at h ⊢
  split_ifs at h ⊢ with hsym
  cases hfresh : freshSymbol env reloc.rSym (symName.getD "") with
  | error e' =>
    rw [hfresh] at h
    exact h
  | ok found =>
    rw [hfresh] at h
    cases h

theorem processRelocationFast_refines {fastValue : Rela → Word → Option Word}
    (hcovers : Covers env fastValue) (h : Shows env st m) :
    Refines (Shows env) (processRelocationFast env fastValue reloc st)
      (applyReloc env reloc m) := by
  rw [processRelocationFast]
  refine (Refines.refl _).bind_left (fun _ => applyReloc_error) ?_
  rintro symName _ rfl hname
  by_cases hnone : reloc.rType = .none
  · rw [if_pos hnone, applyReloc_none hname hnone]
    exact .ok h
  cases htls : reloc.rType.isTls with
  | true =>
    rw [if_neg hnone, if_pos rfl]
    exact processRelocationGeneral_refines h
  | false =>
    rw [if_neg hnone, if_neg Bool.false_ne_true]
    have hspec := applyReloc_plain (m := m) hname hnone htls
    refine (plainSymbol_refines h hname 0).bind_left ?_ ?_
    · intro e he
      rw [hspec, symbolAddress_error he]
      rfl
    · rintro ⟨⟨foundIn, symAddr⟩, st'⟩ _ ⟨rfl, h'⟩ hsymbol
      cases hfast : fastValue reloc symAddr with
      | none =>
        dsimp only
        rw [hfast]
        exact processRelocationGeneral_refines h'
      | some value =>
        obtain ⟨htype, hvalue⟩ := hcovers reloc symAddr value hfast
        have hmissing : missingAddress env reloc = 0 := if_neg htype
        dsimp only at hsymbol ⊢
        rw [hspec, hmissing, hsymbol, hfast]
        simp only [hvalue, bind, Except.bind, pure, Except.pure]
        exact .ok (h'.write _ _)

theorem processRelocation_refines (mode : RelocMode) (h : Shows env st m) :
    Refines (Shows env) (processRelocation env mode reloc st) (applyReloc env reloc m) := by
  cases mode with
  | jumpTable => exact processRelocationFast_refines covers_jumpSlotValue h
  | typical => exact processRelocationFast_refines covers_typicalValue h
  | general => exact processRelocationGeneral_refines h

end Paths

section Traversal
variable {S T : Type} {R : S → T → Prop}

/-- Callbacks that keep a relation and continue together. -/
def CallbacksAgree (R : S → T → Prop) (f : Rela → S → S × Bool) (g : Rela → T → T × Bool) : Prop :=
  ∀ reloc s t, R s t → R (f reloc s).1 (g reloc t).1 ∧ (f reloc s).2 = (g reloc t).2

variable {f : Rela → S → S × Bool} {g : Rela → T → T × Bool}

theorem packedGroup_refines (h : CallbacksAgree R f g) (header : GroupHeader) (n : ℕ)
    (c : PackedCursor) {s : S} {t : T} (hst : R s t) :
    Refines (fun p q => p.1 = q.1 ∧ R p.2 q.2) (packedGroup f header n c s)
      (packedGroup g header n c t) := by
  induction n generalizing c s t with
  | zero => exact .ok ⟨rfl, hst⟩
  | succ n ih =>
    rw [packedGroup, packedGroup]
    refine .bind_same _ fun c' _ => ?_
    obtain ⟨hR, hbool⟩ := h c'.reloc s t hst
    rcases hf : f c'.reloc s with ⟨s', bs⟩
    rcases hg : g c'.reloc t with ⟨t', bt⟩
    rw [hf, hg] at hR hbool
    obtain rfl : bs = bt := hbool
    cases bs with
    | true => exact ih c' hR
    | false => exact .ok ⟨rfl, hR⟩

theorem packedGroups_refines (h : CallbacksAgree R f g) (numRelocs : Word) (bound : ℕ) (idx : Word)
    (c : PackedCursor) {s : S} {t : T} (hst : R s t) :
    Refines (fun p q => R p.1 q.1) (packedGroups f numRelocs bound idx c s)
      (packedGroups g numRelocs bound idx c t) := by
  induction bound generalizing idx c s t with
  | zero => exact .error _
  | succ bound ih =>
    rw [packedGroups, packedGroups]
    split_ifs with hmore
    · refine .bind_same _ fun header _ => ?_
      refine (packedGroup_refines h header.1 header.1.size.toNat header.2 hst).bind ?_
      rintro ⟨c?, s'⟩ ⟨_, t'⟩ ⟨rfl, hst'⟩
      cases c? with
      | none => exact .ok hst'
      | some c' => exact ih _ c' hst'
    · exact .ok hst

theorem forAllPackedRelocs_refines (h : CallbacksAgree R f g) (bytes : List Byte) {s : S} {t : T}
    (hst : R s t) :
    Refines (fun p q => R p.1 q.1) (forAllPackedRelocs f bytes s)
      (forAllPackedRelocs g bytes t) := by
  rw [forAllPackedRelocs, forAllPackedRelocs]
  refine .bind_same _ fun numRelocs _ => .bind_same _ fun offset _ => ?_
  exact packedGroups_refines h _ _ _ _ hst

variable {process : Rela → S → Except RelocError S} {process' : Rela → T → Except RelocError T}

theorem relocCallback_agree
    (h : ∀ reloc s t, R s t → Refines R (process reloc s) (process' reloc t)) :
    CallbacksAgree (Refines R) (relocCallback process) (relocCallback process') := by
  intro reloc s t hst
  have hnext : Refines R (s.bind (process reloc)) (t.bind (process' reloc)) := hst.bind (h reloc)
  rw [relocCallback, relocCallback]
  generalize s.bind (process reloc) = s' at hnext
  generalize t.bind (process' reloc) = t' at hnext
  cases hnext with
  | ok h' => exact ⟨.ok h', rfl⟩
  | error e => exact ⟨.error e, rfl⟩

theorem relocateAndroid_refines
    (h : ∀ reloc s t, R s t → Refines R (process reloc s) (process' reloc t)) {s : S} {t : T}
    (hst : R s t) (bytes? : Option (List Byte)) :
    Refines R (relocateAndroid process s bytes?) (relocateAndroid process' t bytes?) := by
  cases bytes? with
  | none => exact .ok hst
  | some bytes =>
    rw [relocateAndroid, relocateAndroid]
    cases packedBody bytes with
    | none => exact .error _
    | some body =>
      have hall := forAllPackedRelocs_refines (relocCallback_agree h) body (.ok hst)
      dsimp only
      rw [packedRelocateImpl, packedRelocateImpl]
      generalize forAllPackedRelocs (relocCallback process) body (.ok s) = x at hall
      generalize forAllPackedRelocs (relocCallback process') body (.ok t) = y at hall
      cases hall with
      | ok hend => exact hend
      | error fault => exact .error _

theorem plainRelocateImpl_refines
    (h : ∀ reloc s t, R s t → Refines R (process reloc s) (process' reloc t)) (relocs : List Rela)
    {s : S} {t : T} (hst : R s t) :
    Refines R (plainRelocateImpl process relocs s)
      (relocs.foldlM (fun t reloc => process' reloc t) t) := by
  induction relocs generalizing s t with
  | nil => exact .ok hst
  | cons reloc rest ih =>
    rw [plainRelocateImpl, List.foldlM_cons]
    exact (h reloc s t hst).bind fun _ _ => ih

end Traversal

section Result
variable {Lib Version : Type} (env : RelocEnv Lib Version)

theorem relocate_refines (needsSlowRelocateLoop : Bool) (tables : RelocTables) (m : Memory) :
    Refines (Shows env) (relocate env needsSlowRelocateLoop tables m)
      (relocatedMemory env tables m) := by
  have hprocess (mode : RelocMode) (reloc : Rela) (st : RelocState Lib) (m : Memory)
      (h : Shows env st m) :
      Refines (Shows env) (processRelocation env mode reloc st) (applyReloc env reloc m) :=
    processRelocation_refines mode h
  rw [relocate, relocatedMemory]
  refine (relocateAndroid_refines (hprocess _) (.initial _) tables.androidRelocs).bind ?_
  intro st m h
  rw [List.foldlM_append]
  exact (plainRelocateImpl_refines (hprocess _) tables.rela h).bind fun st' m' h' =>
    plainRelocateImpl_refines (hprocess _) tables.pltRela h'

/-- In every mode, relocation fails or succeeds and leaves memory as the meaning of the
tables says: neither the fast paths nor the cache of lookups shows. -/
theorem relocate_eq_relocatedMemory (needsSlowRelocateLoop : Bool) (tables : RelocTables)
    (m : Memory) :
    (relocate env needsSlowRelocateLoop tables m).map RelocState.memory =
      relocatedMemory env tables m :=
  (relocate_refines env needsSlowRelocateLoop tables m).map_eq fun _ _ h => h.1

end Result
end Sober
