import Sober.Linker.Lookup
import Sober.Linker.PackedRelocs
import Sober.Linker.Relr
import Sober.Machine.Bytes

/-! # Relocating a library

The linker applies the relocations of a library in up to four passes: relative ones in
packed form, packed ones, plain ones, and those of the procedure linkage table. Each
entry goes through one of two fast paths, which hand what they do not cover to the
general one, and symbol lookups are served from a cache of one entry. None of this
shows in the result: every entry is computed from a fresh lookup, in the order of the
tables.

Types are those of AArch64; the linker runs on x86-64 and also accepts two types of
that machine.
-/
namespace Sober
open Machine

/-- `ELFW(R_TYPE)`: the `R_GENERIC_*` numbers of AArch64, and two of x86-64. -/
inductive RelocType where
  | none
  | jumpSlot
  | absolute
  | globDat
  | relative
  | irelative
  | copy
  | tlsDtpmod
  | tlsDtprel
  | tlsTprel
  | tlsdesc
  | x86Direct32
  | x86Pc32
  | unknown (rType : BitVec 32)
  deriving DecidableEq

def RelocType.ofNumber (rType : BitVec 32) : RelocType :=
  match rType.toNat with
  | 0 => none
  | 2 => x86Pc32
  | 10 => x86Direct32
  | 257 => absolute
  | 1024 => copy
  | 1025 => globDat
  | 1026 => jumpSlot
  | 1027 => relative
  | 1028 => tlsDtpmod
  | 1029 => tlsDtprel
  | 1030 => tlsTprel
  | 1031 => tlsdesc
  | 1032 => irelative
  | _ => unknown rType

def RelocType.isTls : RelocType → Bool
  | tlsDtpmod | tlsDtprel | tlsTprel | tlsdesc => true
  | _ => false

namespace Rela

def rType (reloc : Rela) : RelocType := .ofNumber (reloc.rInfo.setWidth 32)

def rSym (reloc : Rela) : BitVec 32 := (reloc.rInfo >>> 32).setWidth 32

end Rela

def sttSection : BitVec 8 := 3
def sttTls : BitVec 8 := 6

inductive RelocError where
  /-- A read past the end of the symbol table. -/
  | symtabOutOfBounds (rSym : BitVec 32)
  /-- `async_safe_fatal`: the name of a symbol lies outside the string table. -/
  | strtabOutOfBounds (index : BitVec 32)
  | cannotFindVersion (symName : String)
  | cannotLocateSymbol (symName : String)
  | tlsReferenceToLocalSection (symType : BitVec 8) (rType : RelocType)
  | tlsReferenceToLocalSymbol (symName : Option String) (symType : BitVec 8) (rType : RelocType)
  | noTlsSegment (symName : Option String)
  | nonTlsSymbol (symName : Option String)
  /-- A failed `CHECK`. -/
  | uninitializedTlsModule
  | copyNotSupported
  | unknownType (rType : RelocType)
  | lookup (fault : SymbolFault)
  | unsupportedVerneed (vnVersion : BitVec 16)
  | noNeededLibrary (soname : String)
  | badAndroidHeader
  | packed (fault : PackedFault)

/-- What relocation reads of the library `si` and of the libraries that it is linked
against. Relocation does not write to the tables that these answers come from. -/
structure RelocEnv (Lib Version : Type) where
  si : Lib
  isLinker : Bool
  symtab : BitVec 32 → Option ElfSym
  /-- `get_string`; a name past the end of the table is fatal. -/
  getString : BitVec 32 → Option String
  lookupVersionInfo : BitVec 32 → String → Except RelocError (Option Version)
  /-- `soinfo_do_lookup` over the lookup list. -/
  doLookup : String → Option Version → Except RelocError (Option (Lib × ElfSym))
  soinfo : Lib → SymbolSoinfo
  /-- The module id of the TLS segment. -/
  tlsModule : Lib → Option Word
  /-- What the resolver of an indirect function returns. It reads memory and does not
  write to it. -/
  resolver : Memory → Word → Word

structure RelocState (Lib : Type) where
  memory : Memory
  cacheSymVal : BitVec 32
  cached : Option (Lib × ElfSym)

inductive RelocMode where
  | jumpTable
  | typical
  | general
  deriving DecidableEq

inductive RelocWrite where
  | nothing
  | word (value : Word)
  | half (value : BitVec 32)
  deriving DecidableEq

def halfBytes (value : BitVec 32) : List Byte :=
  List.ofFn fun i : Fin 4 => value.extractLsb' (8 * i) 8

@[simp] theorem length_halfBytes (value : BitVec 32) : (halfBytes value).length = 4 := by
  simp [halfBytes]

def RelocWrite.apply (target : Word) (m : Memory) : RelocWrite → Memory
  | nothing => m
  | word value => write64 m target value
  | half value => writeBytes m target (halfBytes value)

section Process
variable {Lib Version : Type}

namespace RelocState

def initial (memory : Memory) : RelocState Lib := ⟨memory, 0, none⟩

def setCache (st : RelocState Lib) (rSym : BitVec 32) (found : Option (Lib × ElfSym)) :
    RelocState Lib :=
  { st with cacheSymVal := rSym, cached := found }

def write (st : RelocState Lib) (target : Word) (w : RelocWrite) : RelocState Lib :=
  { st with memory := w.apply target st.memory }

end RelocState

variable (env : RelocEnv Lib Version)

namespace RelocEnv

def loadBias : Word := (env.soinfo env.si).loadBias

def target (reloc : Rela) : Word := reloc.rOffset + env.loadBias

/-- The entry of a symbol whose name was read from the table. -/
def own (rSym : BitVec 32) : ElfSym := (env.symtab rSym).getD ⟨0, 0, 0, 0, 0, 0⟩

end RelocEnv

def relocSymName (rSym : BitVec 32) : Except RelocError (Option String) :=
  if rSym = 0 then .ok none
  else match env.symtab rSym with
    | none => .error (.symtabOutOfBounds rSym)
    | some own =>
      match env.getString own.stName with
      | none => .error (.strtabOutOfBounds own.stName)
      | some name => .ok (some name)

/-- An unresolved reference has to be weak. -/
def checkResolved (rSym : BitVec 32) (symName : String) (found : Option (Lib × ElfSym)) :
    Except RelocError (Option (Lib × ElfSym)) :=
  if found.isNone ∧ (env.own rSym).stBind ≠ stbWeak then .error (.cannotLocateSymbol symName)
  else .ok found

def lookupSymbol (rSym : BitVec 32) (symName : String) (st : RelocState Lib) :
    Except RelocError (Option (Lib × ElfSym) × RelocState Lib) :=
  if rSym = st.cacheSymVal then do
    return (← checkResolved env rSym symName st.cached, st)
  else do
    let vi ← env.lookupVersionInfo rSym symName
    let found ← env.doLookup symName vi
    return (← checkResolved env rSym symName found, st.setCache rSym found)

/-- Thread-local storage is referred to in a library that has some, by a symbol of that
type. -/
def checkTls (symName : Option String) (foundIn : Option Lib) (sym : Option ElfSym) :
    Except RelocError Unit :=
  if ∃ lib ∈ foundIn, env.tlsModule lib = none then .error (.noTlsSegment symName)
  else if ∃ s ∈ sym, s.stType ≠ sttTls then .error (.nonTlsSymbol symName)
  else .ok ()

/-- Where a relocation of thread-local storage points to. -/
def tlsSymbol (reloc : Rela) (symName : Option String) (st : RelocState Lib) :
    Except RelocError ((Option Lib × Word) × RelocState Lib) :=
  let own := env.own reloc.rSym
  if reloc.rSym = 0 then do
    -- No symbol stands for the library itself.
    checkTls env symName (some env.si) none
    return ((some env.si, 0), st)
  else if own.stBind = stbLocal then
    .error (if own.stType = sttSection then .tlsReferenceToLocalSection own.stType reloc.rType
      else .tlsReferenceToLocalSymbol symName own.stType reloc.rType)
  else do
    let (found, st) ← lookupSymbol env reloc.rSym (symName.getD "") st
    checkTls env symName (found.map Prod.fst) (found.map Prod.snd)
    return ((found.map Prod.fst, (found.map fun f => f.2.stValue).getD 0), st)

/-- The address of a symbol that was looked up, or what stands for a missing one. -/
def addressOf (m : Memory) (missing : Word) : Option (Lib × ElfSym) → Word
  | some (lib, sym) => (env.soinfo lib).resolveSymbolAddress (env.resolver m) sym
  | none => missing

def plainSymbol (missing : Word) (reloc : Rela) (symName : Option String) (st : RelocState Lib) :
    Except RelocError ((Option Lib × Word) × RelocState Lib) :=
  if reloc.rSym = 0 then .ok ((none, 0), st)
  else do
    let (found, st) ← lookupSymbol env reloc.rSym (symName.getD "") st
    return ((found.map Prod.fst, addressOf env st.memory missing found), st)

def jumpSlotValue (reloc : Rela) (symAddr : Word) : Option Word :=
  if reloc.rType = .jumpSlot then some (symAddr + reloc.rAddend) else none

/-- The types of the second fast path. -/
def typicalValue (reloc : Rela) (symAddr : Word) : Option Word :=
  match reloc.rType with
  | .absolute => some (symAddr + reloc.rAddend)
  | .globDat => some (symAddr + reloc.rAddend)
  | .relative => some (env.loadBias + reloc.rAddend)
  | _ => none

/-- `R_GENERIC_TLS_DTPMOD`: no library has the module id 0. -/
def tlsModuleId : Option Lib → Except RelocError Word
  | none => .ok 0
  | some lib =>
    match env.tlsModule lib with
    | none => .error .uninitializedTlsModule
    | some moduleId => if moduleId = 0 then .error .uninitializedTlsModule else .ok moduleId

def generalWrite (m : Memory) (reloc : Rela) (foundIn : Option Lib) (symAddr : Word) :
    Except RelocError RelocWrite :=
  match reloc.rType with
  | .irelative =>
    -- The linker resolves its own indirect functions before it relocates itself.
    if env.isLinker then .ok .nothing
    else .ok (.word (env.resolver m (env.loadBias + reloc.rAddend)))
  | .copy => .error .copyNotSupported
  | .tlsTprel => .ok (.word (symAddr + reloc.rAddend))
  | .tlsDtpmod => do return .word (← tlsModuleId env foundIn)
  | .tlsDtprel => .ok (.word (symAddr + reloc.rAddend))
  | .x86Direct32 => .ok (.half ((symAddr + reloc.rAddend).setWidth 32))
  | .x86Pc32 => .ok (.half ((symAddr + reloc.rAddend - env.target reloc).setWidth 32))
  | rType => .error (.unknownType rType)

/-- The types of the fast paths, then those of the general path only. -/
def anyWrite (m : Memory) (reloc : Rela) (foundIn : Option Lib) (symAddr : Word) :
    Except RelocError RelocWrite :=
  match jumpSlotValue reloc symAddr <|> typicalValue env reloc symAddr with
  | some value => .ok (.word value)
  | none => generalWrite env m reloc foundIn symAddr

/-- What stands for a weak reference that is not resolved: a reference relative to the
target is made to come out as 0. -/
def missingAddress (reloc : Rela) : Word := if reloc.rType = .x86Pc32 then env.target reloc else 0

def processRelocationGeneral (reloc : Rela) (st : RelocState Lib) :
    Except RelocError (RelocState Lib) := do
  let symName ← relocSymName env reloc.rSym
  if reloc.rType = .none then return st
  let ((foundIn, symAddr), st) ←
    if reloc.rType.isTls then tlsSymbol env reloc symName st
    else plainSymbol env (missingAddress env reloc) reloc symName st
  return st.write (env.target reloc) (← anyWrite env st.memory reloc foundIn symAddr)

/-- `process_relocation_impl` as a fast path for the types that `fastValue` covers. -/
def processRelocationFast (fastValue : Rela → Word → Option Word) (reloc : Rela)
    (st : RelocState Lib) : Except RelocError (RelocState Lib) := do
  let symName ← relocSymName env reloc.rSym
  if reloc.rType = .none then return st
  if reloc.rType.isTls then processRelocationGeneral env reloc st
  else
    let ((_, symAddr), st) ← plainSymbol env 0 reloc symName st
    match fastValue reloc symAddr with
    | some value => return st.write (env.target reloc) (.word value)
    | none =>
      -- The lookup is repeated, and served from the cache.
      processRelocationGeneral env reloc st

def processRelocation : RelocMode → Rela → RelocState Lib → Except RelocError (RelocState Lib)
  | .general => processRelocationGeneral env
  | .jumpTable => processRelocationFast env jumpSlotValue
  | .typical => processRelocationFast env (typicalValue env)

def plainRelocateImpl {S : Type} (process : Rela → S → Except RelocError S) :
    List Rela → S → Except RelocError S
  | [], s => .ok s
  | reloc :: rest, s => do plainRelocateImpl process rest (← process reloc s)

/-- A step that can fail, as a callback that ends the iteration when it does. -/
def relocCallback {S : Type} (process : Rela → S → Except RelocError S) (reloc : Rela)
    (s : Except RelocError S) : Except RelocError S × Bool :=
  match s.bind (process reloc) with
  | .ok s => (.ok s, true)
  | .error e => (.error e, false)

def packedRelocateImpl {S : Type} (process : Rela → S → Except RelocError S) (bytes : List Byte)
    (s : S) : Except RelocError S :=
  match forAllPackedRelocs (relocCallback process) bytes (.ok s) with
  | .ok (s, _) => s
  | .error fault => .error (.packed fault)

/-- The relocation tables of a library. A missing table of words or of plain relocations
is as good as an empty one. -/
structure RelocTables where
  relr : List Word
  androidRelocs : Option (List Byte)
  rela : List Rela
  pltRela : List Rela

def packedSignature : List Byte := [0x41, 0x50, 0x53, 0x32]

def packedBody (bytes : List Byte) : Option (List Byte) :=
  if bytes.take 4 = packedSignature then some (bytes.drop 4) else none

/-- The packed relocations of a library that has some, each by `process`. -/
def relocateAndroid {S : Type} (process : Rela → S → Except RelocError S) (s : S) :
    Option (List Byte) → Except RelocError S
  | none => .ok s
  | some bytes =>
    match packedBody bytes with
    | none => .error .badAndroidHeader
    | some body => packedRelocateImpl process body s

/-- `needs_slow_relocate_loop` is true if every relocation is to be logged. -/
def relocateMode (needsSlowRelocateLoop : Bool) (optMode : RelocMode) : RelocMode :=
  if needsSlowRelocateLoop then .general else optMode

def relocate (needsSlowRelocateLoop : Bool) (tables : RelocTables) (m : Memory) :
    Except RelocError (RelocState Lib) := do
  let mode := relocateMode needsSlowRelocateLoop
  let st := .initial (relocateRelr env.loadBias tables.relr m)
  let st ← relocateAndroid (processRelocation env (mode .typical)) st tables.androidRelocs
  let st ← plainRelocateImpl (processRelocation env (mode .typical)) tables.rela st
  plainRelocateImpl (processRelocation env (mode .jumpTable)) tables.pltRela st

end Process
end Sober
