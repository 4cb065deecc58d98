import Sober.Symbols.Library

/-! # Symbol lookup

A symbol is searched in one library after the other. A library with a GNU hash table is
first asked through a Bloom filter; a bucket of the table leads to a run of consecutive
symbols that share it. Other libraries hold the symbols that were entered by hand, and
those of a System V hash table.

Reads outside the tables and the aborts of the code are faults.
-/
namespace Sober
open Machine

def cString (table : List Byte) : List Byte := table.takeWhile (· ≠ 0)

/-- A name as the C string that the code compares. A character stands for one byte. -/
def nameBytes (name : String) : List Byte :=
  cString (name.toList.map fun c => BitVec.ofNat 8 c.toNat)

def nameOfBytes (bytes : List Byte) : String :=
  String.ofList (bytes.map fun b => Char.ofNat b.toNat)

def calculateGnuHash (name : List Byte) : BitVec 32 :=
  name.foldl (fun h c => h + ((h <<< 5) + c.setWidth 32)) 5381

def calculateElfHash (name : List Byte) : BitVec 32 :=
  name.foldl (fun h c =>
    let h := (h <<< 4) + c.setWidth 32
    let g := h &&& 0xf0000000
    (h ^^^ g) ^^^ (g >>> 24)) 0

inductive SymbolFault where
  | outOfBounds
  | divisionByZero
  /-- The abort of `get_string`. -/
  | strtabOutOfBounds
  /-- The abort of `find_verdef_version_index`. -/
  | invalidVerdef
  | nullBloomFilter
  | endlessChain
  deriving DecidableEq

/-- `ElfW(Verdef)` with the name of its first `ElfW(Verdaux)`. -/
structure Verdef where
  vdVersion : BitVec 16
  vdFlags : BitVec 16
  vdNdx : BitVec 16
  vdCnt : BitVec 16
  vdHash : BitVec 32
  vdaName : BitVec 32

structure VersionInfo where
  elfHash : BitVec 32
  name : String

/-- A GNU hash table. The chain has an entry for every symbol from `symOffset` on. -/
structure GnuHash where
  nbucket : ℕ
  symOffset : ℕ
  /-- One less than the number of words of the filter. -/
  maskwords : BitVec 32
  shift2 : BitVec 32
  bloomFilter : List Word
  bucket : List (BitVec 32)
  chain : List (BitVec 32)

structure SysvHash where
  nbucket : ℕ
  bucket : List (BitVec 32)
  chain : List (BitVec 32)

structure LinkerSoinfo where
  soinfo : SymbolSoinfo
  symtab : List ElfSym
  strtab : List Byte
  versym : Option (List (BitVec 16))
  verdefs : List Verdef
  gnu : GnuHash
  sysv : SysvHash

namespace ElfSym

def stBind (sym : ElfSym) : BitVec 8 := sym.stInfo >>> 4

def stType (sym : ElfSym) : BitVec 8 := sym.stInfo &&& 0xF

end ElfSym

def stbLocal : BitVec 8 := 0
def stbGlobal : BitVec 8 := 1
def stbWeak : BitVec 8 := 2

def isSymbolGlobalAndDefined (sym : ElfSym) : Bool :=
  (sym.stBind = stbGlobal ∨ sym.stBind = stbWeak) ∧ sym.stShndx ≠ 0

section Strings

/-- `strcmp(...) == 0` of the bytes from some place of a table on with a name. -/
def strcmpEq : List Byte → List Byte → Except SymbolFault Bool
  | [], _ => .error .outOfBounds
  | b :: _, [] => .ok (b = 0)
  | b :: table, c :: name => if b = c then strcmpEq table name else .ok false

/-- `memcmp(...) == 0` of a place in a table with some bytes, if the table has so many. -/
def boundedCompare (table : List Byte) (index : ℕ) (needle : List Byte) : Bool :=
  index + needle.length ≤ table.length ∧ (table.drop index).take needle.length = needle

/-- `get_string`: the rest of the table from an index on. -/
def LinkerSoinfo.getString (si : LinkerSoinfo) (index : BitVec 32) :
    Except SymbolFault (List Byte) :=
  if si.strtab.length ≤ index.toNat then .error .strtabOutOfBounds
  else .ok (si.strtab.drop index.toNat)

/-- An entry of a table that the code reads without a check. -/
def readEntry {A : Type} (table : List A) (n : ℕ) : Except SymbolFault A :=
  match table[n]? with
  | some a => .ok a
  | none => .error .outOfBounds

end Strings

section Versions

def versymNotNeeded : BitVec 16 := 0
def versymGlobal : BitVec 16 := 1
def versymHiddenBit : BitVec 16 := 0x8000

/-- The comparison of `check_symbol_version`. -/
def versionAccepts (verneed verdef : BitVec 16) : Bool :=
  if verneed = versymNotNeeded then verdef &&& versymHiddenBit = 0
  else verneed = verdef &&& ~~~versymHiddenBit

def checkSymbolVersion (versym : Option (List (BitVec 16))) (n : ℕ) (verneed : BitVec 16) :
    Except SymbolFault Bool :=
  match versym with
  | none => .ok true
  | some table => do return versionAccepts verneed (← readEntry table n)

/-- The loop of `find_verdef_version_index`; the version of the file itself is skipped. -/
def findVerdefLoop (si : LinkerSoinfo) (vi : VersionInfo) :
    List Verdef → Except SymbolFault (BitVec 16)
  | [] => .ok versymGlobal
  | verdef :: rest =>
    if verdef.vdVersion ≠ 1 then .error .invalidVerdef
    else if verdef.vdFlags &&& 1 ≠ 0 then findVerdefLoop si vi rest
    else if verdef.vdCnt = 0 then .error .invalidVerdef
    else if verdef.vdHash = vi.elfHash then do
      if ← strcmpEq (← si.getString verdef.vdaName) (nameBytes vi.name) then return verdef.vdNdx
      else findVerdefLoop si vi rest
    else findVerdefLoop si vi rest

def findVerdefVersionIndex (si : LinkerSoinfo) :
    Option VersionInfo → Except SymbolFault (BitVec 16)
  | none => .ok versymNotNeeded
  | some vi => findVerdefLoop si vi si.verdefs

end Versions

namespace GnuHash
variable (g : GnuHash)

/-- The test of the Bloom filter: two bits of one word. The shift takes the low five bits
of `gnu_shift2_`. -/
def bloomTest (hash : BitVec 32) : Except SymbolFault Bool := do
  let bloomWord ← readEntry g.bloomFilter ((hash / 64) &&& g.maskwords).toNat
  let h1 := (hash % 64).toNat
  let h2 := ((hash >>> (g.shift2.toNat % 32)) % 64).toNat
  return 1 &&& (bloomWord >>> h1) &&& (bloomWord >>> h2) = 1

/-- `gnu_bucket_[hash % gnu_nbucket_]` -/
def bucketHead (hash : BitVec 32) : Except SymbolFault ℕ :=
  if g.nbucket = 0 then .error .divisionByZero
  else do return (← readEntry g.bucket (hash.toNat % g.nbucket)).toNat

def chainFrom (n : ℕ) : Except SymbolFault (List (BitVec 32)) :=
  if n < g.symOffset then .error .outOfBounds else .ok (g.chain.drop (n - g.symOffset))

/-- The loop over a chain, which the lowest bit ends. -/
def chainLoop (test : ℕ → BitVec 32 → Except SymbolFault Bool) :
    List (BitVec 32) → ℕ → Except SymbolFault (Option ℕ)
  | [], _ => .error .outOfBounds
  | chainValue :: rest, n => do
    if ← test n chainValue then return some n
    else if chainValue &&& 1 = 0 then chainLoop test rest (n + 1)
    else return none

/-- The way to a bucket that is not empty, and from there to the chain. The loop is made
when the bucket is known. -/
def search (hash : BitVec 32)
    (test : Except SymbolFault (ℕ → BitVec 32 → Except SymbolFault Bool)) :
    Except SymbolFault (Option ℕ) := do
  if ← g.bloomTest hash then
    let n ← g.bucketHead hash
    if n = 0 then return none
    else chainLoop (← test) (← g.chainFrom n) n
  else return none

end GnuHash

namespace LinkerSoinfo
variable (si : LinkerSoinfo) (name : String) (vi : Option VersionInfo)

def plainTest (verneed : BitVec 16) (n : ℕ) : Except SymbolFault Bool := do
  if !(← checkSymbolVersion si.versym n verneed) then return false
  else
    let sym ← readEntry si.symtab n
    if !(← strcmpEq (← si.getString sym.stName) (nameBytes name)) then return false
    else return isSymbolGlobalAndDefined sym

def slowTest (hash : BitVec 32) (verneed : BitVec 16) (n : ℕ) (chainValue : BitVec 32) :
    Except SymbolFault Bool :=
  if (chainValue ^^^ hash) >>> 1 ≠ 0 then .ok false else si.plainTest name verneed n

/-- The test of `soinfo_do_lookup_impl`, which compares within the bounds of the string
table and computes the version index when it first needs it. -/
def fastTest (hash : BitVec 32) (n : ℕ) (chainValue : BitVec 32) : Except SymbolFault Bool := do
  if chainValue >>> 1 ≠ hash >>> 1 then return false
  else
    let verneed ← findVerdefVersionIndex si vi
    if !(← checkSymbolVersion si.versym n verneed) then return false
    else
      let sym ← readEntry si.symtab n
      if !boundedCompare si.strtab sym.stName.toNat (nameBytes name ++ [0]) then return false
      else return isSymbolGlobalAndDefined sym

def symbolAt : Option ℕ → Except SymbolFault (Option ElfSym)
  | none => .ok none
  | some n => do return some (← readEntry si.symtab n)

/-- `gnu_lookup` computes the version index before it walks the chain. -/
def gnuLookup : Except SymbolFault (Option ElfSym) := do
  let hash := calculateGnuHash (nameBytes name)
  let slow := do return si.slowTest name hash (← findVerdefVersionIndex si vi)
  si.symbolAt (← si.gnu.search hash slow)

/-- The loop of `elf_lookup`. It can visit every symbol once; a longer walk does not
end. -/
def elfChainLoop (verneed : BitVec 16) : ℕ → ℕ → Except SymbolFault (Option ElfSym)
  | 0, _ => .error .endlessChain
  | bound + 1, n =>
    if n = 0 then .ok none
    else do
      if ← si.plainTest name verneed n then si.symbolAt (some n)
      else elfChainLoop verneed bound (← readEntry si.sysv.chain n).toNat

def elfLookup : Except SymbolFault (Option ElfSym) := do
  let hash := calculateElfHash (nameBytes name)
  if si.sysv.nbucket = 0 then throw .divisionByZero
  let verneed ← findVerdefVersionIndex si vi
  let n ← readEntry si.sysv.bucket (hash.toNat % si.sysv.nbucket)
  si.elfChainLoop name verneed (si.symtab.length + 1) n.toNat

def findSymbolByName : Except SymbolFault (Option ElfSym) :=
  match si.soinfo.customSymbols.lookup name with
  | some sym => .ok (some sym)
  | none =>
    if si.soinfo.isGnuHash then si.gnuLookup name vi
    else if si.soinfo.bucket ≠ 0 then si.elfLookup name vi
    else .ok none

def needsSysvLookup : Bool := !si.soinfo.isGnuHash

/-- One library in `soinfo_do_lookup_impl`. The fast variant takes it for granted that
there is a Bloom filter. -/
def doLookupIn (isGeneral : Bool) : Except SymbolFault (Option ElfSym) :=
  if isGeneral ∧ si.needsSysvLookup then si.findSymbolByName name vi
  else if si.needsSysvLookup then .error .nullBloomFilter
  else do
    let hash := calculateGnuHash (nameBytes name)
    si.symbolAt (← si.gnu.search hash (.ok (si.fastTest name vi hash)))

end LinkerSoinfo

def soinfoDoLookupImpl (isGeneral : Bool) (name : String) (vi : Option VersionInfo) :
    List LinkerSoinfo → Except SymbolFault (Option (LinkerSoinfo × ElfSym))
  | [] => .ok none
  | si :: rest => do
    match ← si.doLookupIn name vi isGeneral with
    | some sym => return some (si, sym)
    | none => soinfoDoLookupImpl isGeneral name vi rest

/-- `SymbolLookupList`: a place in front for a library that asks to be searched first,
and the number of reasons to take the slow path. -/
structure SymbolLookupList where
  symbolic : Option LinkerSoinfo
  libs : List LinkerSoinfo
  slowPathCount : ℕ

namespace SymbolLookupList

def slowCount (si : LinkerSoinfo) : ℕ := if si.needsSysvLookup then 1 else 0

def ofGroups (lookupTracingEnabled : Bool) (globalGroup localGroup : List LinkerSoinfo) :
    SymbolLookupList where
  symbolic := none
  libs := globalGroup ++ localGroup
  slowPathCount := (globalGroup ++ localGroup).foldl (fun count si => count + slowCount si)
    (if lookupTracingEnabled then 1 else 0)

/-- `set_dt_symbolic_lib`; the empty place does not need a System V lookup. -/
def setDtSymbolicLib (list : SymbolLookupList) (lib : Option LinkerSoinfo) : SymbolLookupList where
  symbolic := lib
  libs := list.libs
  slowPathCount := list.slowPathCount - (list.symbolic.map slowCount).getD 0 +
    (lib.map slowCount).getD 0

/-- The libraries from `begin()` to `end()`. -/
def searched (list : SymbolLookupList) : List LinkerSoinfo := list.symbolic.toList ++ list.libs

def needsSlowPath (list : SymbolLookupList) : Bool := 0 < list.slowPathCount

end SymbolLookupList

def soinfoDoLookup (name : String) (vi : Option VersionInfo) (list : SymbolLookupList) :
    Except SymbolFault (Option (LinkerSoinfo × ElfSym)) :=
  soinfoDoLookupImpl list.needsSlowPath name vi list.searched

end Sober
