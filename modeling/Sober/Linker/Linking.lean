import Sober.Linker.LookupOrder
import Sober.Linker.Relocated

/-! # Linking a library

The tables of a library, its list of libraries to search and the relocations together. A
version tracker gives every version index of the library its name; each reference is then
looked up under its name and version. After relocation, the references to functions and
data hold the address of the first definition in the order of the search.
-/
namespace Sober
open Machine

structure Vernaux where
  vnaHash : BitVec 32
  vnaOther : BitVec 16
  vnaName : BitVec 32

/-- `ElfW(Verneed)` with its list of versions. -/
structure Verneed where
  vnVersion : BitVec 16
  vnFile : BitVec 32
  aux : List Vernaux

structure LibraryImage where
  si : LinkerSoinfo
  isLinker : Bool
  verneeds : List Verneed
  /-- The names of `get_children()`. -/
  children : List String
  tables : RelocTables

/-- `VersionTracker`: an entry without a name is `none`. -/
abbrev VersionTracker := List (Option VersionInfo)

namespace VersionTracker

def addVersionInfo (infos : VersionTracker) (sourceIndex : ℕ) (info : VersionInfo) :
    VersionTracker :=
  (infos ++ List.replicate (sourceIndex + 1 - infos.length) none).set sourceIndex (some info)

def getVersionInfo (infos : VersionTracker) (sourceSymver : BitVec 16) : Option VersionInfo :=
  if sourceSymver < 2 then none else (infos[sourceSymver.toNat]?).join

end VersionTracker

namespace LibraryImage
variable (image : LibraryImage)

def nameAt (index : BitVec 32) : Except RelocError String :=
  match image.si.getString index with
  | .ok rest => .ok (nameOfBytes (cString rest))
  | .error fault => .error (.lookup fault)

def addVernaux (infos : VersionTracker) (vernaux : Vernaux) : Except RelocError VersionTracker := do
  return infos.addVersionInfo vernaux.vnaOther.toNat
    ⟨vernaux.vnaHash, ← image.nameAt vernaux.vnaName⟩

/-- `init_verneed`: every library that versions are needed of is among the children. -/
def addVerneed (infos : VersionTracker) (verneed : Verneed) : Except RelocError VersionTracker := do
  if verneed.vnVersion ≠ 1 then throw (.unsupportedVerneed verneed.vnVersion)
  let targetSoname ← image.nameAt verneed.vnFile
  if targetSoname ∉ image.children then throw (.noNeededLibrary targetSoname)
  verneed.aux.foldlM image.addVernaux infos

/-- `init_verdef`; the version of the file itself is skipped. -/
def addVerdef (infos : VersionTracker) (verdef : Verdef) : Except RelocError VersionTracker := do
  if verdef.vdVersion ≠ 1 then throw (.lookup .invalidVerdef)
  else if verdef.vdFlags &&& 1 ≠ 0 then return infos
  else if verdef.vdCnt = 0 then throw (.lookup .invalidVerdef)
  else return infos.addVersionInfo verdef.vdNdx.toNat ⟨verdef.vdHash, ← image.nameAt verdef.vdaName⟩

def versionTracker : Except RelocError VersionTracker := do
  image.si.verdefs.foldlM image.addVerdef (← image.verneeds.foldlM image.addVerneed [])

/-- `lookup_version_info`. The indices 0 and 1 mean that there is no version. -/
def lookupVersionInfo (infos : VersionTracker) (rSym : BitVec 32) (symName : String) :
    Except RelocError (Option VersionInfo) :=
  match image.si.versym with
  | none => .ok none
  | some table =>
    match readEntry table rSym.toNat with
    | .error fault => .error (.lookup fault)
    | .ok symVer =>
      if symVer = 0 ∨ symVer = 1 then .ok none
      else match infos.getVersionInfo symVer with
        | some vi => .ok (some vi)
        | none => .error (.cannotFindVersion symName)

def relocEnv (infos : VersionTracker) (list : SymbolLookupList)
    (tlsModule : LinkerSoinfo → Option Word) (resolver : Memory → Word → Word) :
    RelocEnv LinkerSoinfo VersionInfo where
  si := image.si
  isLinker := image.isLinker
  symtab := fun n => image.si.symtab[n.toNat]?
  getString := fun index => (image.nameAt index).toOption
  lookupVersionInfo := image.lookupVersionInfo infos
  doLookup := fun name vi => (soinfoDoLookup name vi list).mapError .lookup
  soinfo := LinkerSoinfo.soinfo
  tlsModule := tlsModule
  resolver := resolver

def relocate (needsSlowRelocateLoop : Bool) (list : SymbolLookupList)
    (tlsModule : LinkerSoinfo → Option Word) (resolver : Memory → Word → Word) (m : Memory) :
    Except RelocError (RelocState LinkerSoinfo) := do
  let infos ← image.versionTracker
  Sober.relocate (image.relocEnv infos list tlsModule resolver) needsSlowRelocateLoop image.tables m

/-- The address that a reference is given; 0 stands for a weak one that nothing supplies. -/
def suppliedAddress (resolver : Word → Word) : Option (LinkerSoinfo × ElfSym) → Word
  | some (lib, sym) => lib.soinfo.resolveSymbolAddress resolver sym
  | none => 0

def targetOf (reloc : Rela) : Word := reloc.rOffset + image.si.soinfo.loadBias

variable {image}

theorem ok_of_toOption {A : Type} {x : Except RelocError A} {a : A} (h : x.toOption = some a) :
    x = .ok a := by
  cases x with
  | error e => cases h
  | ok b => exact congrArg Except.ok (Option.some.inj h)

/-- After a library was relocated, every reference to a function or to data holds the
address of the first definition of its name and version in the order of the search; only
a weak reference can be without one. -/
theorem relocate_links {tracing : Bool} {list : SymbolLookupList}
    (hcount : SymbolLookupList.CountOk tracing list) (hlibs : ∀ si ∈ list.searched, si.LookupOk)
    {tlsModule : LinkerSoinfo → Option Word} {resolver : Memory → Word → Word}
    (hresolver : ∀ m m', resolver m = resolver m') {packed : List Rela}
    (hpacked : AndroidRelocs image.tables.androidRelocs packed)
    (hapart : ((packed ++ image.tables.rela ++ image.tables.pltRela).map
      image.targetOf).Pairwise Apart)
    {needsSlowRelocateLoop : Bool} {m : Memory} {st : RelocState LinkerSoinfo}
    (hrelocate : image.relocate needsSlowRelocateLoop list tlsModule resolver m = .ok st) :
    ∃ infos, image.versionTracker = .ok infos ∧
      ∀ reloc ∈ packed ++ image.tables.rela ++ image.tables.pltRela,
        reloc.rType.isAddress = true → reloc.rSym ≠ 0 →
        ∃ own symName vi found, image.si.symtab[reloc.rSym.toNat]? = some own ∧
          image.nameAt own.stName = .ok symName ∧
          image.lookupVersionInfo infos reloc.rSym symName = .ok vi ∧
          FirstSupplier list.searched symName vi found ∧
          (found = none → own.stBind = stbWeak) ∧
          read64 st.memory (image.targetOf reloc) =
            suppliedAddress (resolver m) found + reloc.rAddend := by
  obtain ⟨infos, hinfos, hrest⟩ := Transition.ok_of_bind hrelocate
  refine ⟨infos, hinfos, fun reloc hmem htype hsym => ?_⟩
  obtain ⟨w, hw, hheld⟩ :=
    relocate_heldAt hpacked hrest hresolver (RelocEnv.extents_apart hapart) hmem
  obtain ⟨symName, vi, found, hown, hname, hvi, hlookup, hweak, rfl⟩ :=
    relocWrite_address htype hsym hw
  obtain ⟨r, hr, hfirst⟩ := soinfoDoLookup_spec hcount hlibs symName vi
  have hfound : r = found := by
    have hmap : (soinfoDoLookup symName vi list).mapError RelocError.lookup = .ok found := hlookup
    rw [hr] at hmap
    exact Except.ok.inj hmap
  subst hfound
  have haddress : addressOf (image.relocEnv infos list tlsModule resolver) m 0 r =
      suppliedAddress (resolver m) r := by
    cases r <;> rfl
  rw [haddress] at hheld
  exact ⟨_, symName, vi, r, hown, ok_of_toOption hname, hvi, hfirst, hweak, hheld⟩

end LibraryImage

section Example

/-- A library that refers to `f` in the version `V` of `libv.so` and in no version, and
weakly to `h`. -/
def exampleImage : LibraryImage where
  si :=
    { soinfo := ⟨"libapp.so", 0x10000, 0, true, ∅⟩
      symtab := [⟨0, 0, 0, 0, 0, 0⟩, ⟨1, 0x12, 0, 0, 0, 0⟩, ⟨1, 0x12, 0, 0, 0, 0⟩,
        ⟨3, 0x20, 0, 0, 0, 0⟩]
      strtab := [0, 0x66, 0, 0x68, 0, 0x56, 0, 0x6C, 0x69, 0x62, 0x76, 0x2E, 0x73, 0x6F, 0]
      versym := some [0, 2, 1, 1]
      verdefs := []
      gnu := ⟨0, 0, 0, 0, [], [], []⟩
      sysv := ⟨0, [], []⟩ }
  isLinker := false
  verneeds := [⟨1, 7, [⟨0x56, 2, 5⟩]⟩]
  children := ["libv.so"]
  tables := ⟨[], none, [⟨0x2000, 0x100000401, 0⟩, ⟨0x2008, 0x300000101, 4⟩],
    [⟨0x3000, 0x200000402, 0⟩]⟩

def exampleList : SymbolLookupList := .ofGroups false [exampleSysvLibrary] [exampleGnuLibrary]

theorem relocate_links_example :
    ∃ st, exampleImage.relocate false exampleList (fun _ => none) (fun _ a => a) (fun _ => 0) =
        .ok st ∧
      (∃ found, FirstSupplier [exampleSysvLibrary, exampleGnuLibrary] "f" (some exampleVersion)
        found ∧ read64 st.memory 0x12000 = LibraryImage.suppliedAddress (fun a => a) found) ∧
      (∃ found, FirstSupplier [exampleSysvLibrary, exampleGnuLibrary] "f" none found ∧
        read64 st.memory 0x13000 = LibraryImage.suppliedAddress (fun a => a) found) ∧
      ∃ found, FirstSupplier [exampleSysvLibrary, exampleGnuLibrary] "h" none found ∧
        read64 st.memory 0x12008 = LibraryImage.suppliedAddress (fun a => a) found + 4 := by
  obtain ⟨st, hst⟩ : ∃ st, exampleImage.relocate false exampleList (fun _ => none)
      (fun _ a => a) (fun _ => 0) = .ok st := ⟨_, rfl⟩
  have hnone : AndroidRelocs exampleImage.tables.androidRelocs [] := .none
  obtain ⟨infos, hinfos, hlinks⟩ := LibraryImage.relocate_links
    (SymbolLookupList.countOk_ofGroups false [exampleSysvLibrary] [exampleGnuLibrary])
    (by simpa [SymbolLookupList.searched, SymbolLookupList.ofGroups] using
      ⟨exampleSysvLibrary_ok, exampleGnuLibrary_ok⟩) (fun _ _ => rfl) hnone (by decide) hst
  cases hinfos
  obtain ⟨own, symName, vi, found, hown, hname, hvi, hfirst, -, hread⟩ :=
    hlinks ⟨0x2000, 0x100000401, 0⟩ (by decide) (by decide) (by decide)
  cases hown
  cases hname
  cases hvi
  obtain ⟨own, symName, vi, found', hown, hname, hvi, hfirst', -, hread'⟩ :=
    hlinks ⟨0x3000, 0x200000402, 0⟩ (by decide) (by decide) (by decide)
  cases hown
  cases hname
  cases hvi
  obtain ⟨own, symName, vi, found'', hown, hname, hvi, hfirst'', -, hread''⟩ :=
    hlinks ⟨0x2008, 0x300000101, 4⟩ (by decide) (by decide) (by decide)
  cases hown
  cases hname
  cases hvi
  exact ⟨st, hst, ⟨found, hfirst, hread.trans (add_zero _)⟩,
    ⟨found', hfirst', hread'.trans (add_zero _)⟩, found'', hfirst'', hread''⟩

end Example
end Sober
