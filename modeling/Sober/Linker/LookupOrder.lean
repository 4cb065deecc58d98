import Sober.Linker.HashTables

/-! # The order of a lookup

A lookup is answered from the first library in the list that supplies the name. The fast
path, which takes a GNU hash table for granted in every library, is taken only if there
is one.
-/
namespace Sober
open Machine

namespace LinkerSoinfo
variable {si : LinkerSoinfo} {name : String} {vi : Option VersionInfo}

/-- The tables that lookups use are those of the symbols of the library. -/
structure LookupOk (si : LinkerSoinfo) : Prop where
  tables : si.TablesOk
  gnu : si.soinfo.isGnuHash = true → si.GnuOk
  sysv : si.soinfo.isGnuHash = false → si.soinfo.bucket ≠ 0 → si.SysvOk

/-- `find_symbol_by_name`: a symbol that was entered by hand comes first. -/
def Offers (si : LinkerSoinfo) (name : String) (vi : Option VersionInfo) (sym : ElfSym) : Prop :=
  si.soinfo.customSymbols.lookup name = some sym ∨
    si.soinfo.customSymbols.lookup name = none ∧
      (si.soinfo.isGnuHash = true ∨ si.soinfo.bucket ≠ 0) ∧ si.Provides name vi sym

theorem answers_offers {r : Option ElfSym} (hcustom : si.soinfo.customSymbols.lookup name = none)
    (htable : si.soinfo.isGnuHash = true ∨ si.soinfo.bucket ≠ 0)
    (h : Answers (si.Provides name vi) r) : Answers (si.Offers name vi) r := by
  cases r with
  | some sym => exact .inr ⟨hcustom, htable, h⟩
  | none =>
    rintro sym (hsym | ⟨-, -, hprovides⟩)
    · rw [hcustom] at hsym
      cases hsym
    · exact h sym hprovides

theorem findSymbolByName_spec (h : si.LookupOk) (name : String) (vi : Option VersionInfo) :
    ∃ r, si.findSymbolByName name vi = .ok r ∧ Answers (si.Offers name vi) r := by
  rw [findSymbolByName]
  cases hcustom : si.soinfo.customSymbols.lookup name with
  | some sym => exact ⟨some sym, rfl, .inl hcustom⟩
  | none =>
    dsimp only
    split_ifs with hgnu hbucket
    · obtain ⟨r, hr, hanswers⟩ := gnuLookup_spec h.tables (h.gnu hgnu) name vi
      exact ⟨r, hr, answers_offers hcustom (.inl hgnu) hanswers⟩
    · obtain ⟨r, hr, hanswers⟩ := elfLookup_spec h.tables (h.sysv (by simpa using hgnu) hbucket)
        name vi
      exact ⟨r, hr, answers_offers hcustom (.inr hbucket) hanswers⟩
    · refine ⟨none, rfl, ?_⟩
      rintro sym (hsym | ⟨-, htable, -⟩)
      · rw [hcustom] at hsym
        cases hsym
      · exact htable.elim hgnu hbucket

/-- What a library supplies to relocations: with a GNU hash table, symbols that were
entered by hand are not looked at. -/
def Supplies (si : LinkerSoinfo) (name : String) (vi : Option VersionInfo) (sym : ElfSym) : Prop :=
  if si.soinfo.isGnuHash then si.Provides name vi sym else si.Offers name vi sym

theorem supplies_of_gnu (h : si.soinfo.isGnuHash = true) :
    si.Supplies name vi = si.Provides name vi :=
  funext fun _ => if_pos h

theorem supplies_of_sysv (h : si.soinfo.isGnuHash = false) :
    si.Supplies name vi = si.Offers name vi :=
  funext fun _ => if_neg (by simp [h])

theorem doLookupIn_spec (h : si.LookupOk) (name : String) (vi : Option VersionInfo)
    {isGeneral : Bool} (hpath : si.needsSysvLookup = true → isGeneral = true) :
    ∃ r, si.doLookupIn name vi isGeneral = .ok r ∧ Answers (si.Supplies name vi) r := by
  rw [doLookupIn]
  cases hgnu : si.soinfo.isGnuHash with
  | true =>
    have hsysv : si.needsSysvLookup = false := by rw [needsSysvLookup, hgnu]; rfl
    obtain ⟨r, hr, hanswers⟩ := gnuFast_spec h.tables (h.gnu hgnu) name vi
    refine ⟨r, ?_, ?_⟩
    · simp only [hsysv, Bool.false_eq_true, and_false, if_false]
      exact hr
    · rwa [supplies_of_gnu hgnu]
  | false =>
    have hsysv : si.needsSysvLookup = true := by rw [needsSysvLookup, hgnu]; rfl
    obtain ⟨r, hr, hanswers⟩ := findSymbolByName_spec h name vi
    refine ⟨r, ?_, ?_⟩
    · rw [if_pos ⟨hpath hsysv, hsysv⟩, hr]
    · rwa [supplies_of_sysv hgnu]

end LinkerSoinfo

section List
open LinkerSoinfo
variable {name : String} {vi : Option VersionInfo}

/-- The first library that supplies a name, with a symbol of it. -/
def FirstSupplier (libs : List LinkerSoinfo) (name : String) (vi : Option VersionInfo) :
    Option (LinkerSoinfo × ElfSym) → Prop
  | none => ∀ si ∈ libs, ∀ sym, ¬ si.Supplies name vi sym
  | some (si, sym) => si.Supplies name vi sym ∧ ∃ before after, libs = before ++ si :: after ∧
      ∀ other ∈ before, ∀ sym, ¬ other.Supplies name vi sym

theorem FirstSupplier.cons {si : LinkerSoinfo} {libs : List LinkerSoinfo}
    {r : Option (LinkerSoinfo × ElfSym)} (hnot : ∀ sym, ¬ si.Supplies name vi sym)
    (h : FirstSupplier libs name vi r) : FirstSupplier (si :: libs) name vi r := by
  cases r with
  | none => exact List.forall_mem_cons.mpr ⟨hnot, h⟩
  | some found =>
    obtain ⟨hsupplies, before, after, rfl, hbefore⟩ := h
    exact ⟨hsupplies, si :: before, after, rfl, List.forall_mem_cons.mpr ⟨hnot, hbefore⟩⟩

theorem soinfoDoLookupImpl_spec {libs : List LinkerSoinfo} (h : ∀ si ∈ libs, si.LookupOk)
    {isGeneral : Bool} (hpath : ∀ si ∈ libs, si.needsSysvLookup = true → isGeneral = true) :
    ∃ r, soinfoDoLookupImpl isGeneral name vi libs = .ok r ∧ FirstSupplier libs name vi r := by
  induction libs with
  | nil => exact ⟨none, rfl, by simp [FirstSupplier]⟩
  | cons si libs ih =>
    rw [List.forall_mem_cons] at h hpath
    obtain ⟨r, hr, hanswers⟩ := doLookupIn_spec h.1 name vi hpath.1
    rw [soinfoDoLookupImpl, hr]
    cases r with
    | some sym => exact ⟨some (si, sym), rfl, hanswers, [], libs, rfl, by simp⟩
    | none =>
      obtain ⟨rest, hrest, hfirst⟩ := ih h.2 hpath.2
      exact ⟨rest, hrest, hfirst.cons hanswers⟩

namespace SymbolLookupList

theorem foldl_slowCount (libs : List LinkerSoinfo) (count : ℕ) :
    libs.foldl (fun count si => count + slowCount si) count =
      count + (libs.map slowCount).sum := by
  induction libs generalizing count with
  | nil => rfl
  | cons si libs ih =>
    rw [List.foldl_cons, ih, List.map_cons, List.sum_cons]
    omega

theorem sum_searched (list : SymbolLookupList) :
    (list.searched.map slowCount).sum =
      (list.symbolic.map slowCount).getD 0 + (list.libs.map slowCount).sum := by
  rw [searched, List.map_append, List.sum_append]
  cases list.symbolic <;> simp

/-- The reasons to take the slow path are counted right. -/
def CountOk (tracing : Bool) (list : SymbolLookupList) : Prop :=
  list.slowPathCount = (if tracing then 1 else 0) + (list.searched.map slowCount).sum

theorem countOk_ofGroups (tracing : Bool) (globalGroup localGroup : List LinkerSoinfo) :
    CountOk tracing (ofGroups tracing globalGroup localGroup) :=
  foldl_slowCount _ _

theorem CountOk.setDtSymbolicLib {tracing : Bool} {list : SymbolLookupList}
    (h : CountOk tracing list) (lib : Option LinkerSoinfo) :
    CountOk tracing (list.setDtSymbolicLib lib) := by
  rw [CountOk, sum_searched] at h
  rw [CountOk, sum_searched, SymbolLookupList.setDtSymbolicLib]
  dsimp only
  omega

/-- The fast path is only taken if every library has a GNU hash table. -/
theorem CountOk.needsSlowPath {tracing : Bool} {list : SymbolLookupList}
    (h : CountOk tracing list) {si : LinkerSoinfo} (hmem : si ∈ list.searched)
    (hsysv : si.needsSysvLookup = true) : list.needsSlowPath = true := by
  have hone : slowCount si = 1 := if_pos hsysv
  have hle : slowCount si ≤ (list.searched.map slowCount).sum :=
    List.single_le_sum (fun _ _ => Nat.zero_le _) _ (List.mem_map_of_mem hmem)
  rw [CountOk] at h
  exact decide_eq_true (by omega)

/-- Setting the library that is searched first again and again. -/
theorem foldl_setDtSymbolicLib {tracing : Bool} {list : SymbolLookupList}
    (h : CountOk tracing list) (symbolics : List (Option LinkerSoinfo)) :
    CountOk tracing (symbolics.foldl SymbolLookupList.setDtSymbolicLib list) ∧
      (symbolics.foldl SymbolLookupList.setDtSymbolicLib list).searched =
        (symbolics.getLast?.getD list.symbolic).toList ++ list.libs := by
  induction symbolics generalizing list with
  | nil => exact ⟨h, rfl⟩
  | cons lib symbolics ih =>
    obtain ⟨hcount, hsearched⟩ := ih (h.setDtSymbolicLib lib)
    refine ⟨hcount, hsearched.trans ?_⟩
    rw [List.getLast?_cons]
    cases symbolics.getLast? <;> rfl

end SymbolLookupList

theorem soinfoDoLookup_spec {tracing : Bool} {list : SymbolLookupList}
    (hcount : SymbolLookupList.CountOk tracing list) (h : ∀ si ∈ list.searched, si.LookupOk)
    (name : String) (vi : Option VersionInfo) :
    ∃ r, soinfoDoLookup name vi list = .ok r ∧ FirstSupplier list.searched name vi r :=
  soinfoDoLookupImpl_spec h fun _ => hcount.needsSlowPath

/-- However the library that is searched first was set before, a lookup is answered from
the first library in the list that supplies the name, by a path that is safe for every
library in the list. -/
theorem soinfoDoLookup_first (tracing : Bool) {globalGroup localGroup : List LinkerSoinfo}
    (hgroups : ∀ si ∈ globalGroup ++ localGroup, si.LookupOk)
    {symbolics : List (Option LinkerSoinfo)}
    (hsymbolic : ∀ si ∈ symbolics.getLast?.join, si.LookupOk) (name : String)
    (vi : Option VersionInfo) :
    ∃ r, soinfoDoLookup name vi (symbolics.foldl SymbolLookupList.setDtSymbolicLib
        (.ofGroups tracing globalGroup localGroup)) = .ok r ∧
      FirstSupplier (symbolics.getLast?.join.toList ++ (globalGroup ++ localGroup)) name vi r := by
  obtain ⟨hcount, hsearched⟩ := SymbolLookupList.foldl_setDtSymbolicLib
    (SymbolLookupList.countOk_ofGroups tracing globalGroup localGroup) symbolics
  have hlibs : (symbolics.getLast?.getD none).toList ++ (globalGroup ++ localGroup) =
      symbolics.getLast?.join.toList ++ (globalGroup ++ localGroup) := by
    cases symbolics.getLast? <;> rfl
  have hsearch := hsearched.trans hlibs
  rw [← hsearch]
  refine soinfoDoLookup_spec hcount (fun si hmem => ?_) name vi
  rw [hsearch] at hmem
  rcases List.mem_append.mp hmem with hmem | hmem
  · exact hsymbolic si (Option.mem_toList.mp hmem)
  · exact hgroups si hmem

end List

section Example

def exampleGnuLibrary : LinkerSoinfo where
  soinfo := ⟨"libf.so", 0x10000, 0, true, ∅⟩
  symtab := [⟨0, 0, 0, 0, 0, 0⟩, ⟨1, 0x12, 0, 1, 0x500, 0⟩]
  strtab := [0, 0x66, 0]
  versym := none
  verdefs := []
  gnu := ⟨1, 1, 0, 6, [BitVec.allOnes 64], [1], [0x0002B60B]⟩
  sysv := ⟨0, [], []⟩

theorem exampleGnuLibrary_gnuOk : exampleGnuLibrary.GnuOk where
  nbucket_pos := by decide
  bucket_length := rfl
  bloom_length := rfl
  chain_length := rfl
  hashed n sym hget hdefined := by
    cases n with
    | zero =>
      cases hget
      cases hdefined
    | succ n => exact Nat.le_add_left 1 n
  chain_hash i value hget := by
    cases i with
    | zero =>
      cases hget
      decide
    | succ i => cases hget
  bloom n hle hlt := by
    obtain rfl : n = 1 := Nat.le_antisymm (Nat.le_of_lt_succ hlt) hle
    rfl
  buckets b first hget := by
    cases b with
    | zero =>
      cases hget
      refine .inr ⟨1, by decide, by decide, by decide, by decide, fun n hle hlt _ => ?_, ?_⟩
      · exact ⟨hle, Nat.le_of_lt_succ hlt⟩
      · intro i value hvalue _ _
        cases i with
        | zero =>
          cases hvalue
          decide
        | succ i => cases hvalue
    | succ b => cases hget

theorem exampleGnuLibrary_ok : exampleGnuLibrary.LookupOk where
  tables := ⟨rfl, by decide, by simp [exampleGnuLibrary], by simp [exampleGnuLibrary]⟩
  gnu _ := exampleGnuLibrary_gnuOk
  sysv h := by cases h

/-- A library with a System V hash table that defines `f` in the version `V` only, and for
which `g` was entered by hand. -/
def exampleSysvLibrary : LinkerSoinfo where
  soinfo := ⟨"libv.so", 0x20000, 1, false, (∅ : Finmap _).insert "g" (.custom 0x9000)⟩
  symtab := [⟨0, 0, 0, 0, 0, 0⟩, ⟨1, 0x12, 0, 1, 0x700, 0⟩]
  strtab := [0, 0x66, 0, 0x56, 0]
  versym := some [0, 0x8002]
  verdefs := [⟨1, 0, 2, 1, 0x56, 3⟩]
  gnu := ⟨0, 0, 0, 0, [], [], []⟩
  sysv := ⟨1, [1], [0, 0]⟩

theorem exampleSysvLibrary_sysvOk : exampleSysvLibrary.SysvOk where
  nbucket_pos := by decide
  bucket_length := rfl
  walks b first hget := by
    cases b with
    | zero =>
      cases hget
      refine ⟨[1], .cons (by decide) rfl .nil, by decide, by decide, ?_⟩
      intro n sym hsym hdefined _
      rcases n with _ | _ | n
      · cases hsym
        cases hdefined
      · exact List.mem_singleton_self 1
      · cases hsym
    | succ b => cases hget

theorem exampleSysvLibrary_ok : exampleSysvLibrary.LookupOk where
  tables := ⟨rfl, by decide, by simp [exampleSysvLibrary], by simp [exampleSysvLibrary]⟩
  gnu h := by cases h
  sysv _ _ := exampleSysvLibrary_sysvOk

def exampleVersion : VersionInfo := ⟨0x56, "V"⟩

theorem soinfoDoLookup_first_example :
    let libs := [exampleSysvLibrary, exampleGnuLibrary]
    FirstSupplier libs "f" (some exampleVersion)
        (some (exampleSysvLibrary, ⟨1, 0x12, 0, 1, 0x700, 0⟩)) ∧
      FirstSupplier libs "f" none (some (exampleGnuLibrary, ⟨1, 0x12, 0, 1, 0x500, 0⟩)) ∧
      FirstSupplier libs "g" none (some (exampleSysvLibrary, .custom 0x9000)) ∧
      FirstSupplier libs "h" none none := by
  have hlookup (name : String) (vi : Option VersionInfo) :
      ∃ r, soinfoDoLookup name vi
          ([none, some exampleGnuLibrary, some exampleSysvLibrary].foldl
            SymbolLookupList.setDtSymbolicLib (.ofGroups false [exampleGnuLibrary] [])) = .ok r ∧
        FirstSupplier [exampleSysvLibrary, exampleGnuLibrary] name vi r :=
    soinfoDoLookup_first false (by simpa using exampleGnuLibrary_ok)
      (by simpa using exampleSysvLibrary_ok) name vi
  obtain ⟨r, hr, hversion⟩ := hlookup "f" (some exampleVersion)
  obtain ⟨r', hr', hplain⟩ := hlookup "f" none
  obtain ⟨r'', hr'', hcustom⟩ := hlookup "g" none
  obtain ⟨r₀, hr₀, hnone⟩ := hlookup "h" none
  cases hr
  cases hr'
  cases hr''
  cases hr₀
  exact ⟨hversion, hplain, hcustom, hnone⟩

end Example
end Sober
