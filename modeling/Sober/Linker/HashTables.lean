import Mathlib.Data.List.Perm.Subperm
import Sober.Linker.Lookup

/-! # Lookups in hash tables

In hash tables as a static linker writes them, a lookup finds a symbol that defines the
name in the version asked for if there is one. Neither the Bloom filter nor the buckets
show, and the comparison of the fast path is that of the slow one.
-/
namespace Sober
open Machine

section Strings
variable {table name : List Byte}

theorem zero_notMem_nameBytes (name : String) : 0 ∉ nameBytes name := by
  intro h
  simpa using List.mem_takeWhile_imp h

theorem strcmpEq_eq (htable : 0 ∈ table) (hname : 0 ∉ name) :
    strcmpEq table name = .ok (cString table = name) := by
  induction table generalizing name with
  | nil => cases htable
  | cons b table ih =>
    cases name with
    | nil =>
      rw [strcmpEq, cString]
      by_cases hb : b = 0 <;> simp [hb]
    | cons c name =>
      rw [List.mem_cons, not_or] at hname
      have hc : c ≠ 0 := Ne.symm hname.1
      rw [strcmpEq, cString]
      by_cases hbc : b = c
      · have htable' : 0 ∈ table := by
          rcases List.mem_cons.mp htable with h | h
          · exact (hc (hbc.symm.trans h.symm)).elim
          · exact h
        rw [if_pos hbc, ih htable' hname.2, hbc, List.takeWhile_cons_of_pos (by simpa using hc)]
        simp [cString]
      · rw [if_neg hbc]
        by_cases hb : b = 0
        · simp [hb]
        · rw [List.takeWhile_cons_of_pos (by simpa using hb)]
          simp [hbc]

/-- A comparison that includes the zero byte compares the whole string. -/
theorem take_eq_append_zero_iff (htable : 0 ∈ table) (hname : 0 ∉ name) :
    table.take (name ++ [0]).length = name ++ [0] ↔ cString table = name := by
  induction table generalizing name with
  | nil => cases htable
  | cons b table ih =>
    cases name with
    | nil => by_cases hb : b = 0 <;> simp [cString, hb]
    | cons c name =>
      rw [List.mem_cons, not_or] at hname
      have hc : c ≠ 0 := Ne.symm hname.1
      rw [cString, List.cons_append, List.length_cons, List.take_succ_cons, List.cons.injEq]
      by_cases hbc : b = c
      · have htable' : 0 ∈ table := by
          rcases List.mem_cons.mp htable with h | h
          · exact (hc (hbc.symm.trans h.symm)).elim
          · exact h
        rw [hbc, List.takeWhile_cons_of_pos (by simpa using hc), List.cons.injEq,
          ih htable' hname.2]
        rfl
      · by_cases hb : b = 0
        · exact iff_of_false (fun h => hbc h.1) (by simp [hb])
        · rw [List.takeWhile_cons_of_pos (by simpa using hb)]
          simp [hbc]

end Strings

namespace LinkerSoinfo
variable (si : LinkerSoinfo) (name : String) (vi : Option VersionInfo)

/-- The string that starts at an index of the string table. -/
def stringAt (index : BitVec 32) : List Byte := cString (si.strtab.drop index.toNat)

/-- Strings end inside the table, the other tables cover all symbols, and version
definitions are as `prelink_image` validates them. -/
structure TablesOk : Prop where
  terminated : si.strtab.getLast? = some 0
  names : ∀ sym ∈ si.symtab, sym.stName.toNat < si.strtab.length
  versions : ∀ table ∈ si.versym, table.length = si.symtab.length
  verdefs : ∀ v ∈ si.verdefs, v.vdVersion = 1 ∧
    (v.vdFlags &&& 1 = 0 → v.vdCnt ≠ 0 ∧ v.vdaName.toNat < si.strtab.length)

/-- A version definition that carries the name asked for. -/
def namesVersion (wanted : VersionInfo) (v : Verdef) : Bool :=
  v.vdFlags &&& 1 = 0 ∧ v.vdHash = wanted.elfHash ∧ si.stringAt v.vdaName = nameBytes wanted.name

def verneed : BitVec 16 :=
  match vi with
  | none => versymNotNeeded
  | some wanted =>
    match si.verdefs.find? (si.namesVersion wanted) with
    | some v => v.vdNdx
    | none => versymGlobal

def versionOk (n : ℕ) : Bool :=
  match si.versym with
  | none => true
  | some table =>
    match table[n]? with
    | some verdef => versionAccepts (si.verneed vi) verdef
    | none => false

/-- The symbol `n` defines the name in the version asked for. -/
def defines (n : ℕ) : Bool :=
  match si.symtab[n]? with
  | some sym =>
    si.versionOk vi n && decide (si.stringAt sym.stName = nameBytes name) &&
      isSymbolGlobalAndDefined sym
  | none => false

variable {si name vi}

namespace TablesOk
variable (h : si.TablesOk)
include h

theorem zero_mem_drop {k : ℕ} (hk : k < si.strtab.length) : 0 ∈ si.strtab.drop k := by
  apply List.mem_of_getLast?
  rw [List.getLast?_drop, if_neg (by omega), h.terminated]

omit h in
theorem getString_eq {index : BitVec 32} (hindex : index.toNat < si.strtab.length) :
    si.getString index = .ok (si.strtab.drop index.toNat) :=
  if_neg (by omega)

theorem strcmpEq_drop {index : BitVec 32} (hindex : index.toNat < si.strtab.length)
    (name : String) :
    strcmpEq (si.strtab.drop index.toNat) (nameBytes name) =
      .ok (decide (si.stringAt index = nameBytes name)) :=
  strcmpEq_eq (h.zero_mem_drop hindex) (zero_notMem_nameBytes name)

theorem boundedCompare_eq {index : BitVec 32} (hindex : index.toNat < si.strtab.length)
    (name : String) :
    boundedCompare si.strtab index.toNat (nameBytes name ++ [0]) =
      decide (si.stringAt index = nameBytes name) := by
  have hcompare := take_eq_append_zero_iff (h.zero_mem_drop hindex) (zero_notMem_nameBytes name)
  refine decide_eq_decide.mpr ⟨fun hequal => hcompare.mp hequal.2, fun hstring => ?_⟩
  have htake := hcompare.mpr hstring
  have hlength := congrArg List.length htake
  rw [List.length_take, List.length_drop] at hlength
  exact ⟨by omega, htake⟩

theorem findVerdefLoop_eq (wanted : VersionInfo) {verdefs : List Verdef}
    (hmem : ∀ v ∈ verdefs, v ∈ si.verdefs) :
    findVerdefLoop si wanted verdefs =
      .ok (match verdefs.find? (si.namesVersion wanted) with
        | some v => v.vdNdx
        | none => versymGlobal) := by
  induction verdefs with
  | nil => rfl
  | cons v rest ih =>
    rw [List.forall_mem_cons] at hmem
    obtain ⟨hversion, hvalid⟩ := h.verdefs v hmem.1
    rw [findVerdefLoop, if_neg (not_not.mpr hversion)]
    have hskip (hnot : ¬ (v.vdFlags &&& 1 = 0 ∧ v.vdHash = wanted.elfHash ∧
        si.stringAt v.vdaName = nameBytes wanted.name)) :
        (v :: rest).find? (si.namesVersion wanted) = rest.find? (si.namesVersion wanted) :=
      List.find?_cons_of_neg fun hnames => hnot (of_decide_eq_true hnames)
    by_cases hbase : v.vdFlags &&& 1 = 0
    · obtain ⟨hcnt, hname⟩ := hvalid hbase
      rw [if_neg (not_not.mpr hbase), if_neg hcnt]
      by_cases hhash : v.vdHash = wanted.elfHash
      · simp only [if_pos hhash, getString_eq hname, h.strcmpEq_drop hname, bind, Except.bind]
        by_cases hstring : si.stringAt v.vdaName = nameBytes wanted.name
        · have hnames : si.namesVersion wanted v = true := decide_eq_true ⟨hbase, hhash, hstring⟩
          rw [List.find?_cons_of_pos hnames, if_pos (decide_eq_true hstring)]
          rfl
        · rw [hskip fun hnames => hstring hnames.2.2, ← ih hmem.2, if_neg (by simpa using hstring)]
      · rw [if_neg hhash, hskip fun hnames => hhash hnames.2.1, ih hmem.2]
    · rw [if_pos hbase, hskip fun hnames => hbase hnames.1, ih hmem.2]

theorem findVerdefVersionIndex_eq (vi : Option VersionInfo) :
    findVerdefVersionIndex si vi = .ok (si.verneed vi) := by
  cases vi with
  | none => rfl
  | some wanted => exact h.findVerdefLoop_eq wanted fun _ => id

theorem checkSymbolVersion_eq {n : ℕ} (hn : n < si.symtab.length) (vi : Option VersionInfo) :
    checkSymbolVersion si.versym n (si.verneed vi) = .ok (si.versionOk vi n) := by
  rw [versionOk]
  cases hversym : si.versym with
  | none => rfl
  | some table =>
    have hlength := h.versions table hversym
    have hget : table[n]? = some table[n] := List.getElem?_eq_getElem (by omega)
    simp only [checkSymbolVersion, readEntry, hget]
    rfl

theorem plainTest_eq {n : ℕ} (hn : n < si.symtab.length) :
    si.plainTest name (si.verneed vi) n = .ok (si.defines name vi n) := by
  have hget : si.symtab[n]? = some si.symtab[n] := List.getElem?_eq_getElem hn
  have hname := h.names _ (List.getElem_mem hn)
  rw [plainTest, h.checkSymbolVersion_eq hn, defines, hget]
  simp only [readEntry, hget, getString_eq hname, h.strcmpEq_drop hname, bind, Except.bind, pure,
    Except.pure]
  cases si.versionOk vi n with
  | false => rfl
  | true =>
    by_cases hstring : si.stringAt si.symtab[n].stName = nameBytes name <;> simp [hstring]

theorem slowTest_eq {n : ℕ} (hn : n < si.symtab.length) (hash chainValue : BitVec 32) :
    si.slowTest name hash (si.verneed vi) n chainValue =
      .ok (decide (chainValue >>> 1 = hash >>> 1) && si.defines name vi n) := by
  have hxor : (chainValue ^^^ hash) >>> 1 = 0 ↔ chainValue >>> 1 = hash >>> 1 := by
    rw [BitVec.ushiftRight_xor_distrib]
    exact BitVec.xor_eq_zero_iff
  rw [slowTest]
  by_cases hhash : chainValue >>> 1 = hash >>> 1
  · rw [if_neg (not_not.mpr (hxor.mpr hhash)), h.plainTest_eq hn]
    simp [hhash]
  · rw [if_pos fun heq => hhash (hxor.mp heq)]
    simp [hhash]

theorem fastTest_eq {n : ℕ} (hn : n < si.symtab.length) (hash chainValue : BitVec 32) :
    si.fastTest name vi hash n chainValue =
      .ok (decide (chainValue >>> 1 = hash >>> 1) && si.defines name vi n) := by
  have hget : si.symtab[n]? = some si.symtab[n] := List.getElem?_eq_getElem hn
  have hname := h.names _ (List.getElem_mem hn)
  rw [fastTest]
  by_cases hhash : chainValue >>> 1 = hash >>> 1
  · rw [if_neg (not_not.mpr hhash), h.findVerdefVersionIndex_eq, defines, hget]
    simp only [h.checkSymbolVersion_eq hn, readEntry, hget, h.boundedCompare_eq hname, bind,
      Except.bind, pure, Except.pure]
    cases si.versionOk vi n with
    | false => simp
    | true =>
      by_cases hstring : si.stringAt si.symtab[n].stName = nameBytes name <;> simp [hstring, hhash]
  · rw [if_pos hhash]
    simp [hhash, pure, Except.pure]

end TablesOk

/-- A symbol supplies a name: it is a definition of it in the version asked for. -/
def Provides (si : LinkerSoinfo) (name : String) (vi : Option VersionInfo) (sym : ElfSym) : Prop :=
  ∃ n, si.symtab[n]? = some sym ∧ si.defines name vi n = true

theorem defines_iff {n : ℕ} : si.defines name vi n = true ↔
    ∃ sym, si.symtab[n]? = some sym ∧ si.versionOk vi n = true ∧
      si.stringAt sym.stName = nameBytes name ∧ isSymbolGlobalAndDefined sym = true := by
  rw [defines]
  cases si.symtab[n]? with
  | none => simp
  | some sym => simp [and_assoc]

theorem lt_length_of_defines {n : ℕ} (h : si.defines name vi n = true) : n < si.symtab.length := by
  obtain ⟨sym, hget, -⟩ := defines_iff.mp h
  exact (List.getElem?_eq_some_iff.mp hget).1

/-- The answer to a question for a symbol with a property. -/
def Answers (P : ElfSym → Prop) : Option ElfSym → Prop
  | some sym => P sym
  | none => ∀ sym, ¬ P sym

/-- A search through indices that do not miss a definition. -/
theorem symbolAt_find? {indices : List ℕ}
    (h : ∀ n, si.defines name vi n = true → n ∈ indices) :
    ∃ r, si.symbolAt (indices.find? (si.defines name vi)) = .ok r ∧
      Answers (si.Provides name vi) r := by
  cases hfind : indices.find? (si.defines name vi) with
  | none =>
    refine ⟨none, rfl, fun sym hsym => ?_⟩
    obtain ⟨n, -, hdefines⟩ := hsym
    exact List.find?_eq_none.mp hfind n (h n hdefines) hdefines
  | some n =>
    have hdefines : si.defines name vi n = true := List.find?_some hfind
    obtain ⟨sym, hget, -⟩ := defines_iff.mp hdefines
    refine ⟨some sym, ?_, n, hget, hdefines⟩
    simp only [symbolAt, readEntry, hget]
    rfl

section Gnu

def gnuHashAt (si : LinkerSoinfo) (n : ℕ) : BitVec 32 :=
  match si.symtab[n]? with
  | some sym => calculateGnuHash (si.stringAt sym.stName)
  | none => 0

/-- The symbols of the bucket `b` are among those from `first` to `last`, and the chain
has its end mark at `last`. -/
structure BucketRun (si : LinkerSoinfo) (b first last : ℕ) : Prop where
  first_pos : 0 < first
  symOffset_le : si.gnu.symOffset ≤ first
  first_le : first ≤ last
  last_lt : last < si.symtab.length
  covers : ∀ n, si.gnu.symOffset ≤ n → n < si.symtab.length →
    (si.gnuHashAt n).toNat % si.gnu.nbucket = b → first ≤ n ∧ n ≤ last
  marks : ∀ i value, si.gnu.chain[i]? = some value → first ≤ si.gnu.symOffset + i →
    si.gnu.symOffset + i ≤ last → (value &&& 1 = 0 ↔ si.gnu.symOffset + i ≠ last)

structure GnuOk (si : LinkerSoinfo) : Prop where
  nbucket_pos : 0 < si.gnu.nbucket
  bucket_length : si.gnu.bucket.length = si.gnu.nbucket
  bloom_length : si.gnu.bloomFilter.length = si.gnu.maskwords.toNat + 1
  chain_length : si.gnu.symOffset + si.gnu.chain.length = si.symtab.length
  hashed : ∀ (n : ℕ) sym, si.symtab[n]? = some sym → isSymbolGlobalAndDefined sym = true →
    si.gnu.symOffset ≤ n
  chain_hash : ∀ (i : ℕ) value, si.gnu.chain[i]? = some value →
    value >>> 1 = si.gnuHashAt (si.gnu.symOffset + i) >>> 1
  bloom : ∀ n, si.gnu.symOffset ≤ n → n < si.symtab.length →
    si.gnu.bloomTest (si.gnuHashAt n) = .ok true
  buckets : ∀ (b : ℕ) (first : BitVec 32), si.gnu.bucket[b]? = some first →
    (first = 0 ∧ ∀ n, si.gnu.symOffset ≤ n → n < si.symtab.length →
      (si.gnuHashAt n).toNat % si.gnu.nbucket ≠ b) ∨
    ∃ last, si.BucketRun b first.toNat last

namespace GnuOk
variable (h : si.GnuOk) {test : ℕ → BitVec 32 → Except SymbolFault Bool}
  (htest : ∀ n value, n < si.symtab.length → test n value = .ok
    (decide (value >>> 1 = calculateGnuHash (nameBytes name) >>> 1) && si.defines name vi n))

omit h in
theorem gnuHashAt_of_defines {n : ℕ} (hdefines : si.defines name vi n = true) :
    si.gnuHashAt n = calculateGnuHash (nameBytes name) := by
  obtain ⟨sym, hget, -, hname, -⟩ := defines_iff.mp hdefines
  rw [gnuHashAt, hget]
  exact congrArg calculateGnuHash hname

include h in
theorem symOffset_le_of_defines {n : ℕ} (hdefines : si.defines name vi n = true) :
    si.gnu.symOffset ≤ n := by
  obtain ⟨sym, hget, -, -, hdefined⟩ := defines_iff.mp hdefines
  exact h.hashed n sym hget hdefined

include h in
/-- The filter can be asked for any name. -/
theorem bloomTest_ok (hash : BitVec 32) : ∃ passed, si.gnu.bloomTest hash = .ok passed := by
  have hindex : ((hash / 64) &&& si.gnu.maskwords).toNat < si.gnu.bloomFilter.length := by
    rw [h.bloom_length, BitVec.toNat_and]
    exact Nat.lt_succ_of_le Nat.and_le_right
  rw [GnuHash.bloomTest, readEntry, List.getElem?_eq_getElem hindex]
  exact ⟨_, rfl⟩

include h htest in
/-- One entry of a chain. -/
theorem chain_entry {b first last : ℕ} (hrun : si.BucketRun b first last) {n : ℕ}
    (hfirst : first ≤ n) (hlast : n ≤ last) :
    ∃ value, si.gnu.chain.drop (n - si.gnu.symOffset) =
        value :: si.gnu.chain.drop (n + 1 - si.gnu.symOffset) ∧
      test n value = .ok (si.defines name vi n) ∧ (value &&& 1 = 0 ↔ n ≠ last) := by
  have hoffset := hrun.symOffset_le
  have hbound := hrun.last_lt
  have hlength := h.chain_length
  have hindex : n - si.gnu.symOffset < si.gnu.chain.length := by omega
  have hget := List.getElem?_eq_getElem hindex
  have hn : si.gnu.symOffset + (n - si.gnu.symOffset) = n := by omega
  have hhash := h.chain_hash _ _ hget
  have hmarks := hrun.marks _ _ hget
  rw [hn] at hhash hmarks
  refine ⟨_, ?_, ?_, hmarks hfirst hlast⟩
  · rw [List.drop_eq_getElem_cons hindex, Nat.sub_add_comm (by omega)]
  · rw [htest n _ (by omega), hhash]
    cases hdefines : si.defines name vi n with
    | false => simp
    | true => simp [gnuHashAt_of_defines hdefines]

include h htest in
/-- The walk along a chain, by induction on the symbols that are left of the run. -/
theorem chainLoop_eq {b first last : ℕ} (hrun : si.BucketRun b first last) {n k : ℕ}
    (hn : first ≤ n) (hk : n + k = last) :
    GnuHash.chainLoop test (si.gnu.chain.drop (n - si.gnu.symOffset)) n =
      .ok ((List.range' n (k + 1)).find? (si.defines name vi)) := by
  induction k generalizing n with
  | zero =>
    obtain ⟨value, hdrop, hvalue, hmark⟩ := h.chain_entry htest hrun hn (by omega)
    have hend : ¬ value &&& 1 = 0 := fun heq => hmark.mp heq hk
    rw [hdrop, GnuHash.chainLoop, hvalue]
    simp only [bind, Except.bind, pure, Except.pure, if_neg hend]
    cases hdefines : si.defines name vi n <;> simp [hdefines]
  | succ k ih =>
    obtain ⟨value, hdrop, hvalue, hmark⟩ := h.chain_entry htest hrun hn (by omega)
    have hmore : value &&& 1 = 0 := hmark.mpr (by omega)
    rw [hdrop, GnuHash.chainLoop, hvalue, List.range'_succ]
    simp only [bind, Except.bind, pure, Except.pure, if_pos hmore]
    cases hdefines : si.defines name vi n with
    | true => rw [List.find?_cons_of_pos hdefines, if_pos rfl]
    | false =>
      rw [List.find?_cons_of_neg (by simp [hdefines]), if_neg Bool.false_ne_true]
      exact ih (by omega) (by omega)

include h in
theorem bucketHead_ok (hash : BitVec 32) : ∃ first : BitVec 32,
    si.gnu.bucket[hash.toNat % si.gnu.nbucket]? = some first ∧
      si.gnu.bucketHead hash = .ok first.toNat := by
  have hslot : hash.toNat % si.gnu.nbucket < si.gnu.bucket.length := by
    rw [h.bucket_length]
    exact Nat.mod_lt _ h.nbucket_pos
  have hbucket := List.getElem?_eq_getElem hslot
  refine ⟨_, hbucket, ?_⟩
  rw [GnuHash.bucketHead, if_neg h.nbucket_pos.ne', readEntry, hbucket]
  rfl

include h htest in
/-- Filter, bucket and chain lead to indices that no definition is missing from. -/
theorem search_eq : ∃ indices : List ℕ,
    si.gnu.search (calculateGnuHash (nameBytes name)) (.ok test) =
      .ok (indices.find? (si.defines name vi)) ∧
    ∀ n, si.defines name vi n = true → n ∈ indices := by
  obtain ⟨passed, hpassed⟩ := h.bloomTest_ok (calculateGnuHash (nameBytes name))
  obtain ⟨first, hbucket, hhead⟩ := h.bucketHead_ok (calculateGnuHash (nameBytes name))
  simp only [GnuHash.search, hpassed, hhead, bind, Except.bind, pure, Except.pure]
  cases passed with
  | false =>
    refine ⟨[], rfl, fun n hdefines => ?_⟩
    have hbloom := h.bloom n (h.symOffset_le_of_defines hdefines) (lt_length_of_defines hdefines)
    rw [gnuHashAt_of_defines hdefines, hpassed] at hbloom
    cases hbloom
  | true =>
    rcases h.buckets _ _ hbucket with ⟨rfl, hempty⟩ | ⟨last, hrun⟩
    · refine ⟨[], rfl, fun n hdefines => ?_⟩
      have hnot := hempty n (h.symOffset_le_of_defines hdefines) (lt_length_of_defines hdefines)
      rw [gnuHashAt_of_defines hdefines] at hnot
      exact (hnot rfl).elim
    · have hfirst := hrun.first_le
      have hfrom : si.gnu.chainFrom first.toNat =
          .ok (si.gnu.chain.drop (first.toNat - si.gnu.symOffset)) :=
        if_neg (Nat.not_lt.mpr hrun.symOffset_le)
      refine ⟨List.range' first.toNat (last - first.toNat + 1), ?_, fun n hdefines => ?_⟩
      · rw [if_pos rfl, if_neg hrun.first_pos.ne', hfrom]
        exact h.chainLoop_eq htest hrun le_rfl (by omega)
      · have hcovers := hrun.covers n (h.symOffset_le_of_defines hdefines)
          (lt_length_of_defines hdefines) (by rw [gnuHashAt_of_defines hdefines])
        rw [List.mem_range'_1]
        omega

end GnuOk

/-- The lookups in a GNU hash table agree, and find a definition if there is one. -/
theorem gnuLookup_spec (htables : si.TablesOk) (h : si.GnuOk) (name : String)
    (vi : Option VersionInfo) :
    ∃ r, si.gnuLookup name vi = .ok r ∧ Answers (si.Provides name vi) r := by
  obtain ⟨indices, hsearch, hall⟩ := h.search_eq fun n value hn =>
    htables.slowTest_eq hn (calculateGnuHash (nameBytes name)) value
  obtain ⟨r, hr, hanswers⟩ := symbolAt_find? hall
  refine ⟨r, ?_, hanswers⟩
  simp only [gnuLookup, htables.findVerdefVersionIndex_eq, bind, Except.bind, pure, Except.pure]
    at hsearch ⊢
  rw [hsearch]
  exact hr

theorem gnuFast_spec (htables : si.TablesOk) (h : si.GnuOk) (name : String)
    (vi : Option VersionInfo) :
    ∃ r, (do si.symbolAt (← si.gnu.search (calculateGnuHash (nameBytes name))
        (.ok (si.fastTest name vi (calculateGnuHash (nameBytes name)))))) = .ok r ∧
      Answers (si.Provides name vi) r := by
  obtain ⟨indices, hsearch, hall⟩ := h.search_eq fun n value hn =>
    htables.fastTest_eq hn (calculateGnuHash (nameBytes name)) value
  obtain ⟨r, hr, hanswers⟩ := symbolAt_find? hall
  refine ⟨r, ?_, hanswers⟩
  rw [hsearch]
  exact hr

end Gnu

section Sysv

/-- The symbols that the chain of a System V hash table leads to. -/
inductive ChainWalk (chain : List (BitVec 32)) : ℕ → List ℕ → Prop
  | nil : ChainWalk chain 0 []
  | cons {n : ℕ} {next : BitVec 32} {rest : List ℕ} (hpos : 0 < n) (hnext : chain[n]? = some next)
      (hrest : ChainWalk chain next.toNat rest) : ChainWalk chain n (n :: rest)

def elfHashAt (si : LinkerSoinfo) (n : ℕ) : BitVec 32 :=
  match si.symtab[n]? with
  | some sym => calculateElfHash (si.stringAt sym.stName)
  | none => 0

/-- A System V hash table of the symbols of a library. -/
structure SysvOk (si : LinkerSoinfo) : Prop where
  nbucket_pos : 0 < si.sysv.nbucket
  bucket_length : si.sysv.bucket.length = si.sysv.nbucket
  walks : ∀ (b : ℕ) (first : BitVec 32), si.sysv.bucket[b]? = some first → ∃ walk,
    ChainWalk si.sysv.chain first.toNat walk ∧ walk.Nodup ∧ (∀ n ∈ walk, n < si.symtab.length) ∧
    ∀ (n : ℕ) sym, si.symtab[n]? = some sym → isSymbolGlobalAndDefined sym = true →
      (si.elfHashAt n).toNat % si.sysv.nbucket = b → n ∈ walk

theorem elfChainLoop_eq (htables : si.TablesOk) {n : ℕ} {walk : List ℕ}
    (hwalk : ChainWalk si.sysv.chain n walk) (hbound : ∀ n ∈ walk, n < si.symtab.length)
    {bound : ℕ} (hlength : walk.length < bound) :
    si.elfChainLoop name (si.verneed vi) bound n =
      si.symbolAt (walk.find? (si.defines name vi)) := by
  induction hwalk generalizing bound with
  | nil =>
    obtain ⟨bound, rfl⟩ := Nat.exists_eq_succ_of_ne_zero (by omega : bound ≠ 0)
    rfl
  | @cons n next rest hpos hnext _ ih =>
    obtain ⟨bound, rfl⟩ := Nat.exists_eq_succ_of_ne_zero (by omega : bound ≠ 0)
    rw [List.forall_mem_cons] at hbound
    rw [elfChainLoop, if_neg hpos.ne', htables.plainTest_eq hbound.1]
    simp only [bind, Except.bind]
    cases hdefines : si.defines name vi n with
    | true => rw [List.find?_cons_of_pos hdefines, if_pos rfl]
    | false =>
      rw [List.find?_cons_of_neg (by simp [hdefines]), if_neg Bool.false_ne_true]
      simp only [readEntry, hnext]
      exact ih hbound.2 (by simpa using hlength)

theorem elfLookup_spec (htables : si.TablesOk) (h : si.SysvOk) (name : String)
    (vi : Option VersionInfo) :
    ∃ r, si.elfLookup name vi = .ok r ∧ Answers (si.Provides name vi) r := by
  have hslot : (calculateElfHash (nameBytes name)).toNat % si.sysv.nbucket <
      si.sysv.bucket.length := by
    rw [h.bucket_length]
    exact Nat.mod_lt _ h.nbucket_pos
  have hbucket := List.getElem?_eq_getElem hslot
  obtain ⟨walk, hwalk, hnodup, hbound, hall⟩ := h.walks _ _ hbucket
  have hlength : walk.length ≤ si.symtab.length := by
    have hsubset : walk ⊆ List.range si.symtab.length :=
      fun n hn => List.mem_range.mpr (hbound n hn)
    simpa using (List.subperm_of_subset hnodup hsubset).length_le
  have hcovers (n : ℕ) (hdefines : si.defines name vi n = true) : n ∈ walk := by
    obtain ⟨sym, hget, -, hname, hdefined⟩ := defines_iff.mp hdefines
    exact hall n sym hget hdefined (by simp only [elfHashAt, hget, hname])
  obtain ⟨r, hr, hanswers⟩ := symbolAt_find? hcovers
  refine ⟨r, ?_, hanswers⟩
  have hloop : si.elfChainLoop name (si.verneed vi) (si.symtab.length + 1) _ =
      si.symbolAt (walk.find? (si.defines name vi)) :=
    elfChainLoop_eq htables hwalk hbound (Nat.lt_succ_of_le hlength)
  rw [elfLookup, if_neg h.nbucket_pos.ne', readEntry, hbucket]
  simp only [htables.findVerdefVersionIndex_eq, bind, Except.bind]
  exact hloop.trans hr

end Sysv

end LinkerSoinfo
end Sober
