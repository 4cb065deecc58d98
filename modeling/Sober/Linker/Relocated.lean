import Sober.Linker.RelocationResult

/-! # A relocated library

What the memory of a library holds once it was relocated. Packed relocations count as
the plain ones that they encode. If no two of the targets overlap, every target holds the
value of its own relocation, and nothing outside the targets has changed.
-/
namespace Sober
open Machine

/-- The relocations that a packed table stands for. -/
inductive AndroidRelocs : Option (List Byte) → List Rela → Prop
  | none : AndroidRelocs none []
  | packed {offset : Word} {groups : List RelocGroup} (hfit : GroupsFit ⟨offset, 0, 0⟩ groups)
      (hcount : (groups.flatMap RelocGroup.relocs).length < 2 ^ 64) :
      AndroidRelocs (some (packedSignature ++ encodePacked offset groups))
        (groups.flatMap RelocGroup.relocs)

section Packed
variable {S : Type} (process : Rela → S → Except RelocError S)

theorem runCallback_relocCallback (relocs : List Rela) (s : S) :
    (runCallback (relocCallback process) relocs (.ok s)).1 =
      relocs.foldlM (fun s reloc => process reloc s) s := by
  induction relocs generalizing s with
  | nil => rfl
  | cons reloc rest ih =>
    have hbind : (Except.ok s).bind (process reloc) = process reloc s := rfl
    rw [runCallback, List.foldlM_cons, relocCallback, hbind]
    cases process reloc s with
    | error e => rfl
    | ok s' => exact ih s'

theorem relocateAndroid_eq_foldlM {bytes? : Option (List Byte)} {relocs : List Rela}
    (h : AndroidRelocs bytes? relocs) (s : S) :
    relocateAndroid process s bytes? = relocs.foldlM (fun s reloc => process reloc s) s := by
  cases h with
  | none => rfl
  | @packed offset groups hfit hcount =>
    have hbody : packedBody (packedSignature ++ encodePacked offset groups) =
        some (encodePacked offset groups) := rfl
    rw [relocateAndroid, hbody]
    simp only [packedRelocateImpl, forAllPackedRelocs_encodePacked _ hfit hcount]
    exact runCallback_relocCallback process _ s

end Packed

section Relocated
variable {Lib Version : Type} (env : RelocEnv Lib Version)

theorem relocatedMemory_eq_foldlM {tables : RelocTables} {packed : List Rela}
    (h : AndroidRelocs tables.androidRelocs packed) (m : Memory) :
    relocatedMemory env tables m =
      (packed ++ tables.rela ++ tables.pltRela).foldlM (fun m reloc => applyReloc env reloc m)
        (relocateRelr env.loadBias tables.relr m) := by
  rw [relocatedMemory, relocateAndroid_eq_foldlM _ h, List.append_assoc, List.foldlM_append]

/-- It makes no difference whether relocations come packed, however they are grouped, or
at the front of the plain table. -/
theorem relocate_packed_eq_plain {tables : RelocTables} {packed : List Rela}
    (h : AndroidRelocs tables.androidRelocs packed) (needsSlowRelocateLoop : Bool) (m : Memory) :
    (relocate env needsSlowRelocateLoop tables m).map RelocState.memory =
      (relocate env needsSlowRelocateLoop
        { tables with androidRelocs := none, rela := packed ++ tables.rela } m).map
        RelocState.memory := by
  rw [(relocate_refines env _ tables m).map_eq fun _ _ h => h.1,
    (relocate_refines env _ _ m).map_eq fun _ _ h => h.1, relocatedMemory_eq_foldlM env h,
    relocatedMemory_eq_foldlM env .none]
  rfl

def RelocWrite.HeldAt (target : Word) (m : Memory) : RelocWrite → Prop
  | nothing => True
  | word value => read64 m target = value
  | half value => readBytes m target 4 = halfBytes value

def RelocWrite.width : RelocWrite → ℕ
  | nothing => 0
  | word _ => 8
  | half _ => 4

def RelocEnv.extent (reloc : Rela) : Extent :=
  ⟨env.target reloc, match reloc.rType with
    | .none => 0
    | .irelative => if env.isLinker then 0 else 8
    | .x86Direct32 | .x86Pc32 => 4
    | _ => 8⟩

theorem RelocWrite.width_eq {m : Memory} {reloc : Rela} {w : RelocWrite}
    (h : relocWrite env m reloc = .ok w) : w.width = (env.extent reloc).size := by
  obtain ⟨symName, -, hrest⟩ := Transition.ok_of_bind h
  rw [RelocEnv.extent]
  cases htype : reloc.rType <;> rw [htype] at hrest
  case none =>
    cases hrest
    rfl
  case irelative =>
    obtain ⟨-, -, hw⟩ := Transition.ok_of_bind hrest
    dsimp only at hw ⊢
    split_ifs at hw ⊢ <;>
    · cases hw
      rfl
  case copy | unknown | tlsdesc =>
    obtain ⟨-, -, hw⟩ := Transition.ok_of_bind hrest
    cases hw
  case tlsDtpmod =>
    obtain ⟨reference, -, hmodule⟩ := Transition.ok_of_bind hrest
    obtain ⟨moduleId, -, hw⟩ := Transition.ok_of_bind hmodule
    cases hw
    rfl
  all_goals
    obtain ⟨address, -, hw⟩ := Transition.ok_of_bind hrest
    cases hw
    rfl

theorem RelocWrite.apply_of_outside (w : RelocWrite) {target x : Word} (m : Memory)
    (h : w.width ≤ (x - target).toNat) : w.apply target m x = m x := by
  cases w with
  | nothing => rfl
  | word value => exact if_neg (Nat.not_lt.mpr h)
  | half value => exact dif_neg (Nat.not_lt.mpr (by rwa [length_halfBytes]))

theorem RelocWrite.heldAt_apply (w : RelocWrite) (target : Word) (m : Memory) :
    w.HeldAt target (w.apply target m) := by
  cases w with
  | nothing => trivial
  | word value => exact read64_write64 m target value
  | half value =>
    have hread : readBytes (writeBytes m target (halfBytes value)) target (halfBytes value).length =
        halfBytes value := readBytes_writeBytes (by simp)
    rwa [length_halfBytes] at hread

theorem RelocWrite.HeldAt.congr {w : RelocWrite} {target : Word} {m m' : Memory}
    (h : w.HeldAt target m)
    (hagree : ∀ x, Extent.Contains ⟨target, w.width⟩ x → m' x = m x) : w.HeldAt target m' := by
  cases w with
  | nothing => trivial
  | word value =>
    have hwords : AgreeOn target 1 m' m := hagree
    exact hwords.read64_eq.trans h
  | half value =>
    refine Eq.trans (List.map_congr_left fun i hi => hagree _ ?_) h
    have := List.mem_range.mp hi
    rw [Extent.Contains, toNat_offset target (by omega)]
    exact this

variable {env} {relocs : List Rela} {m m' : Memory}

/-- The memories before and after relocations of which one succeeds after the other. -/
theorem foldlM_applyReloc_cons {reloc : Rela}
    (h : (reloc :: relocs).foldlM (fun m reloc => applyReloc env reloc m) m = .ok m') :
    ∃ w, relocWrite env m reloc = .ok w ∧
      relocs.foldlM (fun m reloc => applyReloc env reloc m) (w.apply (env.target reloc) m) =
        .ok m' := by
  rw [List.foldlM_cons, applyReloc] at h
  cases hwrite : relocWrite env m reloc with
  | error e =>
    rw [hwrite] at h
    cases h
  | ok w =>
    rw [hwrite] at h
    exact ⟨w, rfl, h⟩

theorem applyRelocs_of_outside
    (h : relocs.foldlM (fun m reloc => applyReloc env reloc m) m = .ok m') {x : Word}
    (hx : ∀ reloc ∈ relocs, ¬ (env.extent reloc).Contains x) : m' x = m x := by
  induction relocs generalizing m with
  | nil =>
    cases h
    rfl
  | cons reloc relocs ih =>
    obtain ⟨w, hw, hrest⟩ := foldlM_applyReloc_cons h
    rw [List.forall_mem_cons] at hx
    refine (ih hrest hx.2).trans (w.apply_of_outside m ?_)
    rw [RelocWrite.width_eq env hw]
    exact Nat.not_lt.mp hx.1

theorem relocWrite_of_resolver (h : env.resolver m = env.resolver m') (reloc : Rela) :
    relocWrite env m reloc = relocWrite env m' reloc := by
  have haddress (missing : Word) : addressOf env m missing = addressOf env m' missing := by
    funext found
    simp only [addressOf, h]
  simp only [relocWrite, symbolAddress, haddress, h]

theorem applyRelocs_heldAt (hresolver : ∀ m m', env.resolver m = env.resolver m')
    (h : relocs.foldlM (fun m reloc => applyReloc env reloc m) m = .ok m')
    (hapart : (relocs.map env.extent).Pairwise Extent.Apart) {reloc : Rela} (hmem : reloc ∈ relocs)
    (m₀ : Memory) :
    ∃ w, relocWrite env m₀ reloc = .ok w ∧ w.HeldAt (env.target reloc) m' := by
  induction relocs generalizing m with
  | nil => cases hmem
  | cons first relocs ih =>
    obtain ⟨w, hw, hrest⟩ := foldlM_applyReloc_cons h
    rw [List.map_cons, List.pairwise_cons, List.forall_mem_map] at hapart
    rcases List.mem_cons.mp hmem with rfl | hmem
    · refine ⟨w, (relocWrite_of_resolver (hresolver m₀ m) _).trans hw, ?_⟩
      refine (w.heldAt_apply _ m).congr fun x hx =>
        applyRelocs_of_outside hrest fun later hlater => ?_
      rw [RelocWrite.width_eq env hw] at hx
      exact (hapart.1 later hlater).not_contains hx
    · exact ih hrest hapart.2 hmem

theorem RelocEnv.extent_size_le (env : RelocEnv Lib Version) (reloc : Rela) :
    (env.extent reloc).size ≤ 8 := by
  rw [extent]
  cases reloc.rType <;> dsimp only
  case irelative => split_ifs <;> omega
  all_goals omega

/-- Targets that are words apart. -/
theorem RelocEnv.extents_apart (h : (relocs.map env.target).Pairwise Apart) :
    (relocs.map env.extent).Pairwise Extent.Apart := by
  rw [List.pairwise_map] at h ⊢
  refine h.imp fun {first later} ⟨hfirst, hlater⟩ i hi => ?_
  have hi : i < 8 := hi.trans_le (env.extent_size_le first)
  have hwidth := env.extent_size_le later
  refine hwidth.trans ?_
  change 8 ≤ (env.target first + BitVec.ofNat 64 i - env.target later).toNat
  bv_omega

section Success
variable {tables : RelocTables} {packed : List Rela}
  (h : AndroidRelocs tables.androidRelocs packed) {needsSlowRelocateLoop : Bool}
  {st : RelocState Lib} (hrelocate : relocate env needsSlowRelocateLoop tables m = .ok st)
include h hrelocate

/-- A relocation that succeeds, as the relocations one by one. -/
theorem foldlM_of_relocate :
    (packed ++ tables.rela ++ tables.pltRela).foldlM (fun m reloc => applyReloc env reloc m)
      (relocateRelr env.loadBias tables.relr m) = .ok st.memory := by
  rw [← relocatedMemory_eq_foldlM env h,
    ← (relocate_refines env needsSlowRelocateLoop tables m).map_eq fun _ _ h => h.1, hrelocate]
  rfl

theorem relocate_heldAt (hresolver : ∀ m m', env.resolver m = env.resolver m')
    (hapart : ((packed ++ tables.rela ++ tables.pltRela).map env.extent).Pairwise Extent.Apart)
    {reloc : Rela} (hmem : reloc ∈ packed ++ tables.rela ++ tables.pltRela) :
    ∃ w, relocWrite env m reloc = .ok w ∧ w.HeldAt (env.target reloc) st.memory :=
  applyRelocs_heldAt hresolver (foldlM_of_relocate h hrelocate) hapart hmem m

end Success

/-- The bytes that the tables are about: the words of the RELR table and the targets of the
relocations. -/
def relocExtents (env : RelocEnv Lib Version) (tables : RelocTables) (packed : List Rela) :
    List Extent :=
  (relrOffsets tables.relr 0).map (fun offset => ⟨offset + env.loadBias, 8⟩) ++
    (packed ++ tables.rela ++ tables.pltRela).map env.extent

theorem apart_of_extents {addresses : List Word}
    (h : (addresses.map fun a => (⟨a, 8⟩ : Extent)).Pairwise Extent.Apart) :
    addresses.Pairwise Apart := by
  rw [List.pairwise_map] at h
  have hself (a : Word) : Extent.Contains ⟨a, 8⟩ a := by
    rw [Extent.Contains, sub_self]
    exact Nat.succ_pos 7
  refine h.imp fun {a b} hapart => ⟨?_, ?_⟩
  · exact Nat.not_lt.mp (hapart.not_contains (hself a))
  · exact Nat.not_lt.mp fun hlt => hapart.not_contains hlt (hself b)

/-- If the resolvers of indirect functions do not depend on memory and no two targets
overlap, a library that was relocated has every word of its RELR table moved by the load bias,
holds at the target of every other relocation the value of that relocation, and is unchanged
everywhere else. -/
theorem relocate_holds (hresolver : ∀ m m', env.resolver m = env.resolver m')
    {tables : RelocTables} {packed : List Rela} (h : AndroidRelocs tables.androidRelocs packed)
    (hapart : (relocExtents env tables packed).Pairwise Extent.Apart)
    {needsSlowRelocateLoop : Bool} {st : RelocState Lib}
    (hrelocate : relocate env needsSlowRelocateLoop tables m = .ok st) :
    (∀ offset ∈ relrOffsets tables.relr 0,
      read64 st.memory (offset + env.loadBias) =
        read64 m (offset + env.loadBias) + env.loadBias) ∧
    (∀ reloc ∈ packed ++ tables.rela ++ tables.pltRela,
      ∃ w, relocWrite env m reloc = .ok w ∧ w.HeldAt (env.target reloc) st.memory) ∧
    ∀ x, (∀ extent ∈ relocExtents env tables packed, ¬ extent.Contains x) →
      st.memory x = m x := by
  have hfold := foldlM_of_relocate h hrelocate
  rw [relocExtents, List.pairwise_append] at hapart
  obtain ⟨hwords, hrelocs, hbetween⟩ := hapart
  refine ⟨fun offset hmem => ?_, fun _ => relocate_heldAt h hrelocate hresolver hrelocs,
    fun x hx => ?_⟩
  · have hlater : AgreeOn (offset + env.loadBias) 1 st.memory
        (relocateRelr env.loadBias tables.relr m) := by
      refine fun x hx => applyRelocs_of_outside hfold fun reloc hreloc => ?_
      have hpair := hbetween _ (List.mem_map_of_mem hmem) _ (List.mem_map_of_mem hreloc)
      exact hpair.not_contains hx
    rw [hlater.read64_eq, relocateRelr_eq]
    refine read64_updateWords _ _ (apart_of_extents ?_) (List.mem_map_of_mem hmem)
    rwa [List.map_map]
  · rw [relocExtents, List.forall_mem_append, List.forall_mem_map, List.forall_mem_map] at hx
    rw [applyRelocs_of_outside hfold hx.2, relocateRelr_eq]
    apply updateWords_of_outside
    rw [List.forall_mem_map]
    exact fun offset hmem => Nat.not_lt.mp (hx.1 offset hmem)

end Relocated

section Example

def exampleEnv : RelocEnv Unit Unit where
  si := ()
  isLinker := false
  symtab := fun _ => some ⟨1, 0x12, 0, 1, 0x500, 0⟩
  getString := fun _ => some "f"
  lookupVersionInfo := fun _ _ => .ok none
  doLookup := fun _ _ => .ok (some ((), ⟨1, 0x12, 0, 1, 0x500, 0⟩))
  soinfo := fun _ => ⟨"lib", 0x10000, 0, true, ∅⟩
  tlsModule := fun _ => none
  resolver := fun _ a => a

def examplePacked : RelocTables :=
  ⟨[], some (packedSignature ++ encodePacked 0x1000 exampleGroups), [],
    [⟨0x3000, 0x100000402, 0⟩]⟩

theorem relocate_packed_eq_plain_example :
    (relocate exampleEnv false examplePacked fun _ => 0).map RelocState.memory =
    (relocate exampleEnv false ⟨[], none,
      [⟨0x1008, 1027, 0⟩, ⟨0x1010, 1027, 0⟩, ⟨0x2000, 257, 5⟩], [⟨0x3000, 0x100000402, 0⟩]⟩
      fun _ => 0).map RelocState.memory := by
  have hpacked : AndroidRelocs examplePacked.androidRelocs
      (exampleGroups.flatMap RelocGroup.relocs) := .packed exampleGroups_fit (by decide)
  exact relocate_packed_eq_plain exampleEnv hpacked false fun _ => 0

/-- Two words in a RELR table, a relative relocation, a 4-byte one next to it and one of the
procedure linkage table. -/
def exampleTables : RelocTables :=
  ⟨[0x1000, 3], none, [⟨0x2000, 1027, 8⟩, ⟨0x2008, 0x10000000A, 0⟩], [⟨0x200C, 0x100000402, 0⟩]⟩

theorem relocate_holds_example :
    ∃ st, relocate exampleEnv false exampleTables (fun _ => 0) = .ok st ∧
      read64 st.memory 0x11000 = 0x10000 ∧ read64 st.memory 0x11008 = 0x10000 ∧
      read64 st.memory 0x12000 = 0x10008 ∧ readBytes st.memory 0x12008 4 = [0, 5, 1, 0] ∧
      read64 st.memory 0x1200C = 0x10500 ∧ st.memory 0x11FFF = 0 := by
  obtain ⟨st, hst⟩ : ∃ st, relocate exampleEnv false exampleTables (fun _ => 0) = .ok st :=
    ⟨_, rfl⟩
  have hnone : AndroidRelocs exampleTables.androidRelocs [] := .none
  obtain ⟨hrelr, hheld, hrest⟩ := relocate_holds (fun _ _ => rfl) hnone (by decide) hst
  obtain ⟨w, hw, hrelative⟩ := hheld ⟨0x2000, 1027, 8⟩ (by decide)
  obtain ⟨w', hw', hhalf⟩ := hheld ⟨0x2008, 0x10000000A, 0⟩ (by decide)
  obtain ⟨w'', hw'', hslot⟩ := hheld ⟨0x200C, 0x100000402, 0⟩ (by decide)
  cases hw
  cases hw'
  cases hw''
  exact ⟨st, hst, hrelr 0x1000 (by decide), hrelr 0x1008 (by decide), hrelative, hhalf, hslot,
    hrest 0x11FFF (by decide)⟩

end Example
end Sober
