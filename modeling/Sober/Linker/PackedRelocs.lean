import Sober.Linker.Sleb128

/-! # Packed relocations

The relocations of a library come in groups. A group can share one symbol and type, one
distance between targets, and one addend; what is not shared is written for every
relocation, targets and addends as differences. Every grouping of a list of relocations
decodes to that list.
-/
namespace Sober
open Machine

structure Rela where
  rOffset : Word
  rInfo : Word
  rAddend : Word
  deriving DecidableEq

attribute [ext] Rela

/-- `RELOCATION_GROUPED_BY_INFO_FLAG` and the other group flags. -/
def groupedByInfoFlag : Word := 1
def groupedByOffsetDeltaFlag : Word := 2
def groupedByAddendFlag : Word := 4
def groupHasAddendFlag : Word := 8

/-- Take a number, or leave the bytes and use a default. -/
def popIf (condition : Bool) (default : Word) (bytes : List Byte) :
    Except PackedFault (Word × List Byte) :=
  if condition then popFront bytes else .ok (default, bytes)

structure PackedCursor where
  bytes : List Byte
  reloc : Rela

structure GroupHeader where
  size : Word
  flags : Word
  offsetDelta : Word

section Decoder

def packedGroupHeader (c : PackedCursor) : Except PackedFault (GroupHeader × PackedCursor) := do
  let (size, bytes) ← popFront c.bytes
  let (flags, bytes) ← popFront bytes
  let (offsetDelta, bytes) ← popIf (flags &&& groupedByOffsetDeltaFlag ≠ 0) 0 bytes
  let (info, bytes) ← popIf (flags &&& groupedByInfoFlag ≠ 0) c.reloc.rInfo bytes
  let addendFlags := flags &&& (groupHasAddendFlag ||| groupedByAddendFlag)
  let (addend, bytes) ← popIf (addendFlags = groupHasAddendFlag ||| groupedByAddendFlag) 0 bytes
  let rAddend := if addendFlags = groupHasAddendFlag then c.reloc.rAddend
    else if addendFlags = groupHasAddendFlag ||| groupedByAddendFlag then c.reloc.rAddend + addend
    else 0
  return (⟨size, flags, offsetDelta⟩, ⟨bytes, ⟨c.reloc.rOffset, info, rAddend⟩⟩)

def packedReloc (g : GroupHeader) (c : PackedCursor) : Except PackedFault PackedCursor := do
  let (distance, bytes) ← popIf (g.flags &&& groupedByOffsetDeltaFlag = 0) g.offsetDelta c.bytes
  let (info, bytes) ← popIf (g.flags &&& groupedByInfoFlag = 0) c.reloc.rInfo bytes
  let (addend, bytes) ← popIf (g.flags &&& (groupHasAddendFlag ||| groupedByAddendFlag) =
    groupHasAddendFlag) 0 bytes
  return ⟨bytes, ⟨c.reloc.rOffset + distance, info, c.reloc.rAddend + addend⟩⟩

variable {S : Type} (callback : Rela → S → S × Bool)

/-- The relocations of a group; `none` if the callback ended the iteration. -/
def packedGroup (g : GroupHeader) :
    ℕ → PackedCursor → S → Except PackedFault (Option PackedCursor × S)
  | 0, c, s => .ok (some c, s)
  | n + 1, c, s => do
    let c ← packedReloc g c
    match callback c.reloc s with
    | (s, true) => packedGroup g n c s
    | (s, false) => return (none, s)

/-- The groups. Each takes bytes, so that a bound above their number is not reached. -/
def packedGroups (numRelocs : Word) :
    ℕ → Word → PackedCursor → S → Except PackedFault (S × Bool)
  | 0, _, _, _ => .error .outOfBounds
  | bound + 1, idx, c, s =>
    if idx < numRelocs then do
      let (g, c) ← packedGroupHeader c
      let (c?, s) ← packedGroup callback g g.size.toNat c s
      match c? with
      | none => return (s, false)
      | some c => packedGroups numRelocs bound (idx + g.size) c s
    else .ok (s, true)

def forAllPackedRelocs (bytes : List Byte) (s : S) : Except PackedFault (S × Bool) := do
  let (numRelocs, bytes) ← popFront bytes
  let (offset, bytes) ← popFront bytes
  packedGroups callback numRelocs (bytes.length + 1) 0 ⟨bytes, ⟨offset, 0, 0⟩⟩ s

/-- The callback is run on relocations in order until it fails. -/
def runCallback : List Rela → S → S × Bool
  | [], s => (s, true)
  | reloc :: rest, s =>
    match callback reloc s with
    | (s, true) => runCallback rest s
    | (s, false) => (s, false)

theorem runCallback_append (before after : List Rela) (s : S) :
    runCallback callback (before ++ after) s =
      if (runCallback callback before s).2 then
        runCallback callback after (runCallback callback before s).1
      else runCallback callback before s := by
  induction before generalizing s with
  | nil => rfl
  | cons reloc rest ih =>
    rw [List.cons_append, runCallback, runCallback]
    rcases callback reloc s with ⟨s', _ | _⟩
    · rfl
    · exact ih s'

end Decoder

section Encoding

inductive GroupAddends where
  | none
  | shared
  | each
  deriving DecidableEq

/-- The flags of a group that shares some of symbol and type, distance and addend. -/
def groupFlags (byInfo byOffsetDelta : Bool) (addends : GroupAddends) : Word :=
  (if byInfo then groupedByInfoFlag else 0) |||
    (if byOffsetDelta then groupedByOffsetDeltaFlag else 0) |||
    match addends with
    | .none => 0
    | .shared => groupHasAddendFlag ||| groupedByAddendFlag
    | .each => groupHasAddendFlag

structure RelocGroup where
  byInfo : Bool
  byOffsetDelta : Bool
  addends : GroupAddends
  first : Rela
  others : List Rela

namespace RelocGroup

def relocs (g : RelocGroup) : List Rela := g.first :: g.others

def flags (g : RelocGroup) : Word := groupFlags g.byInfo g.byOffsetDelta g.addends

/-- The last relocation, from which the next group counts. -/
def last (g : RelocGroup) : Rela := g.relocs.getLast (by simp [relocs])

/-- The relocations have in common what the group shares. -/
structure Fits (start : Rela) (g : RelocGroup) : Prop where
  info : g.byInfo = true → ∀ r ∈ g.others, r.rInfo = g.first.rInfo
  offsetDelta : g.byOffsetDelta = true → g.relocs.IsChain fun a b =>
    b.rOffset = a.rOffset + (g.first.rOffset - start.rOffset)
  noAddend : g.addends = .none → ∀ r ∈ g.relocs, r.rAddend = 0
  sharedAddend : g.addends = .shared → ∀ r ∈ g.others, r.rAddend = g.first.rAddend
  size : g.relocs.length < 2 ^ 64

end RelocGroup

def encodeIf (condition : Bool) (w : Word) : List Byte :=
  if condition then encodeSleb128 w.toInt else []

def encodeHeader (start : Rela) (g : RelocGroup) : List Byte :=
  encodeSleb128 (BitVec.ofNat 64 g.relocs.length).toInt ++ encodeSleb128 g.flags.toInt ++
    encodeIf g.byOffsetDelta (g.first.rOffset - start.rOffset) ++
    encodeIf g.byInfo g.first.rInfo ++
    encodeIf (g.addends = .shared) (g.first.rAddend - start.rAddend)

def encodeReloc (g : RelocGroup) (prior r : Rela) : List Byte :=
  encodeIf (!g.byOffsetDelta) (r.rOffset - prior.rOffset) ++ encodeIf (!g.byInfo) r.rInfo ++
    encodeIf (g.addends = .each) (r.rAddend - prior.rAddend)

def encodeRelocs (g : RelocGroup) : Rela → List Rela → List Byte
  | _, [] => []
  | prior, r :: rest => encodeReloc g prior r ++ encodeRelocs g r rest

def encodeGroup (start : Rela) (g : RelocGroup) : List Byte :=
  encodeHeader start g ++ encodeRelocs g start g.relocs

def encodeGroups : Rela → List RelocGroup → List Byte
  | _, [] => []
  | start, g :: rest => encodeGroup start g ++ encodeGroups g.last rest

/-- The packed form of relocations in groups, counted from a first offset. -/
def encodePacked (offset : Word) (groups : List RelocGroup) : List Byte :=
  encodeSleb128 (BitVec.ofNat 64 (groups.flatMap RelocGroup.relocs).length).toInt ++
    encodeSleb128 offset.toInt ++ encodeGroups ⟨offset, 0, 0⟩ groups

def GroupsFit : Rela → List RelocGroup → Prop
  | _, [] => True
  | start, g :: rest => g.Fits start ∧ GroupsFit g.last rest

theorem popIf_encodeIf (condition : Bool) (default w : Word) (rest : List Byte) :
    popIf condition default (encodeIf condition w ++ rest) =
      .ok (if condition then w else default, rest) := by
  cases condition with
  | true => exact popFront_encodeSleb128 w rest
  | false => rfl

namespace RelocGroup

section Flags

theorem groupFlags_spec (byInfo byOffsetDelta : Bool) (addends : GroupAddends) :
    (groupFlags byInfo byOffsetDelta addends &&& groupedByOffsetDeltaFlag = 0 ↔
      byOffsetDelta = false) ∧
    (groupFlags byInfo byOffsetDelta addends &&& groupedByInfoFlag = 0 ↔ byInfo = false) ∧
    (groupFlags byInfo byOffsetDelta addends &&& (groupHasAddendFlag ||| groupedByAddendFlag) =
      groupHasAddendFlag ||| groupedByAddendFlag ↔ addends = .shared) ∧
    (groupFlags byInfo byOffsetDelta addends &&& (groupHasAddendFlag ||| groupedByAddendFlag) =
      groupHasAddendFlag ↔ addends = .each) := by
  cases byInfo <;> cases byOffsetDelta <;> cases addends <;> decide

variable (g : RelocGroup)

theorem flags_offsetDelta :
    g.flags &&& groupedByOffsetDeltaFlag = 0 ↔ g.byOffsetDelta = false :=
  (groupFlags_spec _ _ _).1

theorem flags_info : g.flags &&& groupedByInfoFlag = 0 ↔ g.byInfo = false :=
  (groupFlags_spec _ _ _).2.1

theorem flags_shared : g.flags &&& (groupHasAddendFlag ||| groupedByAddendFlag) =
    groupHasAddendFlag ||| groupedByAddendFlag ↔ g.addends = .shared :=
  (groupFlags_spec _ _ _).2.2.1

theorem flags_each : g.flags &&& (groupHasAddendFlag ||| groupedByAddendFlag) =
    groupHasAddendFlag ↔ g.addends = .each :=
  (groupFlags_spec _ _ _).2.2.2

end Flags

def startAddend (start : Rela) (g : RelocGroup) : Word :=
  match g.addends with
  | .none => 0
  | .shared => g.first.rAddend
  | .each => start.rAddend

def header (start : Rela) (g : RelocGroup) : GroupHeader where
  size := BitVec.ofNat 64 g.relocs.length
  flags := g.flags
  offsetDelta := if g.byOffsetDelta then g.first.rOffset - start.rOffset else 0

theorem packedGroupHeader_encode (start : Rela) (g : RelocGroup) (rest : List Byte) :
    packedGroupHeader ⟨encodeHeader start g ++ rest, start⟩ =
      .ok (g.header start, ⟨rest, ⟨start.rOffset,
        if g.byInfo then g.first.rInfo else start.rInfo, g.startAddend start⟩⟩) := by
  simp only [packedGroupHeader, encodeHeader, List.append_assoc, popFront_encodeSleb128, bind,
    Except.bind, ne_eq, flags_offsetDelta, flags_info, flags_shared, flags_each,
    Bool.not_eq_false, Bool.decide_eq_true, popIf_encodeIf, header, startAddend]
  cases g.addends <;> simp [pure, Except.pure]

/-- After `prior`, the relocation `r` has what the group shares. -/
structure Follows (start : Rela) (g : RelocGroup) (prior r : Rela) : Prop where
  offset : g.byOffsetDelta = true → r.rOffset = prior.rOffset + (g.first.rOffset - start.rOffset)
  info : g.byInfo = true → prior.rInfo = r.rInfo
  addend : g.addends ≠ .each → prior.rAddend = r.rAddend

theorem packedReloc_encode {start : Rela} {g : RelocGroup} {prior r : Rela}
    (h : g.Follows start prior r) (rest : List Byte) :
    packedReloc (g.header start) ⟨encodeReloc g prior r ++ rest, prior⟩ = .ok ⟨rest, r⟩ := by
  simp only [packedReloc, encodeReloc, header, List.append_assoc, bind, Except.bind, pure,
    Except.pure, flags_offsetDelta, flags_info, flags_each, Bool.decide_eq_false, popIf_encodeIf,
    Except.ok.injEq, PackedCursor.mk.injEq, true_and]
  rw [Rela.ext_iff]
  refine ⟨?_, ?_, ?_⟩
  · cases hdelta : g.byOffsetDelta with
    | true => simp [h.offset hdelta]
    | false => simp
  · cases hinfo : g.byInfo with
    | true => simp [h.info hinfo]
    | false => simp
  · by_cases heach : g.addends = .each
    · simp [heach]
    · simp [heach, h.addend heach]

/-- The state of the decoder between the header of a group and its first relocation. -/
def opened (start : Rela) (g : RelocGroup) : Rela :=
  ⟨start.rOffset, if g.byInfo then g.first.rInfo else start.rInfo, g.startAddend start⟩

theorem Fits.follows_first {start : Rela} {g : RelocGroup} (h : g.Fits start) :
    g.Follows start (g.opened start) g.first where
  offset _ := by simp [opened]
  info hinfo := by simp [opened, hinfo]
  addend heach := by
    cases haddends : g.addends with
    | none =>
      have hzero : (g.opened start).rAddend = 0 := by simp [opened, startAddend, haddends]
      exact hzero.trans (h.noAddend haddends g.first List.mem_cons_self).symm
    | shared => simp [opened, startAddend, haddends]
    | each => exact (heach haddends).elim

theorem Fits.isChain {start : Rela} {g : RelocGroup} (h : g.Fits start) :
    (g.opened start :: g.relocs).IsChain (g.Follows start) := by
  have hinfo (hby : g.byInfo = true) : ∀ r ∈ g.relocs, r.rInfo = g.first.rInfo :=
    List.forall_mem_cons.mpr ⟨rfl, h.info hby⟩
  have hshared (hby : g.addends = .shared) : ∀ r ∈ g.relocs, r.rAddend = g.first.rAddend :=
    List.forall_mem_cons.mpr ⟨rfl, h.sharedAddend hby⟩
  have hoffset : g.relocs.IsChain fun a b => g.byOffsetDelta = true →
      b.rOffset = a.rOffset + (g.first.rOffset - start.rOffset) := by
    cases hdelta : g.byOffsetDelta with
    | true => exact (h.offsetDelta hdelta).imp fun _ _ hab _ => hab
    | false => exact (List.pairwise_of_forall (by simp)).isChain
  refine List.isChain_cons_cons.mpr ⟨h.follows_first, hoffset.imp_of_mem_imp ?_⟩
  intro a b ha hb hab
  refine ⟨hab, fun hby => (hinfo hby a ha).trans (hinfo hby b hb).symm, fun heach => ?_⟩
  cases haddends : g.addends with
  | none => rw [h.noAddend haddends a ha, h.noAddend haddends b hb]
  | shared => rw [hshared haddends a ha, hshared haddends b hb]
  | each => exact (heach haddends).elim

theorem encodeRelocs_opened (start : Rela) (g : RelocGroup) :
    encodeRelocs g start g.relocs = encodeRelocs g (g.opened start) g.relocs := by
  rw [relocs, encodeRelocs, encodeRelocs]
  congr 1
  by_cases heach : g.addends = .each
  · simp [encodeReloc, opened, startAddend, heach]
  · simp [encodeReloc, opened, encodeIf, heach]

section Callback
variable {S : Type} (callback : Rela → S → S × Bool)

theorem packedGroup_encode {start : Rela} {g : RelocGroup} {prior : Rela} {rs : List Rela}
    (h : (prior :: rs).IsChain (g.Follows start)) (rest : List Byte) (s : S) :
    packedGroup callback (g.header start) rs.length ⟨encodeRelocs g prior rs ++ rest, prior⟩ s =
      .ok (if (runCallback callback rs s).2 then some ⟨rest, (prior :: rs).getLast (by simp)⟩
        else none, (runCallback callback rs s).1) := by
  induction rs generalizing prior s with
  | nil => rfl
  | cons r rs ih =>
    rw [List.isChain_cons_cons] at h
    rw [List.length_cons, packedGroup, encodeRelocs, List.append_assoc, packedReloc_encode h.1,
      runCallback]
    simp only [bind, Except.bind]
    rcases callback r s with ⟨s', _ | _⟩
    · rfl
    · simp only [ih h.2 s', List.getLast_cons_cons]

/-- The relocations of a whole group. -/
theorem packedGroup_encodeGroup {start : Rela} {g : RelocGroup} (h : g.Fits start)
    (rest : List Byte) (s : S) :
    packedGroup callback (g.header start) (g.header start).size.toNat
        ⟨encodeRelocs g start g.relocs ++ rest, g.opened start⟩ s =
      .ok (if (runCallback callback g.relocs s).2 then some ⟨rest, g.last⟩ else none,
        (runCallback callback g.relocs s).1) := by
  have hsize : (g.header start).size.toNat = g.relocs.length :=
    (BitVec.toNat_ofNat ..).trans (Nat.mod_eq_of_lt h.size)
  rw [hsize, encodeRelocs_opened, packedGroup_encode callback h.isChain]
  rfl

theorem packedGroups_encode {start : Rela} {groups : List RelocGroup} (h : GroupsFit start groups)
    {numRelocs idx : Word}
    (hnum : numRelocs.toNat = idx.toNat + (groups.flatMap relocs).length) {bound : ℕ}
    (hbound : groups.length < bound) (rest : List Byte) (s : S) :
    packedGroups callback numRelocs bound idx ⟨encodeGroups start groups ++ rest, start⟩ s =
      .ok (runCallback callback (groups.flatMap relocs) s) := by
  induction groups generalizing start idx bound s with
  | nil =>
    obtain ⟨bound, rfl⟩ := Nat.exists_eq_succ_of_ne_zero (by omega : bound ≠ 0)
    have hdone : ¬ idx < numRelocs := by
      rw [BitVec.lt_def, hnum]
      simp
    rw [packedGroups, if_neg hdone]
    rfl
  | cons g groups ih =>
    obtain ⟨bound, rfl⟩ := Nat.exists_eq_succ_of_ne_zero (by omega : bound ≠ 0)
    rw [List.flatMap_cons, List.length_append] at hnum
    have hmore : idx < numRelocs := by
      rw [BitVec.lt_def, hnum]
      simp [relocs]
    have hidx : (idx + (g.header start).size).toNat = idx.toNat + g.relocs.length := by
      have := numRelocs.isLt
      rw [BitVec.toNat_add]
      simp only [header, BitVec.toNat_ofNat, Nat.mod_eq_of_lt h.1.size]
      omega
    have hheader : packedGroupHeader ⟨encodeGroups start (g :: groups) ++ rest, start⟩ =
        .ok (g.header start, ⟨encodeRelocs g start g.relocs ++ (encodeGroups g.last groups ++ rest),
          g.opened start⟩) := by
      rw [encodeGroups, encodeGroup, List.append_assoc, List.append_assoc,
        packedGroupHeader_encode]
      rfl
    rw [packedGroups, if_pos hmore, hheader, List.flatMap_cons, runCallback_append]
    simp only [bind, Except.bind, packedGroup_encodeGroup callback h.1]
    rcases runCallback callback g.relocs s with ⟨s', _ | _⟩
    · rfl
    · exact ih h.2 (by omega) (Nat.lt_of_succ_lt_succ hbound) s'

end Callback
end RelocGroup

theorem encodeSleb128_length_pos (x : ℤ) : 0 < (encodeSleb128 x).length := by
  rw [encodeSleb128]
  split_ifs <;> simp

theorem length_le_encodeGroups (start : Rela) (groups : List RelocGroup) :
    groups.length ≤ (encodeGroups start groups).length := by
  induction groups generalizing start with
  | nil => exact Nat.zero_le _
  | cons g groups ih =>
    have hpos := encodeSleb128_length_pos (BitVec.ofNat 64 g.relocs.length).toInt
    have hrest := ih g.last
    simp only [encodeGroups, encodeGroup, encodeHeader, List.length_append, List.length_cons]
    omega

/-- However relocations are grouped, the callback sees each of them once and in order. -/
theorem forAllPackedRelocs_encodePacked {S : Type} (callback : Rela → S → S × Bool)
    {offset : Word} {groups : List RelocGroup} (h : GroupsFit ⟨offset, 0, 0⟩ groups)
    (hcount : (groups.flatMap RelocGroup.relocs).length < 2 ^ 64) (s : S) :
    forAllPackedRelocs callback (encodePacked offset groups) s =
      .ok (runCallback callback (groups.flatMap RelocGroup.relocs) s) := by
  have hbound := length_le_encodeGroups ⟨offset, 0, 0⟩ groups
  have hnum : (BitVec.ofNat 64 (groups.flatMap RelocGroup.relocs).length).toNat =
      (0 : Word).toNat + (groups.flatMap RelocGroup.relocs).length := by
    rw [BitVec.toNat_ofNat, Nat.mod_eq_of_lt hcount]
    simp
  have hgroups := RelocGroup.packedGroups_encode callback h hnum (Nat.lt_succ_of_le hbound) [] s
  rw [List.append_nil] at hgroups
  simp only [forAllPackedRelocs, encodePacked, List.append_assoc, popFront_encodeSleb128, bind,
    Except.bind]
  exact hgroups

/-- Two relative relocations eight bytes apart, and one with an addend of its own. -/
def exampleGroups : List RelocGroup :=
  [⟨true, true, .none, ⟨0x1008, 1027, 0⟩, [⟨0x1010, 1027, 0⟩]⟩,
    ⟨false, false, .each, ⟨0x2000, 257, 5⟩, []⟩]

theorem exampleGroups_fit : GroupsFit ⟨0x1000, 0, 0⟩ exampleGroups := by
  refine ⟨?_, ?_, trivial⟩
  · constructor <;> simp [RelocGroup.relocs]
  · constructor <;> simp [RelocGroup.relocs]

end Encoding
end Sober
