import Sober.Machine.Store

/-! # Relative relocations in packed form

A `SHT_RELR` table lists the words of an image that are to be moved by its load bias.
An even entry is the offset of a word; an odd entry is a bitmap over the 63 words that
follow what the table has covered so far.
-/
namespace Sober
open Machine

def applyRelrReloc (loadBias offset : Word) (m : Memory) : Memory :=
  let address := offset + loadBias
  write64 m address (read64 m address + loadBias)

/-- The loop over the bits of an odd entry, which ends after 64 turns at the latest. -/
def relrBitmapLoop (loadBias : Word) : ℕ → Word → Word → Memory → Memory
  | 0, _, _, m => m
  | turns + 1, entry, offset, m =>
    if entry = 0 then m
    else
      let entry := entry >>> 1
      let m := if entry &&& 1 ≠ 0 then applyRelrReloc loadBias offset m else m
      relrBitmapLoop loadBias turns entry (offset + 8) m

def relocateRelrLoop (loadBias : Word) : List Word → Word → Memory → Memory
  | [], _, m => m
  | entry :: rest, base, m =>
    if entry &&& 1 = 0 then
      relocateRelrLoop loadBias rest (entry + 8) (applyRelrReloc loadBias entry m)
    else
      relocateRelrLoop loadBias rest (base + (8 * 8 - 1) * 8)
        (relrBitmapLoop loadBias 64 entry base m)

def relocateRelr (loadBias : Word) (relr : List Word) (m : Memory) : Memory :=
  relocateRelrLoop loadBias relr 0 m

section Offsets

/-- The words that the bits of an odd entry stand for. -/
def bitmapOffsets (entry base : Word) : List Word :=
  ((List.range 63).filter fun i => entry.getLsbD (i + 1)).map fun i =>
    base + BitVec.ofNat 64 (8 * i)

def relrOffsets : List Word → Word → List Word
  | [], _ => []
  | entry :: rest, base =>
    if entry &&& 1 = 0 then entry :: relrOffsets rest (entry + 8)
    else bitmapOffsets entry base ++ relrOffsets rest (base + (8 * 8 - 1) * 8)

theorem and_one_ne_zero (w : Word) : w &&& 1 ≠ 0 ↔ w.getLsbD 0 = true := by
  constructor
  · intro h
    by_contra hbit
    apply h
    ext i hi
    rcases Nat.eq_zero_or_pos i with rfl | hpos
    · simpa using hbit
    · have hone : (1 : Word).getLsbD i = false := by
        simp [BitVec.getLsbD_one]
        omega
      simpa [BitVec.getLsbD_eq_getElem hi] using fun _ => hone
  · intro hbit h
    have hzero := congrArg (fun v => v.getLsbD 0) h
    rw [BitVec.getLsbD_and, hbit] at hzero
    cases hzero

theorem relrBitmapLoop_eq (loadBias : Word) (turns : ℕ) (entry offset : Word) (m : Memory) :
    relrBitmapLoop loadBias turns entry offset m =
      ((List.range turns).filter fun i => entry.getLsbD (i + 1)).foldl
        (fun m i => applyRelrReloc loadBias (offset + BitVec.ofNat 64 (8 * i)) m) m := by
  induction turns generalizing entry offset m with
  | zero => rfl
  | succ turns ih =>
    rw [relrBitmapLoop]
    split_ifs with hentry
    · simp [hentry]
    · have hnext : ∀ i, offset + 8 + BitVec.ofNat 64 (8 * i) =
          offset + BitVec.ofNat 64 (8 * (i + 1)) := by
        intro i
        rw [show (8 : Word) = BitVec.ofNat 64 8 from rfl, add_ofNat_add]
        congr 2
        omega
      have hshift : ∀ i, (entry >>> 1).getLsbD i = entry.getLsbD (i + 1) := by
        intro i
        rw [BitVec.getLsbD_ushiftRight, Nat.add_comm]
      have hfirst : offset + BitVec.ofNat 64 (8 * 0) = offset := by simp
      simp only [ih, hshift, and_one_ne_zero, Nat.zero_add, hnext, List.range_succ_eq_map,
        List.filter_cons, List.filter_map, Function.comp_def, Nat.succ_eq_add_one]
      cases hbit : entry.getLsbD 1 with
      | true => simp only [if_true, List.foldl_cons, List.foldl_map, hfirst]
      | false => simp only [Bool.false_eq_true, if_false, List.foldl_map]

theorem relrBitmapLoop_all (loadBias entry base : Word) (m : Memory) :
    relrBitmapLoop loadBias 64 entry base m =
      (bitmapOffsets entry base).foldl (fun m offset => applyRelrReloc loadBias offset m) m := by
  rw [relrBitmapLoop_eq, bitmapOffsets, List.foldl_map, List.range_succ, List.filter_append]
  simp

theorem relocateRelrLoop_eq (loadBias : Word) (relr : List Word) (base : Word) (m : Memory) :
    relocateRelrLoop loadBias relr base m =
      (relrOffsets relr base).foldl (fun m offset => applyRelrReloc loadBias offset m) m := by
  induction relr generalizing base m with
  | nil => rfl
  | cons entry rest ih =>
    rw [relocateRelrLoop, relrOffsets]
    split_ifs
    · rw [ih, List.foldl_cons]
    · rw [ih, relrBitmapLoop_all, List.foldl_append]

theorem relocateRelr_eq (loadBias : Word) (relr : List Word) (m : Memory) :
    relocateRelr loadBias relr m =
      updateWords (· + loadBias) ((relrOffsets relr 0).map (· + loadBias)) m := by
  rw [relocateRelr, relocateRelrLoop_eq, updateWords, List.foldl_map]
  rfl

end Offsets

section Encoding

/-- The bitmap of the offsets `here` within the 63 words from `base` on. -/
def bitmapEntry (base : ℕ) (here : List ℕ) : Word :=
  here.foldr (fun offset w => w ||| BitVec.twoPow 64 ((offset - base) / 8 + 1)) 1#64

def offsetsBelow (bound : ℕ) (offsets : List ℕ) : List ℕ := offsets.filter (· < bound)

def offsetsFrom (bound : ℕ) (offsets : List ℕ) : List ℕ := offsets.filter (bound ≤ ·)

/-- The entries for increasing offsets when the words below `base` are covered. -/
def encodeRelrFrom (base : ℕ) : List ℕ → List Word
  | [] => []
  | offset :: rest =>
    if offset < base + 504 then
      bitmapEntry base (offset :: offsetsBelow (base + 504) rest) ::
        encodeRelrFrom (base + 504) (offsetsFrom (base + 504) rest)
    else BitVec.ofNat 64 offset :: encodeRelrFrom (offset + 8) rest
termination_by offsets => offsets.length
decreasing_by
  · exact Nat.lt_succ_of_le (List.length_filter_le ..)
  · exact Nat.lt_succ_self _

def encodeRelr : List ℕ → List Word
  | [] => []
  | offset :: rest => BitVec.ofNat 64 offset :: encodeRelrFrom (offset + 8) rest

/-- Offsets of distinct words of an address space, in increasing order. -/
structure WordOffsets (base : ℕ) (offsets : List ℕ) : Prop where
  increasing : offsets.Pairwise (· < ·)
  aligned : ∀ offset ∈ offsets, offset % 8 = 0
  lower : ∀ offset ∈ offsets, base ≤ offset
  upper : ∀ offset ∈ offsets, offset + 8 ≤ 2 ^ 64

theorem getLsbD_bitmapEntry_zero (base : ℕ) (here : List ℕ) :
    (bitmapEntry base here).getLsbD 0 = true := by
  induction here with
  | nil => exact BitVec.getLsbD_one.trans rfl
  | cons offset here ih =>
    rw [bitmapEntry, List.foldr_cons, BitVec.getLsbD_or, ← bitmapEntry, ih, Bool.true_or]

theorem getLsbD_bitmapEntry (base : ℕ) (here : List ℕ) {i : ℕ} (hi : i < 63) :
    (bitmapEntry base here).getLsbD (i + 1) = true ↔ ∃ offset ∈ here, (offset - base) / 8 = i := by
  induction here with
  | nil =>
    rw [bitmapEntry, List.foldr_nil, BitVec.getLsbD_one]
    simp
  | cons offset here ih =>
    rw [bitmapEntry, List.foldr_cons, BitVec.getLsbD_or, ← bitmapEntry, Bool.or_eq_true, ih,
      BitVec.getLsbD_twoPow, List.exists_mem_cons_iff]
    simp only [Bool.and_eq_true, decide_eq_true_eq]
    constructor
    · rintro (h | ⟨-, h⟩)
      · exact .inr h
      · exact .inl (by omega)
    · rintro (h | h)
      · exact .inr ⟨by omega, by omega⟩
      · exact .inl h

theorem bitmapOffsets_bitmapEntry {base : ℕ} {here : List ℕ} (hbase : base % 8 = 0)
    (h : WordOffsets base here) (hwindow : ∀ offset ∈ here, offset < base + 504) :
    bitmapOffsets (bitmapEntry base here) (BitVec.ofNat 64 base) =
      here.map (BitVec.ofNat 64) := by
  have hbits : (List.range 63).filter (fun i => (bitmapEntry base here).getLsbD (i + 1)) =
      here.map fun offset => (offset - base) / 8 := by
    apply List.Pairwise.eq_of_mem_iff (r := (· < ·))
    · exact List.pairwise_lt_range.filter _
    · rw [List.pairwise_map]
      refine h.increasing.imp_of_mem fun {a b} ha hb hab => ?_
      have := h.aligned a ha
      have := h.aligned b hb
      have := h.lower a ha
      omega
    · intro i
      rw [List.mem_filter, List.mem_range, List.mem_map]
      constructor
      · rintro ⟨hi, hbit⟩
        exact (getLsbD_bitmapEntry base here hi).mp hbit
      · rintro ⟨offset, hmem, rfl⟩
        have hlt := hwindow offset hmem
        have hi : (offset - base) / 8 < 63 := by omega
        exact ⟨hi, (getLsbD_bitmapEntry base here hi).mpr ⟨offset, hmem, rfl⟩⟩
  rw [bitmapOffsets, hbits, List.map_map]
  apply List.map_congr_left
  intro offset hmem
  have := h.aligned offset hmem
  have := h.lower offset hmem
  rw [Function.comp_apply, ← BitVec.ofNat_add]
  congr 1
  omega

namespace WordOffsets
variable {base : ℕ} {offsets : List ℕ}

theorem filter (h : WordOffsets base offsets) (p : ℕ → Bool) :
    WordOffsets base (offsets.filter p) where
  increasing := h.increasing.filter p
  aligned offset hmem := h.aligned offset (List.mem_of_mem_filter hmem)
  lower offset hmem := h.lower offset (List.mem_of_mem_filter hmem)
  upper offset hmem := h.upper offset (List.mem_of_mem_filter hmem)

theorem raise (h : WordOffsets base offsets) {bound : ℕ}
    (hbound : ∀ offset ∈ offsets, bound ≤ offset) : WordOffsets bound offsets :=
  ⟨h.increasing, h.aligned, hbound, h.upper⟩

/-- What follows an offset lies past its word. -/
theorem tail {offset : ℕ} (h : WordOffsets base (offset :: offsets)) :
    WordOffsets (offset + 8) offsets where
  increasing := h.increasing.of_cons
  aligned o hmem := h.aligned o (List.mem_cons_of_mem _ hmem)
  lower o hmem := by
    have hlt := List.rel_of_pairwise_cons h.increasing hmem
    have := h.aligned offset List.mem_cons_self
    have := h.aligned o (List.mem_cons_of_mem _ hmem)
    omega
  upper o hmem := h.upper o (List.mem_cons_of_mem _ hmem)

/-- Increasing offsets are those below a bound followed by the others. -/
theorem filter_append (h : WordOffsets base offsets) (bound : ℕ) :
    offsetsBelow bound offsets ++ offsetsFrom bound offsets = offsets := by
  apply List.Pairwise.eq_of_mem_iff (r := (· < ·)) _ h.increasing
  · intro offset
    simp only [offsetsBelow, offsetsFrom, List.mem_append, List.mem_filter, decide_eq_true_eq]
    rcases Nat.lt_or_ge offset bound with hlt | hge
    · simp [hlt]
    · simp [hge]
  · rw [List.pairwise_append]
    refine ⟨h.increasing.filter _, h.increasing.filter _, fun a ha b hb => ?_⟩
    simp only [offsetsBelow, offsetsFrom, List.mem_filter, decide_eq_true_eq] at ha hb
    exact ha.2.trans_le hb.2

end WordOffsets

theorem ofNat_and_one {offset : ℕ} (h : offset % 8 = 0) : BitVec.ofNat 64 offset &&& 1 = 0 := by
  by_contra hne
  rw [← ne_eq, and_one_ne_zero, BitVec.getLsbD_ofNat] at hne
  simp only [Nat.testBit_zero, Bool.and_eq_true, decide_eq_true_eq] at hne
  omega

theorem relrOffsets_even {offset : ℕ} (h : offset % 8 = 0) (rest : List Word) (base : Word) :
    relrOffsets (BitVec.ofNat 64 offset :: rest) base =
      BitVec.ofNat 64 offset :: relrOffsets rest (BitVec.ofNat 64 (offset + 8)) := by
  rw [relrOffsets, if_pos (ofNat_and_one h), BitVec.ofNat_add]
  rfl

theorem relrOffsets_encodeRelrFrom {base : ℕ} {offsets : List ℕ} (hbase : base % 8 = 0)
    (h : WordOffsets base offsets) :
    relrOffsets (encodeRelrFrom base offsets) (BitVec.ofNat 64 base) =
      offsets.map (BitVec.ofNat 64) := by
  induction base, offsets using encodeRelrFrom.induct with
  | case1 base =>
    rw [encodeRelrFrom]
    rfl
  | case2 base offset rest hlt ih =>
    have hhere : offset :: offsetsBelow (base + 504) rest =
        offsetsBelow (base + 504) (offset :: rest) := by simp [offsetsBelow, hlt]
    have hlater : offsetsFrom (base + 504) rest = offsetsFrom (base + 504) (offset :: rest) := by
      simp [offsetsFrom, Nat.not_le.mpr hlt]
    have hwords : bitmapOffsets (bitmapEntry base (offset :: offsetsBelow (base + 504) rest))
        (BitVec.ofNat 64 base) =
      (offset :: offsetsBelow (base + 504) rest).map (BitVec.ofNat 64) := by
      rw [hhere]
      apply bitmapOffsets_bitmapEntry hbase (h.filter _)
      simp
    have hrest : WordOffsets (base + 504) (offsetsFrom (base + 504) rest) := by
      rw [hlater]
      exact (h.filter _).raise (by simp)
    have hodd : bitmapEntry base (offset :: offsetsBelow (base + 504) rest) &&& 1 ≠ 0 := by
      rw [and_one_ne_zero, getLsbD_bitmapEntry_zero]
    have hnext : BitVec.ofNat 64 base + (8 * 8 - 1) * 8 = BitVec.ofNat 64 (base + 504) := by
      rw [BitVec.ofNat_add]
      rfl
    rw [encodeRelrFrom, if_pos hlt, relrOffsets, if_neg hodd, hwords, hnext,
      ih (by omega) hrest, ← List.map_append, hhere, hlater, h.filter_append]
  | case3 base offset rest hge ih =>
    have haligned := h.aligned offset List.mem_cons_self
    rw [encodeRelrFrom, if_neg hge, relrOffsets_even haligned, ih (by omega) h.tail, List.map_cons]

theorem relrOffsets_encodeRelr {offsets : List ℕ} (h : WordOffsets 0 offsets) :
    relrOffsets (encodeRelr offsets) 0 = offsets.map (BitVec.ofNat 64) := by
  cases offsets with
  | nil => rfl
  | cons offset rest =>
    have haligned := h.aligned offset List.mem_cons_self
    rw [encodeRelr, relrOffsets_even haligned, relrOffsets_encodeRelrFrom (by omega) h.tail,
      List.map_cons]

theorem WordOffsets.apart {base : ℕ} {offsets : List ℕ} (h : WordOffsets base offsets)
    (loadBias : Word) :
    ((offsets.map (BitVec.ofNat 64)).map (· + loadBias)).Pairwise Apart := by
  rw [List.map_map, List.pairwise_map]
  refine h.increasing.imp_of_mem fun {a b} ha hb hab => ?_
  have := h.aligned a ha
  have := h.aligned b hb
  have := h.upper b hb
  constructor <;> simp only [Function.comp_apply] <;> bv_omega

/-- Relocating with the table of some words adds the load bias to each of them once and
changes nothing else. -/
theorem relocateRelr_encodeRelr {offsets : List ℕ} (h : WordOffsets 0 offsets) (loadBias : Word)
    (m : Memory) :
    (∀ offset ∈ offsets,
      read64 (relocateRelr loadBias (encodeRelr offsets) m) (BitVec.ofNat 64 offset + loadBias) =
        read64 m (BitVec.ofNat 64 offset + loadBias) + loadBias) ∧
    ∀ x, (∀ offset ∈ offsets, 8 ≤ (x - (BitVec.ofNat 64 offset + loadBias)).toNat) →
      relocateRelr loadBias (encodeRelr offsets) m x = m x := by
  rw [relocateRelr_eq, relrOffsets_encodeRelr h]
  constructor
  · intro offset hmem
    apply read64_updateWords _ _ (h.apart loadBias)
    exact List.mem_map_of_mem (List.mem_map_of_mem hmem)
  · intro x hx
    apply updateWords_of_outside
    simpa using hx

theorem relocateRelr_encodeRelr_three :
    read64 (relocateRelr 0x1000 (encodeRelr [0x10, 0x18, 0x400]) fun _ => 0) 0x1400 = 0x1000 := by
  have h : WordOffsets 0 [0x10, 0x18, 0x400] := ⟨by decide, by decide, by decide, by decide⟩
  exact (relocateRelr_encodeRelr h 0x1000 fun _ => 0).1 0x400 (by decide)

end Encoding
end Sober
