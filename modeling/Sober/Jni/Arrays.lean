import Mathlib.Data.BitVec
import Mathlib.Data.Int.Basic
import Mathlib.Logic.Nontrivial.Basic
import Sober.Sequence.Copy

/-! # Regions of Java arrays

The region functions copy between a range of an array and a buffer. Their loops
run from `start` to `len`, and one index addresses both sides. So they treat
`len` as the end of the range and the buffer as if it began with the array,
which is right for ranges that begin with the array, or are empty, and for no
others.
-/
namespace Sober.Jni
open Sequence

inductive PrimitiveType where
  | boolean
  | byte
  | char
  | short
  | int
  | long
  | float
  | double
  deriving DecidableEq, Repr

def PrimitiveType.width : PrimitiveType → ℕ
  | .boolean => 8
  | .byte => 8
  | .char => 16
  | .short => 16
  | .int => 32
  | .long => 64
  | .float => 32
  | .double => 64

abbrev PrimitiveType.Value (t : PrimitiveType) : Type := BitVec t.width

/-- The length is stored beside the elements. -/
@[ext] structure ArrayBase (T : Type) where
  arraySize : ℤ
  array : List T

/-- An access outside an object, or the exception that the library throws. -/
inductive ArrayFault where
  | unchecked
  | outOfRange
  | lengthError
  deriving DecidableEq, Repr

section Generic
variable {T : Type}

def load (elements : List T) (index : ℤ) : Except ArrayFault T :=
  if 0 ≤ index then
    match elements[index.toNat]? with
    | some value => .ok value
    | none => .error .unchecked
  else .error .unchecked

def store (elements : List T) (index : ℤ) (value : T) : Except ArrayFault (List T) :=
  if 0 ≤ index ∧ index < elements.length then .ok (elements.set index.toNat value)
  else .error .unchecked

/-- The loop, from `i` on, that copies elements under one index. -/
def copyElements (src : List T) : ℕ → ℤ → List T → Except ArrayFault (List T)
  | 0, _, dst => .ok dst
  | turns + 1, i, dst => do
    let value ← load src i
    let dst ← store dst i value
    copyElements src turns (i + 1) dst

def getArrayRegionGeneric (array : ArrayBase T) (start len : ℤ) (buf : List T) :
    Except ArrayFault (List T) :=
  copyElements array.array (len - start).toNat start buf

def setArrayRegionGeneric (array : ArrayBase T) (start len : ℤ) (buf : List T) :
    Except ArrayFault (ArrayBase T) := do
  let elements ← copyElements buf (len - start).toNat start array.array
  .ok { array with array := elements }

end Generic

def getArrayRegion (t : PrimitiveType) : ArrayBase t.Value → ℤ → ℤ → List t.Value →
    Except ArrayFault (List t.Value) :=
  getArrayRegionGeneric

def setArrayRegion (t : PrimitiveType) : ArrayBase t.Value → ℤ → ℤ → List t.Value →
    Except ArrayFault (ArrayBase t.Value) :=
  setArrayRegionGeneric

section Access
variable {T : Type} {elements : List T} {i : ℕ}

theorem load_of_lt (h : i < elements.length) : load elements i = .ok elements[i] := by
  rw [load, if_pos (Int.natCast_nonneg i), Int.toNat_natCast, List.getElem?_eq_getElem h]

theorem store_of_lt (h : i < elements.length) (value : T) :
    store elements i value = .ok (elements.set i value) := by
  rw [store, if_pos (by omega), Int.toNat_natCast]

end Access

section Loop
variable {T : Type} {src dst : List T}

/-- Within both sequences the loop copies a range onto the same range. -/
theorem copyElements_eq (turns i : ℕ) (hsrc : i + turns ≤ src.length)
    (hdst : i + turns ≤ dst.length) :
    copyElements src turns i dst = .ok (copyRange src i dst i turns) := by
  induction turns generalizing i dst with
  | zero => rw [copyElements, copyRange_zero]
  | succ turns ih =>
    have hi : i < src.length := by omega
    have hi' : i < dst.length := by omega
    rw [copyElements, load_of_lt hi, copyRange_succ hi hi']
    simp only [bind, Except.bind, store_of_lt hi']
    apply ih (i + 1)
    · omega
    · rw [List.length_set]
      omega

theorem copyElements_range {start len : ℕ} (hsrc : len ≤ src.length) (hdst : len ≤ dst.length) :
    copyElements src ((len : ℤ) - start).toNat start dst =
      .ok (copyRange src start dst start (len - start)) := by
  rw [Int.toNat_sub]
  rcases Nat.le_total start len with h | h
  · exact copyElements_eq _ _ (by omega) (by omega)
  · rw [Nat.sub_eq_zero_of_le h, copyElements, copyRange_zero]

theorem getArrayRegionGeneric_eq {array : ArrayBase T} {start len : ℕ} {buf : List T}
    (harray : start + len ≤ array.array.length) (hbuf : len ≤ buf.length) :
    getArrayRegionGeneric array start len buf =
      .ok (copyRange array.array start buf start (len - start)) :=
  copyElements_range (by omega) hbuf

theorem setArrayRegionGeneric_eq {array : ArrayBase T} {start len : ℕ} {buf : List T}
    (harray : start + len ≤ array.array.length) (hbuf : len ≤ buf.length) :
    setArrayRegionGeneric array start len buf =
      .ok { array with array := copyRange buf start array.array start (len - start) } := by
  rw [setArrayRegionGeneric, copyElements_range hbuf (by omega)]
  rfl

end Loop

/-- What the interface asks of two region functions at a range of `array`. -/
structure RegionSemantics {T : Type}
    (get : ArrayBase T → ℤ → ℤ → List T → Except ArrayFault (List T))
    (set : ArrayBase T → ℤ → ℤ → List T → Except ArrayFault (ArrayBase T))
    (array : ArrayBase T) (start len : ℕ) (buf : List T) : Prop where
  get_eq : get array start len buf = .ok (copyRange array.array start buf 0 len)
  set_eq : set array start len buf =
    .ok { array with array := copyRange buf 0 array.array start len }
  /-- Elements of the buffer from `len` on are not read. -/
  set_reads : ∀ buf', buf'.take len = buf.take len →
    set array start len buf' = set array start len buf
  set_get : ∀ buf', len ≤ buf'.length → ∃ array' buf'', set array start len buf = .ok array' ∧
    get array' start len buf' = .ok buf'' ∧ buf''.take len = buf.take len
  set_comm : ∀ (start' len' : ℕ) buf', start' + len' ≤ array.array.length → len' ≤ buf'.length →
    (start + len ≤ start' ∨ start' + len' ≤ start) →
    (do set (← set array start len buf) start' len' buf') =
      (do set (← set array start' len' buf') start len buf)

section Semantics
variable {T : Type} {array : ArrayBase T} {start len : ℕ} {buf : List T}

theorem length_le_of_take {buf' : List T} (hbuf : len ≤ buf.length)
    (h : buf'.take len = buf.take len) : len ≤ buf'.length := by
  have hlength := congrArg List.length h
  simp only [List.length_take] at hlength
  omega

/-- Sets of disjoint ranges commute, whatever their start: each stays in its range. -/
theorem setArrayRegionGeneric_comm (harray : start + len ≤ array.array.length)
    (hbuf : len ≤ buf.length) {start' len' : ℕ} {buf' : List T}
    (harray' : start' + len' ≤ array.array.length) (hbuf' : len' ≤ buf'.length)
    (hdisjoint : start + len ≤ start' ∨ start' + len' ≤ start) :
    (do setArrayRegionGeneric (← setArrayRegionGeneric array start len buf) start' len' buf') =
      (do
        setArrayRegionGeneric (← setArrayRegionGeneric array start' len' buf') start len buf) := by
  rw [setArrayRegionGeneric_eq harray hbuf, setArrayRegionGeneric_eq harray' hbuf']
  simp only [bind, Except.bind]
  rw [setArrayRegionGeneric_eq (by rwa [length_copyRange]) hbuf',
    setArrayRegionGeneric_eq (by rwa [length_copyRange]) hbuf]
  simp only [Except.ok.injEq, ArrayBase.mk.injEq, true_and]
  apply copyRange_comm
  omega

/-- The two ranges that the code gets right. -/
theorem copyRange_region (src dst : List T) (h : start = 0 ∨ len = 0) :
    copyRange src start dst start (len - start) = copyRange src start dst 0 len ∧
      copyRange src start dst start (len - start) = copyRange src 0 dst start len := by
  rcases h with rfl | rfl
  · exact ⟨rfl, rfl⟩
  · simp only [Nat.zero_sub, copyRange_zero, and_self]

theorem regionSemantics_of_start (harray : start + len ≤ array.array.length)
    (hbuf : len ≤ buf.length) (h : start = 0 ∨ len = 0) :
    RegionSemantics getArrayRegionGeneric setArrayRegionGeneric array start len buf := by
  have hset : setArrayRegionGeneric array start len buf =
      .ok { array with array := copyRange buf 0 array.array start len } := by
    rw [setArrayRegionGeneric_eq harray hbuf, (copyRange_region buf array.array h).2]
  constructor
  · rw [getArrayRegionGeneric_eq harray hbuf, (copyRange_region array.array buf h).1]
  · exact hset
  · intro buf' htake
    have hbuf' := length_le_of_take hbuf htake
    rw [hset, setArrayRegionGeneric_eq harray hbuf', (copyRange_region buf' array.array h).2]
    congr 2
    apply copyRange_congr
    intro j hj
    rw [Nat.zero_add, ← List.getElem?_take_of_lt hj, htake, List.getElem?_take_of_lt hj]
  · intro buf' hbuf'
    refine ⟨_, _, hset, ?_, copyRange_copyRange hbuf harray hbuf'⟩
    rw [getArrayRegionGeneric_eq (by rwa [length_copyRange]) hbuf', (copyRange_region _ buf' h).1]
  · intro start' len' buf' harray' hbuf' hdisjoint
    exact setArrayRegionGeneric_comm harray hbuf harray' hbuf' hdisjoint

/-- A get from any other range leaves the first element of the buffer as it is. -/
theorem start_of_regionSemantics [Nontrivial T] {n : ℕ} (hfit : start + len ≤ n)
    (h : ∀ (array : ArrayBase T) buf, array.array.length = n → len ≤ buf.length →
      RegionSemantics getArrayRegionGeneric setArrayRegionGeneric array start len buf) :
    start = 0 ∨ len = 0 := by
  by_contra hother
  obtain ⟨hstart, hlen⟩ := not_or.mp hother
  obtain ⟨a, b, hne⟩ := exists_pair_ne T
  set array : ArrayBase T := ⟨n, List.replicate n a⟩
  set buf := List.replicate len b
  have harray : array.array.length = n := List.length_replicate
  have hbuf : buf.length = len := List.length_replicate
  have hget := (h array buf harray hbuf.ge).get_eq
  rw [getArrayRegionGeneric_eq (by omega) hbuf.ge, Except.ok.injEq] at hget
  have hfirst : (copyRange array.array start buf start (len - start))[0]? = some b := by
    rw [getElem?_copyRange_outside (by omega), List.getElem?_replicate_of_lt (by omega)]
  have hspec : (copyRange array.array start buf 0 len)[0 + 0]? = some a := by
    rw [getElem?_copyRange_inside (by omega) (by omega) (by omega),
      List.getElem?_replicate_of_lt (by omega)]
  rw [hget, hspec, Option.some.injEq] at hfirst
  exact hne hfirst

end Semantics

instance (t : PrimitiveType) : Nontrivial t.Value := ⟨0, 1, by cases t <;> decide⟩

/-- The region functions of an element type do at a range of arrays of `n` elements
what the interface asks, for all contents of the array and the buffer, if and
only if the range begins with the array or is empty. -/
theorem array_region_semantics_iff (t : PrimitiveType) (n start len : ℕ)
    (hfit : start + len ≤ n) :
    (∀ (array : ArrayBase t.Value) (buf : List t.Value), array.array.length = n →
      len ≤ buf.length →
        RegionSemantics (getArrayRegion t) (setArrayRegion t) array start len buf) ↔
      start = 0 ∨ len = 0 := by
  constructor
  · exact start_of_regionSemantics hfit
  · rintro h array buf rfl hbuf
    exact regionSemantics_of_start hfit hbuf h

/-- The first two elements of an array of three. -/
theorem array_region_semantics_start :
    RegionSemantics (getArrayRegion .int) (setArrayRegion .int) ⟨3, [10, 20, 30]⟩ 0 2 [7, 8] :=
  (array_region_semantics_iff .int 3 0 2 (by decide)).mpr (.inl rfl) _ _ rfl le_rfl

/-- From the second element on, both functions move one element, and to the wrong place. -/
theorem array_region_shifted :
    getArrayRegion .int ⟨3, [10, 20, 30]⟩ 1 2 [0, 0] = .ok [0, 20] ∧
    copyRange [10, 20, 30] 1 [0, 0] 0 2 = ([20, 30] : List PrimitiveType.int.Value) ∧
    setArrayRegion .int ⟨3, [10, 20, 30]⟩ 1 2 [7, 8] = .ok ⟨3, [10, 8, 30]⟩ ∧
    copyRange [7, 8] 0 [10, 20, 30] 1 2 = ([10, 7, 8] : List PrimitiveType.int.Value) :=
  ⟨rfl, rfl, rfl, rfl⟩

end Sober.Jni
