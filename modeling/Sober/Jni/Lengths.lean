import Mathlib.Logic.Function.Basic
import Sober.Jni.Arrays
import Sober.Transition.Run

/-! # Lengths of Java arrays

The length of an array is stored beside its elements, and the functions that
report it read the stored copy. Every function that creates arrays has to set
both; `String.getBytes` sets the elements only. Nothing ever changes a length
afterwards, so the copies agree throughout a run exactly if `getBytes` met no
string but the empty one.
-/
namespace Sober.Jni
open Transition

abbrev Reference := BitVec 64

/-- The elements of an array are primitive values or references. -/
inductive ElementType where
  | primitive (t : PrimitiveType)
  | object
  deriving DecidableEq, Repr

abbrev ElementType.Value : ElementType → Type
  | .primitive t => t.Value
  | .object => Reference

section Functions
variable {T : Type}

def ArrayBase.new : ArrayBase T := ⟨0, []⟩

/-- The stored length, then as many elements. `reserve` takes the length as
unsigned and throws for a negative one. -/
def newArrayFilled (length : ℤ) (value : T) : Except ArrayFault (ArrayBase T) :=
  if length < 0 then .error .lengthError
  else .ok ⟨length, ArrayBase.new.array ++ List.replicate length.toNat value⟩

def getArrayLength (array : ArrayBase T) : ℤ := array.arraySize

end Functions

def newArray (t : PrimitiveType) (length : ℤ) : Except ArrayFault (ArrayBase t.Value) :=
  newArrayFilled length 0

def newObjectArray (length : ℤ) (initialElement : Reference) :
    Except ArrayFault (ArrayBase Reference) :=
  newArrayFilled length initialElement

/-- The characters are appended to the elements of a new array. -/
def getBytes (string : List PrimitiveType.byte.Value) : ArrayBase PrimitiveType.byte.Value :=
  let bytes : ArrayBase PrimitiveType.byte.Value := .new
  { bytes with array := bytes.array ++ string }

def setObjectArrayElement (array : ArrayBase Reference) (index : ℤ) (value : Reference) :
    Except ArrayFault (ArrayBase Reference) := do
  let elements ← store array.array index value
  .ok { array with array := elements }

def listGet (list : ArrayBase Reference) (index : ℤ) : Except ArrayFault Reference :=
  match load list.array index with
  | .ok value => .ok value
  | .error _ => .error .outOfRange

def listSize (list : ArrayBase Reference) : ℤ := list.arraySize

/-- The arrays of each type in the order of their creation. -/
abbrev Heap := (t : ElementType) → List (ArrayBase t.Value)

namespace Heap

def lookup (heap : Heap) (t : ElementType) (i : ℕ) : Except ArrayFault (ArrayBase t.Value) :=
  match (heap t)[i]? with
  | some array => .ok array
  | none => .error .unchecked

def push (heap : Heap) (t : ElementType) (array : ArrayBase t.Value) : Heap :=
  Function.update heap t (heap t ++ [array])

def replace (heap : Heap) (t : ElementType) (i : ℕ) (array : ArrayBase t.Value) : Heap :=
  Function.update heap t ((heap t).set i array)

end Heap

inductive ArrayEvent where
  | newArray (t : PrimitiveType) (length : ℤ)
  | newObjectArray (length : ℤ) (initialElement : Reference)
  | getBytes (string : List PrimitiveType.byte.Value)
  | setArrayRegion (t : PrimitiveType) (array : ℕ) (start len : ℤ) (buf : List t.Value)
  | setObjectArrayElement (array : ℕ) (index : ℤ) (value : Reference)
  | getArrayLength (t : ElementType) (array : ℕ)
  | listGet (list : ℕ) (index : ℤ)
  | listSize (list : ℕ)

/-- The effect of a call on the arrays. The functions that only read them fail on
the same references and indices as they do in the source. -/
def step (heap : Heap) : ArrayEvent → Except ArrayFault Heap
  | .newArray t length => (newArray t length).map (heap.push (.primitive t))
  | .newObjectArray length initialElement =>
    (newObjectArray length initialElement).map (heap.push .object)
  | .getBytes string => .ok (heap.push (.primitive .byte) (getBytes string))
  | .setArrayRegion t i start len buf => (heap.lookup (.primitive t) i).bind fun array =>
    (setArrayRegion t array start len buf).map (heap.replace (.primitive t) i)
  | .setObjectArrayElement i index value => (heap.lookup .object i).bind fun array =>
    (setObjectArrayElement array index value).map (heap.replace .object i)
  | .getArrayLength t i => (heap.lookup t i).map fun _ => heap
  | .listGet i index => (heap.lookup .object i).bind fun list =>
    (listGet list index).map fun _ => heap
  | .listSize i => (heap.lookup .object i).map fun _ => heap

def ArrayBase.Sized {T : Type} (array : ArrayBase T) : Prop :=
  array.arraySize = array.array.length

def Heap.Sized (heap : Heap) : Prop := ∀ t, ∀ array ∈ heap t, array.Sized

/-- The event creates no array whose stored length is wrong. -/
def ArrayEvent.Sized : ArrayEvent → Prop
  | .getBytes string => string = []
  | _ => True

section Functions
variable {T : Type} {array array' : ArrayBase T}

theorem newArrayFilled_sized {length : ℤ} {value : T}
    (h : newArrayFilled length value = .ok array) : array.Sized := by
  rw [newArrayFilled] at h
  split_ifs at h with hneg
  cases h
  change length = ((List.replicate length.toNat value).length : ℤ)
  rw [List.length_replicate]
  omega

theorem getBytes_sized_iff (string : List PrimitiveType.byte.Value) :
    (getBytes string).Sized ↔ string = [] := by
  change (0 : ℤ) = (string.length : ℤ) ↔ string = []
  rw [eq_comm, Int.natCast_eq_zero, List.length_eq_zero_iff]

theorem store_length {elements elements' : List T} {index : ℤ} {value : T}
    (h : store elements index value = .ok elements') : elements'.length = elements.length := by
  rw [store] at h
  split_ifs at h
  cases h
  exact List.length_set

theorem copyElements_length {src dst dst' : List T} {turns : ℕ} {i : ℤ}
    (h : copyElements src turns i dst = .ok dst') : dst'.length = dst.length := by
  induction turns generalizing i dst with
  | zero =>
    cases h
    rfl
  | succ turns ih =>
    obtain ⟨value, -, h⟩ := ok_of_bind h
    obtain ⟨dst₁, hstore, h⟩ := ok_of_bind h
    rw [ih h, store_length hstore]

/-- The functions that write elements keep both copies of the length. -/
theorem sized_iff_of_lengths (hsize : array'.arraySize = array.arraySize)
    (hlength : array'.array.length = array.array.length) : array'.Sized ↔ array.Sized := by
  rw [ArrayBase.Sized, ArrayBase.Sized, hsize, hlength]

theorem setArrayRegionGeneric_sized_iff {start len : ℤ} {buf : List T}
    (h : setArrayRegionGeneric array start len buf = .ok array') :
    array'.Sized ↔ array.Sized := by
  obtain ⟨elements, hcopy, h⟩ := ok_of_bind h
  cases h
  exact sized_iff_of_lengths rfl (copyElements_length hcopy)

theorem setObjectArrayElement_sized_iff {array array' : ArrayBase Reference} {index : ℤ}
    {value : Reference} (h : setObjectArrayElement array index value = .ok array') :
    array'.Sized ↔ array.Sized := by
  obtain ⟨elements, hstore, h⟩ := ok_of_bind h
  cases h
  exact sized_iff_of_lengths rfl (store_length hstore)

theorem exists_load_iff (elements : List T) (i : ℤ) :
    (∃ value, load elements i = .ok value) ↔ 0 ≤ i ∧ i < elements.length := by
  constructor
  · rintro ⟨value, h⟩
    rw [load] at h
    split_ifs at h with hi
    refine ⟨hi, ?_⟩
    by_contra hlength
    rw [List.getElem?_eq_none (by omega)] at h
    cases h
  · rintro ⟨hi, hlength⟩
    lift i to ℕ using hi
    exact ⟨_, load_of_lt (by omega)⟩

theorem exists_listGet_iff (list : ArrayBase Reference) (i : ℤ) :
    (∃ value, listGet list i = .ok value) ↔ 0 ≤ i ∧ i < list.array.length := by
  rw [← exists_load_iff, listGet]
  cases load list.array i with
  | ok value => rfl
  | error fault => simp only [reduceCtorEq, exists_false]

end Functions

namespace Heap
variable {heap : Heap} {t : ElementType} {i : ℕ} {array array' : ArrayBase t.Value}

theorem lookup_ok (h : heap.lookup t i = .ok array) : (heap t)[i]? = some array := by
  rw [lookup] at h
  split at h
  · cases h
    assumption
  · cases h

theorem sized_update_iff (heap : Heap) (t : ElementType) (arrays : List (ArrayBase t.Value)) :
    Sized (Function.update heap t arrays) ↔
      (∀ array ∈ arrays, array.Sized) ∧ ∀ t', t' ≠ t → ∀ array ∈ heap t', array.Sized := by
  constructor
  · intro h
    constructor
    · have ht := h t
      rwa [Function.update_self] at ht
    · intro t' hne
      have ht' := h t'
      rwa [Function.update_of_ne hne] at ht'
  · rintro ⟨hself, hother⟩ t'
    by_cases hne : t' = t
    · subst hne
      rwa [Function.update_self]
    · rw [Function.update_of_ne hne]
      exact hother t' hne

theorem sized_iff_of_type (heap : Heap) (t : ElementType) :
    heap.Sized ↔
      (∀ array ∈ heap t, array.Sized) ∧ ∀ t', t' ≠ t → ∀ array ∈ heap t', array.Sized := by
  have h := sized_update_iff heap t (heap t)
  rwa [Function.update_eq_self] at h

theorem push_sized_iff (heap : Heap) (array : ArrayBase t.Value) :
    (heap.push t array).Sized ↔ heap.Sized ∧ array.Sized := by
  rw [push, sized_update_iff, heap.sized_iff_of_type t]
  simp only [List.mem_append, List.mem_singleton, or_imp, forall_and, forall_eq]
  exact and_right_comm

theorem replace_sized_iff (hlookup : heap.lookup t i = .ok array)
    (hsized : array'.Sized ↔ array.Sized) :
    (heap.replace t i array').Sized ↔ heap.Sized := by
  have hget := lookup_ok hlookup
  rw [replace, sized_update_iff, heap.sized_iff_of_type t]
  apply and_congr_left
  intro _
  constructor
  · intro h a ha
    obtain ⟨j, hj⟩ := List.mem_iff_getElem?.mp ha
    by_cases hij : i = j
    · subst hij
      rw [hget, Option.some.injEq] at hj
      subst hj
      apply hsized.mp
      apply h
      exact List.mem_set (List.getElem?_eq_some_iff.mp hget).1 array'
    · apply h
      apply List.mem_of_getElem? (i := j)
      rw [List.getElem?_set_ne hij, hj]
  · intro h a ha
    rcases List.mem_or_eq_of_mem_set ha with hmem | rfl
    · exact h a hmem
    · exact hsized.mpr (h array (List.mem_of_getElem? hget))

end Heap

/-- One call: the stored lengths are right afterwards iff they were before and the
call was not `getBytes` of a string with characters. -/
theorem step_sized_iff {heap heap' : Heap} {e : ArrayEvent} (h : step heap e = .ok heap') :
    heap'.Sized ↔ heap.Sized ∧ e.Sized := by
  cases e with
  | newArray t length =>
    obtain ⟨array, hnew, rfl⟩ := ok_of_map h
    rw [Heap.push_sized_iff, and_iff_left (newArrayFilled_sized hnew)]
    exact (and_iff_left trivial).symm
  | newObjectArray length initialElement =>
    obtain ⟨array, hnew, rfl⟩ := ok_of_map h
    rw [Heap.push_sized_iff, and_iff_left (newArrayFilled_sized hnew)]
    exact (and_iff_left trivial).symm
  | getBytes string =>
    cases h
    rw [Heap.push_sized_iff, getBytes_sized_iff]
    rfl
  | setArrayRegion t i start len buf =>
    obtain ⟨array, hlookup, h⟩ := ok_of_bind h
    obtain ⟨array', hset, rfl⟩ := ok_of_map h
    rw [Heap.replace_sized_iff hlookup (setArrayRegionGeneric_sized_iff hset)]
    exact (and_iff_left trivial).symm
  | setObjectArrayElement i index value =>
    obtain ⟨array, hlookup, h⟩ := ok_of_bind h
    obtain ⟨array', hset, rfl⟩ := ok_of_map h
    rw [Heap.replace_sized_iff hlookup (setObjectArrayElement_sized_iff hset)]
    exact (and_iff_left trivial).symm
  | getArrayLength t i =>
    obtain ⟨array, -, rfl⟩ := ok_of_map h
    exact (and_iff_left trivial).symm
  | listGet i index =>
    obtain ⟨list, -, h⟩ := ok_of_bind h
    obtain ⟨value, -, rfl⟩ := ok_of_map h
    exact (and_iff_left trivial).symm
  | listSize i =>
    obtain ⟨list, -, rfl⟩ := ok_of_map h
    exact (and_iff_left trivial).symm

theorem run_sized_iff {heap heap' : Heap} {events : List ArrayEvent}
    (hrun : Run step (fun _ _ => True) heap events heap') :
    heap'.Sized ↔ heap.Sized ∧ ∀ e ∈ events, e.Sized := by
  induction hrun with
  | nil heap => simp
  | cons _ hstep _ ih => rw [ih, step_sized_iff hstep, List.forall_mem_cons, and_assoc]

/-- After any run of the array functions from arrays with right lengths, all stored
lengths are right iff no string with characters was turned into bytes. Where they
are, an index can be read iff it is below the length that is reported. -/
theorem array_lengths_iff (heap heap' : Heap) (hinitial : heap.Sized) (events : List ArrayEvent)
    (hrun : Run step (fun _ _ => True) heap events heap') :
    (heap'.Sized ↔ ∀ string, .getBytes string ∈ events → string = []) ∧
    (heap'.Sized →
      (∀ t, ∀ array ∈ heap' t, ∀ i, (∃ value, load array.array i = .ok value) ↔
        0 ≤ i ∧ i < getArrayLength array) ∧
      ∀ list ∈ heap' .object, ∀ i, (∃ value, listGet list i = .ok value) ↔
        0 ≤ i ∧ i < listSize list) := by
  constructor
  · rw [run_sized_iff hrun, and_iff_right hinitial]
    constructor
    · intro h string hmem
      exact h _ hmem
    · intro h e he
      cases e with
      | getBytes string => exact h string he
      | _ => trivial
  · intro hsized
    constructor
    · intro t array harray i
      rw [exists_load_iff, getArrayLength, hsized t array harray]
    · intro list hlist i
      rw [exists_listGet_iff, listSize, hsized .object list hlist]

def Heap.empty : Heap := fun _ => []

theorem Heap.empty_sized : Heap.empty.Sized := by
  intro t array harray
  cases harray

/-- Arrays of all sources, the bytes being those of the empty string. -/
def sizedEvents : List ArrayEvent :=
  [.newArray .int 2, .setArrayRegion .int 0 0 2 [7, 8], .newObjectArray 1 0x1000, .getBytes [],
    .setObjectArrayElement 0 0 0x2000, .listGet 0 0, .listSize 0, .getArrayLength .object 0]

theorem array_lengths_iff_sizedEvents :
    ∃ heap, Run step (fun _ _ => True) Heap.empty sizedEvents heap ∧ heap.Sized ∧
      heap.lookup .object 0 = .ok ⟨1, [0x2000]⟩ ∧
      heap.lookup (.primitive .int) 0 = .ok ⟨2, [7, 8]⟩ := by
  have hrun : Run step (fun _ _ => True) Heap.empty sizedEvents _ :=
    .cons trivial rfl (.cons trivial rfl (.cons trivial rfl (.cons trivial rfl (.cons trivial rfl
      (.cons trivial rfl (.cons trivial rfl (.cons trivial rfl (.nil _))))))))
  refine ⟨_, hrun, ?_, rfl, rfl⟩
  apply (array_lengths_iff Heap.empty _ Heap.empty_sized sizedEvents hrun).1.mpr
  intro string hmem
  simpa [sizedEvents] using hmem

/-- The bytes of a string of one character have the stored length zero. -/
theorem getBytes_length_zero :
    ∃ heap, Run step (fun _ _ => True) Heap.empty [.getBytes [0x61]] heap ∧ ¬ heap.Sized ∧
      ∃ array, heap.lookup (.primitive .byte) 0 = .ok array ∧ getArrayLength array = 0 ∧
        load array.array 0 = .ok 0x61 := by
  have hrun : Run step (fun _ _ => True) Heap.empty [.getBytes [0x61]] _ :=
    .cons trivial rfl (.nil _)
  refine ⟨_, hrun, ?_, _, rfl, rfl, rfl⟩
  rw [run_sized_iff hrun]
  rintro ⟨-, h⟩
  cases h _ (List.mem_singleton.mpr rfl)

end Sober.Jni
