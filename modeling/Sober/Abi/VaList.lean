import Sober.Abi.Convention

/-! # Variadic argument cursors

The two `va_list` layouts as cursor machines: one request of a kind returns a
doubleword and the moved cursor. A stream is what a callee obtains from a whole
sequence of requests, and two cursors related by a simulation give the same
stream.
-/
namespace Sober.Abi
open Machine

def stream {L : Type*} (arg : Kind → L → Word × L) : List Kind → L → List Word
  | [], _ => []
  | k :: ks, l => (arg k l).1 :: stream arg ks (arg k l).2

/-- The relation may speak about the requests still to come. -/
theorem stream_eq_of_simulation {L M : Type*} {arg : Kind → L → Word × L}
    {arg' : Kind → M → Word × M} (R : List Kind → L → M → Prop)
    (hstep : ∀ k ks l m, R (k :: ks) l m →
      (arg k l).1 = (arg' k m).1 ∧ R ks (arg k l).2 (arg' k m).2)
    (ks : List Kind) (l : L) (m : M) (h : R ks l m) : stream arg ks l = stream arg' ks m := by
  induction ks generalizing l m with
  | nil => rfl
  | cons k ks ih =>
    rcases hstep k ks l m h with ⟨hv, hr⟩
    rw [stream, stream, hv, ih _ _ hr]

structure Aapcs64VaList where
  stack : Word
  grTop : Word
  vrTop : Word
  grOffs : BitVec 32
  vrOffs : BitVec 32

namespace Aapcs64VaList

def onStack (m : Memory) (l : Aapcs64VaList) : Word × Aapcs64VaList :=
  (read64 m l.stack, { l with stack := (l.stack + 8 + 7) &&& ~~~7#64 })

theorem and_not_seven (w : Word) : w &&& ~~~7#64 = (w >>> 3) <<< 3 := by
  have hmask : ∀ i (hi : i < 64), (~~~7#64)[i] = decide (3 ≤ i) := by decide
  ext i hi
  simp only [BitVec.getElem_and, BitVec.getElem_shiftLeft, BitVec.getElem_ushiftRight]
  rw [hmask i hi]
  by_cases hlow : i < 3
  · simp [hlow]
  · have hhigh : 3 + (i - 3) = i := by omega
    simp [hlow, hhigh, Nat.le_of_not_lt hlow, BitVec.getLsbD_eq_getElem hi]

/-- In an aligned stack area every doubleword takes one slot. -/
theorem onStack_of_aligned {m : Memory} {l : Aapcs64VaList} (h : 8 ∣ l.stack.toNat) :
    onStack m l = (read64 m l.stack, { l with stack := l.stack + 8 }) := by
  have hround : (l.stack + 8 + 7) &&& ~~~7#64 = l.stack + 8 := by
    rw [and_not_seven]
    apply BitVec.eq_of_toNat_eq
    simp only [BitVec.toNat_shiftLeft, BitVec.toNat_ushiftRight, BitVec.toNat_add,
      Nat.shiftLeft_eq, Nat.shiftRight_eq_div_pow]
    change ((l.stack.toNat + 8) % 2 ^ 64 + 7) % 2 ^ 64 / 2 ^ 3 * 2 ^ 3 % 2 ^ 64 =
      (l.stack.toNat + 8) % 2 ^ 64
    omega
  rw [onStack, hround]

theorem dvd_add_eight {w : Word} (h : 8 ∣ w.toNat) : 8 ∣ (w + 8).toNat := by
  have hadd : (w + 8).toNat = (w.toNat + 8) % 2 ^ 64 := BitVec.toNat_add w 8
  rw [hadd]
  omega

/-- A save area is exhausted once its offset is no longer negative. -/
def arg (m : Memory) : Kind → Aapcs64VaList → Word × Aapcs64VaList
  | .integer, l =>
    if 0 ≤ l.grOffs.toInt then onStack m l
    else if 0 < (l.grOffs + 8).toInt then onStack m { l with grOffs := l.grOffs + 8 }
    else (read64 m (l.grTop + l.grOffs.signExtend 64), { l with grOffs := l.grOffs + 8 })
  | .floating, l =>
    if 0 ≤ l.vrOffs.toInt then onStack m l
    else if 0 < (l.vrOffs + 16).toInt then onStack m { l with vrOffs := l.vrOffs + 16 }
    else (read64 m (l.vrTop + l.vrOffs.signExtend 64), { l with vrOffs := l.vrOffs + 16 })

end Aapcs64VaList

/-- The System V `va_list`, over the pointers `P` of its overflow area. -/
structure SystemVVaList (P : Type*) where
  gpOffset : BitVec 32
  fpOffset : BitVec 32
  overflowArgArea : P

/-- What a System V reader dereferences: the register save area by byte offset
and the overflow area by pointer. -/
structure SystemVAreas (P : Type*) where
  save : ℕ → Word
  load : P → Word
  advance : P → P

namespace SystemVVaList
variable {P : Type*}

def overflow (areas : SystemVAreas P) (l : SystemVVaList P) : Word × SystemVVaList P :=
  (areas.load l.overflowArgArea, { l with overflowArgArea := areas.advance l.overflowArgArea })

def Overflows (l : SystemVVaList P) : Kind → Prop
  | .integer => 48 - 8 < l.gpOffset.toNat
  | .floating => 176 - 16 < l.fpOffset.toNat

instance (l : SystemVVaList P) : (k : Kind) → Decidable (l.Overflows k)
  | .integer => inferInstanceAs (Decidable (_ < _))
  | .floating => inferInstanceAs (Decidable (_ < _))

/-- The six general registers end at offset 48, the eight vector registers at 176. -/
def arg (areas : SystemVAreas P) : Kind → SystemVVaList P → Word × SystemVVaList P
  | .integer, l =>
    if l.Overflows .integer then overflow areas l
    else (areas.save l.gpOffset.toNat, { l with gpOffset := l.gpOffset + 8 })
  | .floating, l =>
    if l.Overflows .floating then overflow areas l
    else (areas.save l.fpOffset.toNat, { l with fpOffset := l.fpOffset + 16 })

def overflowCount (areas : SystemVAreas P) : List Kind → SystemVVaList P → ℕ
  | [], _ => 0
  | k :: ks, l => (if l.Overflows k then 1 else 0) + overflowCount areas ks (arg areas k l).2

theorem overflowCount_le_length (areas : SystemVAreas P) (ks : List Kind) (l : SystemVVaList P) :
    overflowCount areas ks l ≤ ks.length := by
  induction ks generalizing l with
  | nil => exact le_rfl
  | cons k ks ih =>
    have hrest := ih (arg areas k l).2
    rw [overflowCount, List.length_cons]
    split_ifs <;> omega

end SystemVVaList

/-- Machine state at the entry of a host function. The vector registers below
`al` are the ones a variadic callee saves. -/
structure HostEntry where
  args : ArgState
  al : ℕ

namespace HostEntry

/-- The prologue of a variadic callee with named parameters of kinds `ks`. -/
def vaStart (ks : List Kind) : SystemVVaList ℕ where
  gpOffset := BitVec.ofNat 32 (8 * min 6 (ks.count .integer))
  fpOffset := BitVec.ofNat 32 (48 + 16 * min 8 (ks.count .floating))
  overflowArgArea := systemV.spilled ks

/-- The save area the prologue fills; unsaved vector slots keep stale contents. -/
def areas (e : HostEntry) (stale : ℕ → Word) : SystemVAreas ℕ where
  save off := if off < 48 then e.args.reg .integer (off / 8) else
    if (off - 48) / 16 < e.al then e.args.reg .floating ((off - 48) / 16) else stale off
  load := e.args.stack
  advance := (· + 1)

/-- What a callee with the named parameters `ks` fetches by these requests. -/
def fetch (e : HostEntry) (stale : ℕ → Word) (ks requests : List Kind) : List Word :=
  stream (SystemVVaList.arg (e.areas stale)) requests (vaStart ks)

/-- Argument registers read in order, from the given number of each kind on. -/
def registerArg (s : ArgState) (k : Kind) (n : Kind → ℕ) : Word × (Kind → ℕ) :=
  (s.reg k (n k), Function.update n k (n k + 1))

/-- The registers of `s` from the named parameters `ks` on, general ones below `ints`
and vector ones below `floats`, are where a System V callee looks for them. -/
structure Carries (e : HostEntry) (s : ArgState) (ks : List Kind) (ints floats : ℕ) : Prop where
  floats_le : floats ≤ 8
  reg : ∀ i, ks.count .integer ≤ i → i < ints → i < 6 →
    e.args.reg .integer i = s.reg .integer i
  stack : ∀ i, 6 ≤ i → i < ints → e.args.stack (i - 6) = s.reg .integer i
  vec : ∀ i, ks.count .floating ≤ i → i < floats →
    i < e.al ∧ e.args.reg .floating i = s.reg .floating i

/-- The cursor of a System V callee after `n` arguments of each kind. -/
structure AtCursor (n : Kind → ℕ) (l : SystemVVaList ℕ) : Prop where
  gpOffset : l.gpOffset = BitVec.ofNat 32 (8 * min 6 (n .integer))
  fpOffset : l.fpOffset = BitVec.ofNat 32 (48 + 16 * n .floating)
  overflowArgArea : l.overflowArgArea = n .integer - 6

section Fetch
variable {e : HostEntry} {s : ArgState} {ks : List Kind} {ints floats : ℕ}
  {n : Kind → ℕ} {l : SystemVVaList ℕ}

theorem AtCursor.integer (hl : AtCursor n l) (he : e.Carries s ks ints floats)
    (stale : ℕ → Word)
    (hlo : ks.count .integer ≤ n .integer) (hhi : n .integer < ints) :
    (SystemVVaList.arg (e.areas stale) .integer l).1 = s.reg .integer (n .integer) ∧
      AtCursor (Function.update n .integer (n .integer + 1))
        (SystemVVaList.arg (e.areas stale) .integer l).2 := by
  have hoff : l.gpOffset.toNat = 8 * min 6 (n .integer) := by
    rw [hl.gpOffset, BitVec.toNat_ofNat, Nat.mod_eq_of_lt (by omega)]
  by_cases h6 : n .integer < 6
  · have hn : ¬ l.Overflows .integer := by
      simp only [SystemVVaList.Overflows]
      omega
    have hdiv : 8 * min 6 (n .integer) / 8 = n .integer := by omega
    simp only [SystemVVaList.arg, if_neg hn, areas, hoff]
    rw [if_pos (by omega), hdiv]
    refine ⟨he.reg _ hlo hhi h6, ?_, ?_, ?_⟩
    · simp only [Function.update_self, hl.gpOffset]
      change BitVec.ofNat 32 _ + BitVec.ofNat 32 8 = _
      rw [← BitVec.ofNat_add]
      congr 1
      omega
    · simpa using hl.fpOffset
    · simp only [Function.update_self, hl.overflowArgArea]
      omega
  · have ho : l.Overflows .integer := by
      simp only [SystemVVaList.Overflows]
      omega
    simp only [SystemVVaList.arg, if_pos ho, SystemVVaList.overflow, areas, hl.overflowArgArea]
    refine ⟨he.stack _ (by omega) hhi, ?_, ?_, ?_⟩
    · simp only [Function.update_self, hl.gpOffset]
      congr 2
      omega
    · simpa using hl.fpOffset
    · simp only [Function.update_self]
      omega

theorem AtCursor.floating (hl : AtCursor n l) (he : e.Carries s ks ints floats)
    (stale : ℕ → Word)
    (hlo : ks.count .floating ≤ n .floating) (hhi : n .floating < floats) :
    (SystemVVaList.arg (e.areas stale) .floating l).1 = s.reg .floating (n .floating) ∧
      AtCursor (Function.update n .floating (n .floating + 1))
        (SystemVVaList.arg (e.areas stale) .floating l).2 := by
  have h8 := he.floats_le
  have hoff : l.fpOffset.toNat = 48 + 16 * n .floating := by
    rw [hl.fpOffset, BitVec.toNat_ofNat, Nat.mod_eq_of_lt (by omega)]
  have hn : ¬ l.Overflows .floating := by
    simp only [SystemVVaList.Overflows]
    omega
  have hdiv : (48 + 16 * n .floating - 48) / 16 = n .floating := by omega
  rcases he.vec _ hlo hhi with ⟨hal, hvec⟩
  simp only [SystemVVaList.arg, if_neg hn, areas, hoff]
  rw [if_neg (by omega), hdiv, if_pos hal]
  refine ⟨hvec, ?_, ?_, ?_⟩
  · simpa using hl.gpOffset
  · simp only [Function.update_self, hl.fpOffset]
    change BitVec.ofNat 32 _ + BitVec.ofNat 32 16 = _
    rw [← BitVec.ofNat_add]
    congr 1
  · simpa using hl.overflowArgArea

/-- The callee fetches the registers in order as long as they are carried. -/
theorem fetch_eq_registers (he : e.Carries s ks ints floats) (stale : ℕ → Word)
    (hf : ks.count .floating ≤ 8) (requests : List Kind)
    (hints : ks.count .integer + requests.count .integer ≤ ints)
    (hfloats : ks.count .floating + requests.count .floating ≤ floats) :
    e.fetch stale ks requests = stream (registerArg s) requests (fun k => ks.count k) := by
  apply stream_eq_of_simulation (fun rest l n => AtCursor n l ∧
    ks.count .integer ≤ n .integer ∧ ks.count .floating ≤ n .floating ∧
    n .integer + rest.count .integer ≤ ints ∧ n .floating + rest.count .floating ≤ floats)
  · rintro k rest l n ⟨hl, hi, hf, hints, hfloats⟩
    cases k with
    | integer =>
      simp only [List.count_cons, beq_iff_eq, reduceCtorEq, if_true, if_false] at hints hfloats
      rcases hl.integer he stale hi (by omega) with ⟨hv, hl'⟩
      refine ⟨hv, hl', ?_⟩
      simp only [registerArg, Function.update_self, ne_eq, reduceCtorEq, not_false_eq_true,
        Function.update_of_ne]
      omega
    | floating =>
      simp only [List.count_cons, beq_iff_eq, reduceCtorEq, if_true, if_false] at hints hfloats
      rcases hl.floating he stale hf (by omega) with ⟨hv, hl'⟩
      refine ⟨hv, hl', ?_⟩
      simp only [registerArg, Function.update_self, ne_eq, reduceCtorEq, not_false_eq_true,
        Function.update_of_ne]
      omega
  · refine ⟨⟨rfl, ?_, ?_⟩, le_rfl, le_rfl, hints, hfloats⟩
    · simp only [vaStart, Nat.min_eq_right hf]
    · simp only [vaStart, Convention.spilled, systemV]
      omega

end Fetch
end HostEntry
end Sober.Abi
