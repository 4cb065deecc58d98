import Sober.SupervisorCall.SlowPath

/-! # Translation of a guest `va_list`

The handler turns the guest list into a host list whose general save area is
already exhausted: unread general registers and the stack become one overflow
area, and the vector area is shifted so that both cursors reach its end
together. The two lists then give the same stream of arguments.
-/
namespace Sober
open Machine Abi

namespace HandlerFrame

def vaList (f : HandlerFrame) : SystemVVaList HostPtr :=
  ⟨f.nativeVaArgsData.gpOffset, f.nativeVaArgsData.fpOffset, f.nativeVaArgsData.overflowArgArea⟩

def areas (f : HandlerFrame) (m : Memory) : SystemVAreas HostPtr where
  save off := read64 m (f.nativeVaArgsData.regSaveArea + BitVec.ofNat 64 off)
  load
    | .address a => read64 m a
    | .gpArgBuffer offset => f.gpArgBuffer.read64 offset
  advance
    | .address a => .address (a + 8)
    | .gpArgBuffer offset => .gpArgBuffer (offset + 8)

end HandlerFrame

/-- No double request finds the vector save area exhausted while general
register slots are still unread. -/
def NoEarlySpill (m : Memory) : List Kind → Aarch64VaArgsData → Prop
  | [], _ => True
  | k :: ks, g =>
    ¬ (k = .floating ∧ 0 ≤ g.vrOffs.toInt ∧ g.grOffs.toInt < 0) ∧
      NoEarlySpill m ks (Aapcs64VaList.arg m k g).2

instance decidableNoEarlySpill (m : Memory) :
    (ks : List Kind) → (g : Aarch64VaArgsData) → Decidable (NoEarlySpill m ks g)
  | [], _ => isTrue trivial
  | k :: ks, g =>
    have := decidableNoEarlySpill m ks (Aapcs64VaList.arg m k g).2
    inferInstanceAs (Decidable (_ ∧ _))

/-- The guest cursor `g` and the host cursor `l` agree on the vector save area. -/
structure VectorsMatch (f : HandlerFrame) (g : Aarch64VaArgsData) (l : SystemVVaList HostPtr) :
    Prop where
  gpOffset : l.gpOffset = 48
  fpOffset : l.fpOffset = 176 + g.vrOffs
  regSaveArea : f.nativeVaArgsData.regSaveArea = g.vrTop - 176
  aligned : 16 ∣ g.vrOffs.toInt
  lower : -128 ≤ g.vrOffs.toInt
  upper : g.vrOffs.toInt ≤ 0

namespace VectorsMatch
variable {f : HandlerFrame} {g : Aarch64VaArgsData} {l : SystemVVaList HostPtr}

theorem fpOffset_toNat (h : VectorsMatch f g l) :
    (l.fpOffset.toNat : ℤ) = g.vrOffs.toInt + 176 := by
  have hlo := h.lower
  have hhi := h.upper
  rw [h.fpOffset]
  exact toNat_ofNat_add (n := 176) (by omega) (by omega) (by omega)

theorem overflows_integer (h : VectorsMatch f g l) : l.Overflows .integer := by
  rw [SystemVVaList.Overflows, h.gpOffset]
  decide

theorem overflows_floating_iff (h : VectorsMatch f g l) :
    l.Overflows .floating ↔ 0 ≤ g.vrOffs.toInt := by
  have hoff := h.fpOffset_toNat
  have hdvd := h.aligned
  have hhi := h.upper
  rw [SystemVVaList.Overflows]
  omega

/-- Moving the stack cursors leaves the vector cursors as they are. -/
theorem move (h : VectorsMatch f g l) (stack : Word) (grOffs : BitVec 32) (p : HostPtr) :
    VectorsMatch f { g with stack := stack, grOffs := grOffs }
      { l with overflowArgArea := p } :=
  ⟨h.gpOffset, h.fpOffset, h.regSaveArea, h.aligned, h.lower, h.upper⟩

/-- A double that is still in the vector save area. -/
theorem floating (h : VectorsMatch f g l) (m : Memory) (hv : g.vrOffs.toInt < 0) :
    (SystemVVaList.arg (f.areas m) .floating l).1 = (Aapcs64VaList.arg m .floating g).1 ∧
      (SystemVVaList.arg (f.areas m) .floating l).2 = { l with fpOffset := l.fpOffset + 16 } ∧
      (Aapcs64VaList.arg m .floating g).2 = { g with vrOffs := g.vrOffs + 16 } ∧
      VectorsMatch f { g with vrOffs := g.vrOffs + 16 } { l with fpOffset := l.fpOffset + 16 } := by
  have hdvd := h.aligned
  have hlo := h.lower
  have hoff := h.fpOffset_toNat
  have hnext : (g.vrOffs + 16).toInt = g.vrOffs.toInt + 16 :=
    toInt_add_ofNat (n := 16) (by omega) (by omega)
  have hover : ¬ l.Overflows .floating := by
    rw [h.overflows_floating_iff]
    omega
  have hbias : g.vrOffs.toInt = l.fpOffset.toNat - (176 : ℕ) := by omega
  have haddr : g.vrTop + g.vrOffs.signExtend 64 =
      g.vrTop - 176 + BitVec.ofNat 64 l.fpOffset.toNat := add_signExtend g.vrTop hbias
  have hhost : SystemVVaList.arg (f.areas m) .floating l =
      (read64 m (f.nativeVaArgsData.regSaveArea + BitVec.ofNat 64 l.fpOffset.toNat),
        { l with fpOffset := l.fpOffset + 16 }) := if_neg hover
  have hguest : Aapcs64VaList.arg m .floating g =
      (read64 m (g.vrTop + g.vrOffs.signExtend 64), { g with vrOffs := g.vrOffs + 16 }) := by
    rw [Aapcs64VaList.arg, if_neg (by omega), if_neg (by omega)]
  rw [hhost, hguest]
  refine ⟨by rw [haddr, h.regSaveArea], rfl, rfl, h.gpOffset, ?_, h.regSaveArea, ?_, ?_, ?_⟩
  · rw [h.fpOffset, BitVec.add_assoc]
  · rw [hnext]
    omega
  · rw [hnext]
    omega
  · rw [hnext]
    omega

/-- A request that the host serves from the overflow area. -/
theorem host_overflow (h : VectorsMatch f g l) (m : Memory) {k : Kind}
    (hk : k = .floating → 0 ≤ g.vrOffs.toInt) :
    l.Overflows k ∧ SystemVVaList.arg (f.areas m) k l =
      SystemVVaList.overflow (f.areas m) l := by
  cases k with
  | integer => exact ⟨h.overflows_integer, if_pos h.overflows_integer⟩
  | floating =>
    have hover := h.overflows_floating_iff.mpr (hk rfl)
    exact ⟨hover, if_pos hover⟩

end VectorsMatch

section Exhausted
variable {f : HandlerFrame} {m : Memory}

/-- With the general registers all read, the two cursors walk the same stack. -/
theorem stream_of_exhausted (requests : List Kind) {g : Aarch64VaArgsData}
    {l : SystemVVaList HostPtr} (hv : VectorsMatch f g l) (hgr : 0 ≤ g.grOffs.toInt)
    (haligned : 8 ∣ g.stack.toNat) (hp : l.overflowArgArea = .address g.stack) :
    stream (SystemVVaList.arg (f.areas m)) requests l =
      stream (Aapcs64VaList.arg m) requests g := by
  apply stream_eq_of_simulation (fun _ l g => VectorsMatch f g l ∧ 0 ≤ g.grOffs.toInt ∧
    8 ∣ g.stack.toNat ∧ l.overflowArgArea = .address g.stack) _ requests l g
    ⟨hv, hgr, haligned, hp⟩
  rintro k rest l g ⟨hv, hgr, haligned, hp⟩
  by_cases hk : k = .floating ∧ g.vrOffs.toInt < 0
  · rcases hk with ⟨rfl, hneg⟩
    rcases hv.floating m hneg with ⟨hvalue, hl, hg, hv'⟩
    rw [hl, hg]
    exact ⟨hvalue, hv', hgr, haligned, hp⟩
  · rcases hv.host_overflow m (k := k) (by intro e; by_contra hn; exact hk ⟨e, by omega⟩)
      with ⟨-, hhost⟩
    have hguest : Aapcs64VaList.arg m k g = Aapcs64VaList.onStack m g := by
      cases k with
      | integer => exact if_pos hgr
      | floating => exact if_pos (by by_contra hn; exact hk ⟨rfl, by omega⟩)
    rw [hhost, hguest, Aapcs64VaList.onStack_of_aligned haligned]
    simp only [SystemVVaList.overflow, hp]
    exact ⟨rfl, hv.move _ _ _, hgr, Aapcs64VaList.dvd_add_eight haligned, rfl⟩

end Exhausted

/-- Slot `k` of the filled buffer: an unread general register, then the stack. -/
theorem fillGpArgBuffer_slot (m : Memory) (guest : Aarch64VaArgsData) (buffer : Block (16 * 8))
    {grSize k : ℕ} (hsize : grSize ≤ 64) (hdvd : 8 ∣ grSize) (hk : k < 16)
    (hstack : guest.stack ≠ 0) :
    (fillGpArgBuffer m guest grSize buffer).read64 (8 * k) =
      if 8 * k < grSize then
        read64 m (guest.grTop - BitVec.ofNat 64 grSize + BitVec.ofNat 64 (8 * k))
      else read64 m (guest.stack + BitVec.ofNat 64 (8 * k - grSize)) := by
  have hfill : fillGpArgBuffer m guest grSize buffer =
      (buffer.fill 0 grSize
        (fun i => m (guest.grTop - BitVec.ofNat 64 grSize + BitVec.ofNat 64 i))).fill grSize
        (16 * 8 - grSize) (fun i => m (guest.stack + BitVec.ofNat 64 i)) :=
    if_pos ⟨by omega, hstack⟩
  rw [hfill]
  split_ifs with h
  · apply Block.read64_eq _ (by omega)
    intro i hi
    rw [Block.fill_outside _ _ _ (by omega), Block.fill_inside _ _ _ (by omega) (by omega),
      add_ofNat_add, Nat.sub_zero]
  · apply Block.read64_eq _ (by omega)
    intro i hi
    rw [Block.fill_inside _ _ _ (by omega) (by omega), add_ofNat_add]
    congr 3
    omega

/-- The guest cursor `g` after `k` slots, general registers first. -/
structure AtSlot (guest : Aarch64VaArgsData) (grSize k : ℕ) (g : Aarch64VaArgsData)
    (p : HostPtr) : Prop where
  pointer : p = .gpArgBuffer (8 * k)
  grTop : g.grTop = guest.grTop
  grOffs : g.grOffs.toInt = min 0 (8 * k - grSize : ℤ)
  stack : g.stack = guest.stack + BitVec.ofNat 64 (8 * k - grSize)
  aligned : 8 ∣ g.stack.toNat

namespace AtSlot
variable {f : HandlerFrame} {m : Memory} {guest g : Aarch64VaArgsData} {grSize k : ℕ}
  {p : HostPtr}

/-- A general register that is still unread. -/
theorem integer_saved (h : AtSlot guest grSize k g p) (hsize : grSize ≤ 64) (hdvd : 8 ∣ grSize)
    (hk : 8 * k < grSize) :
    (Aapcs64VaList.arg m .integer g) =
        (read64 m (guest.grTop - BitVec.ofNat 64 grSize + BitVec.ofNat 64 (8 * k)),
          { g with grOffs := g.grOffs + 8 }) ∧
      AtSlot guest grSize (k + 1) { g with grOffs := g.grOffs + 8 } ((f.areas m).advance p) := by
  have hoffs := h.grOffs
  have hnext : (g.grOffs + 8).toInt = g.grOffs.toInt + 8 :=
    toInt_add_ofNat (n := 8) (by omega) (by omega)
  have hbias : g.grOffs.toInt = (8 * k : ℕ) - (grSize : ℤ) := by
    push_cast
    omega
  constructor
  · rw [Aapcs64VaList.arg, if_neg (by omega), if_neg (by omega), add_signExtend g.grTop hbias,
      h.grTop]
  · refine ⟨by rw [h.pointer]; rfl, h.grTop, ?_, ?_, h.aligned⟩
    · rw [hnext]
      push_cast
      omega
    · rw [h.stack]
      congr 2
      omega

/-- Past the general registers every slot is a stack slot. -/
theorem onStack (h : AtSlot guest grSize k g p) (hk : grSize ≤ 8 * k) :
    Aapcs64VaList.onStack m g =
        (read64 m (guest.stack + BitVec.ofNat 64 (8 * k - grSize)),
          { g with stack := g.stack + 8 }) ∧
      AtSlot guest grSize (k + 1) { g with stack := g.stack + 8 } ((f.areas m).advance p) := by
  have hoffs := h.grOffs
  constructor
  · rw [Aapcs64VaList.onStack_of_aligned h.aligned, h.stack]
  · refine ⟨by rw [h.pointer]; rfl, h.grTop, ?_, ?_, Aapcs64VaList.dvd_add_eight h.aligned⟩
    · rw [hoffs]
      push_cast
      omega
    · rw [h.stack]
      change _ + BitVec.ofNat 64 8 = _
      rw [add_ofNat_add]
      congr 2
      omega

end AtSlot

section Buffered
variable {f : HandlerFrame} {m : Memory} {guest : Aarch64VaArgsData} {grSize : ℕ}
  {buffer : Block (16 * 8)}

/-- One request served from the buffer gives the value of the guest's next slot. -/
theorem buffered_step (hbuf : f.gpArgBuffer = fillGpArgBuffer m guest grSize buffer)
    (hsize : grSize ≤ 64) (hdvd : 8 ∣ grSize) (hstack : guest.stack ≠ 0) {k : ℕ} {kind : Kind}
    {g : Aarch64VaArgsData} {l : SystemVVaList HostPtr} (hv : VectorsMatch f g l)
    (hs : AtSlot guest grSize k g l.overflowArgArea) (hk : k < 16)
    (hfloat : kind = .floating → 0 ≤ g.vrOffs.toInt ∧ grSize ≤ 8 * k) :
    (SystemVVaList.overflow (f.areas m) l).1 = (Aapcs64VaList.arg m kind g).1 ∧
      VectorsMatch f (Aapcs64VaList.arg m kind g).2 (SystemVVaList.overflow (f.areas m) l).2 ∧
      AtSlot guest grSize (k + 1) (Aapcs64VaList.arg m kind g).2
        (SystemVVaList.overflow (f.areas m) l).2.overflowArgArea := by
  have hload : (f.areas m).load l.overflowArgArea = f.gpArgBuffer.read64 (8 * k) := by
    rw [hs.pointer]
    rfl
  have hvalue : (SystemVVaList.overflow (f.areas m) l).1 = _ :=
    hload.trans (hbuf ▸ fillGpArgBuffer_slot m guest buffer hsize hdvd hk hstack)
  rw [hvalue]
  by_cases hlt : 8 * k < grSize
  · cases kind with
    | floating => exact absurd (hfloat rfl).2 (by omega)
    | integer =>
      rcases hs.integer_saved (f := f) (m := m) hsize hdvd hlt with ⟨hguest, hs'⟩
      rw [if_pos hlt, hguest]
      exact ⟨rfl, hv.move _ _ _, hs'⟩
  · have hoffs := hs.grOffs
    have hguest : Aapcs64VaList.arg m kind g = Aapcs64VaList.onStack m g := by
      cases kind with
      | integer => exact if_pos (by omega)
      | floating => exact if_pos (hfloat rfl).1
    rcases hs.onStack (f := f) (m := m) (by omega) with ⟨hstep, hs'⟩
    rw [if_neg hlt, hguest, hstep]
    exact ⟨rfl, hv.move _ _ _, hs'⟩

/-- With general registers unread, the buffer replaces them and the stack as
long as it lasts. -/
theorem stream_of_buffered (hbuf : f.gpArgBuffer = fillGpArgBuffer m guest grSize buffer)
    (hsize : grSize ≤ 64) (hdvd : 8 ∣ grSize) (hstack : guest.stack ≠ 0)
    (requests : List Kind) {k : ℕ} {g : Aarch64VaArgsData} {l : SystemVVaList HostPtr}
    (hv : VectorsMatch f g l) (hs : AtSlot guest grSize k g l.overflowArgArea)
    (hcount : k + l.overflowCount (f.areas m) requests ≤ 16) (hspill : NoEarlySpill m requests g) :
    stream (SystemVVaList.arg (f.areas m)) requests l =
      stream (Aapcs64VaList.arg m) requests g := by
  apply stream_eq_of_simulation (fun requests l g => ∃ k, VectorsMatch f g l ∧
    AtSlot guest grSize k g l.overflowArgArea ∧
    k + SystemVVaList.overflowCount (f.areas m) requests l ≤ 16 ∧ NoEarlySpill m requests g) _
    requests l g ⟨k, hv, hs, hcount, hspill⟩
  rintro kind rest l g ⟨k, hv, hs, hcount, hnow, hspill⟩
  by_cases hsaved : kind = .floating ∧ g.vrOffs.toInt < 0
  · rcases hsaved with ⟨rfl, hneg⟩
    rcases hv.floating m hneg with ⟨hvalue, hl, hg, hv'⟩
    have hover : ¬ l.Overflows .floating := by
      rw [hv.overflows_floating_iff]
      omega
    rw [SystemVVaList.overflowCount, if_neg hover, hl] at hcount
    rw [hg] at hspill
    rw [hl, hg]
    exact ⟨hvalue, k, hv', ⟨hs.pointer, hs.grTop, hs.grOffs, hs.stack, hs.aligned⟩,
      by omega, hspill⟩
  · have hexhausted : kind = .floating → 0 ≤ g.vrOffs.toInt := by
      intro e
      by_contra hn
      exact hsaved ⟨e, by omega⟩
    rcases hv.host_overflow m hexhausted with ⟨hover, hhost⟩
    rw [SystemVVaList.overflowCount, if_pos hover, hhost] at hcount
    have hoffs := hs.grOffs
    have hfloat : kind = .floating → 0 ≤ g.vrOffs.toInt ∧ grSize ≤ 8 * k := by
      intro e
      refine ⟨hexhausted e, ?_⟩
      by_contra hn
      exact hnow ⟨e, hexhausted e, by omega⟩
    rcases buffered_step hbuf hsize hdvd hstack hv hs (by omega) hfloat with ⟨hvalue, hv', hs'⟩
    rw [hhost]
    exact ⟨hvalue, k + 1, hv', hs', by omega, hspill⟩

end Buffered

/-- The offsets of a list that `va_start` and `va_arg` can leave behind. -/
structure ValidVaArgs (g : Aarch64VaArgsData) : Prop where
  grAligned : 8 ∣ g.grOffs.toInt
  grRange : 0 ≤ g.grOffs.toInt ∨ -64 ≤ g.grOffs.toInt ∧ g.grOffs.toInt ≤ -8
  vrAligned : 16 ∣ g.vrOffs.toInt
  vrLower : -128 ≤ g.vrOffs.toInt
  vrUpper : g.vrOffs.toInt ≤ 0
  stack : g.stack ≠ 0
  stackAligned : 8 ∣ g.stack.toNat

/-- The host list of the frame gives the stream of the guest list, without a
bound if the guest has no unread general registers, and otherwise within the
buffer and the order it was laid out for. -/
def TranslatesStream (m : Memory) (guest : Aarch64VaArgsData) (f : HandlerFrame) : Prop :=
  ∀ requests,
    (guest.grOffs.toInt < 0 →
      f.vaList.overflowCount (f.areas m) requests ≤ 16 ∧ NoEarlySpill m requests guest) →
    stream (SystemVVaList.arg (f.areas m)) requests f.vaList =
      stream (Aapcs64VaList.arg m) requests guest

theorem translateVaList_stream (m : Memory) {guest : Aarch64VaArgsData} (hg : ValidVaArgs guest)
    (frame : HandlerFrame) :
    ∃ f, translateVaList m guest frame = some f ∧ f.vaArgsAddress = frame.vaArgsAddress ∧
      TranslatesStream m guest f := by
  have hvr := hg.vrLower
  by_cases hgr : guest.grOffs.toInt ≥ 0
  · refine ⟨_, if_pos hgr, rfl, fun requests _ => ?_⟩
    apply stream_of_exhausted requests _ hgr hg.stackAligned rfl
    exact ⟨rfl, rfl, rfl, hg.vrAligned, hg.vrLower, hg.vrUpper⟩
  · have hdvd := hg.grAligned
    have hrange := hg.grRange
    have hsize : (-guest.grOffs).toNat = guest.grOffs.toInt.natAbs :=
      toNat_neg_of_toInt (by omega) (by omega)
    have hfit : (-guest.grOffs).toNat ≤ 16 * 8 := by omega
    refine ⟨_, (if_neg hgr).trans (if_pos hfit), rfl, fun requests hreq => ?_⟩
    rcases hreq (by omega) with ⟨hcount, hspill⟩
    apply stream_of_buffered rfl (by omega) (by omega) hg.stack requests (k := 0) _ _
      (by omega) hspill
    · exact ⟨rfl, rfl, rfl, hg.vrAligned, hg.vrLower, hg.vrUpper⟩
    · refine ⟨rfl, rfl, ?_, ?_, hg.stackAligned⟩
      · omega
      · rw [Nat.mul_zero, Nat.zero_sub]
        simp

section Handler
variable (dc : Dyncall)
  (invoke : NativeCall → World dc.Vm → Except Fault (HostReturn × World dc.Vm))

theorem marshal_append (j : JitState) (m : Memory) (ts ts' : List FunctionArgumentType)
    {c c' : Cursor dc.Vm} (h : marshal dc j m ts c = .ok c') :
    marshal dc j m (ts ++ ts') c = marshal dc j m ts' c' := by
  induction ts generalizing c with
  | nil =>
    cases h
    rfl
  | cons t ts ih =>
    rw [List.cons_append, marshal]
    rw [marshal] at h
    cases hpush : pushArgument dc j m t c with
    | error e =>
      rw [hpush] at h
      cases h
    | ok c₁ =>
      rw [hpush] at h
      exact ih h

/-- The translated list stays in the frame while the other parameters are pushed,
and the pointer to it is pushed in its place. -/
theorem marshal_variadicList {j : JitState} {m : Memory} {ts₁ ts₂ : List FunctionArgumentType}
    (h₁ : ∀ t ∈ ts₁, t.kind?.isSome) (h₂ : ∀ t ∈ ts₂, t.kind?.isSome) (vm : dc.Vm)
    {frame f : HandlerFrame}
    (hf : translateVaList m (readVaArgsData m ((j.argState m).at
      (aapcs64.next (ts₁.filterMap FunctionArgumentType.kind?) .integer))) frame = some f) :
    ∃ c rest, marshal dc j m (ts₁ ++ .variadicList :: ts₂)
        ⟨dc.reset vm, 0, 0, j.sp, frame⟩ = .ok c ∧ c.frame = f ∧
      dc.args c.vm = (ts₁.filterMap FunctionArgumentType.kind?).zip
        (aapcs64.read (ts₁.filterMap FunctionArgumentType.kind?) (j.argState m)) ++
          (.integer, f.vaArgsAddress) :: rest := by
  rcases marshal_passes j m ts₁ h₁ vm frame with ⟨c₁, hrun₁, hc₁, hframe₁, hp₁⟩
  rcases pushArgument_variadicList hc₁ (hframe₁ ▸ hf) with ⟨c₂, hpush, hc₂, hframe₂, hpointer⟩
  rcases marshal_of_kinds (m := m) ts₂ h₂ hc₂ with ⟨c, hrun, -, hframe, hargs⟩
  have hmarshal : marshal dc j m (ts₁ ++ .variadicList :: ts₂)
      ⟨dc.reset vm, 0, 0, j.sp, frame⟩ = .ok c := by
    rw [marshal_append dc j m _ _ hrun₁, marshal, hpush]
    exact hrun
  rw [hpointer, hp₁, List.append_assoc] at hargs
  exact ⟨c, _, hmarshal, hframe.trans hframe₂, hargs⟩

/-- Passing on the remaining registers touches neither the frame nor what is pushed. -/
theorem ellipsis_extends (j : JitState) (isEllipsisFunction : Bool) (c : Cursor dc.Vm) :
    ∃ c' more, (if isEllipsisFunction then pushEllipsis dc j c else c) = c' ∧
      c'.frame = c.frame ∧ dc.args c'.vm = dc.args c.vm ++ more := by
  cases isEllipsisFunction with
  | false => exact ⟨c, [], rfl, rfl, by simp⟩
  | true =>
    have hargs := args_pushEllipsis dc j c
    rw [List.append_assoc] at hargs
    exact ⟨pushEllipsis dc j c, _, rfl, rfl, hargs⟩

theorem length_filterMap_kind (ts : List FunctionArgumentType) (h : ∀ t ∈ ts, t.kind?.isSome) :
    (ts.filterMap FunctionArgumentType.kind?).length = ts.length := by
  exact List.filterMap_length_eq_length.mpr h

theorem getElem?_append_cons {α : Type*} {xs : List α} {n : ℕ} (h : xs.length = n) (x : α)
    (ys : List α) : (xs ++ x :: ys)[n]? = some x := by
  subst h
  simp

/-- The native function is called once, with the address of the host list where
the guest passed its own, and reads from it what the guest list holds. -/
theorem handleCallSvc_translates_vaList (frame : HandlerFrame) (swi : BitVec 32) (w : World dc.Vm)
    (t : Trampoline) (ht : trampolineGetById w.trampolines swi = some t)
    (ts₁ ts₂ : List FunctionArgumentType)
    (hparams : t.types.params = ts₁ ++ .variadicList :: ts₂)
    (h₁ : ∀ t ∈ ts₁, t.kind?.isSome) (h₂ : ∀ t ∈ ts₂, t.kind?.isSome)
    (hret : t.types.ret.returnType?.isSome) (guest : Aarch64VaArgsData)
    (hguest : guest = readVaArgsData w.mem ((w.jit.argState w.mem).at
      (aapcs64.next (ts₁.filterMap FunctionArgumentType.kind?) .integer)))
    (hvalid : ValidVaArgs guest) :
    ∃ (call : NativeCall) (f : HandlerFrame) (vm : dc.Vm),
      call.func = t.nativeFunc ∧ call.frame = some f ∧ call.entry = dc.enter vm ∧
      (dc.args vm)[ts₁.length]? = some (.integer, f.vaArgsAddress) ∧
      MakesOneCall dc invoke call w (handleCallSvc dc invoke frame swi w) ∧
      TranslatesStream w.mem guest f := by
  rcases translateVaList_stream w.mem hvalid frame with ⟨f, hf, -, hstream⟩
  rcases Option.isSome_iff_exists.mp hret with ⟨r, hr⟩
  obtain ⟨c, rest, hrun, hframe, hargs⟩ :=
    marshal_variadicList dc h₁ h₂ w.dyncallVm (hguest ▸ hf)
  rcases ellipsis_extends dc w.jit t.isEllipsisFunction c with ⟨c', more, hc', hframe', hmore⟩
  have hcall : handleCallSvc dc invoke frame swi w =
      callNative dc invoke t.nativeFunc r c' w := by
    simp only [handleCallSvc, ht, hparams, hrun, hr, hc']
  refine ⟨⟨t.nativeFunc, dc.enter c'.vm, some c'.frame⟩, f, c'.vm, rfl, ?_, rfl, ?_, ?_, hstream⟩
  · rw [hframe', hframe]
  · rw [hmore, hargs, List.append_assoc, List.cons_append]
    apply getElem?_append_cons
    simp [Convention.read, Convention.locations, length_filterMap_kind ts₁ h₁]
  · rw [hcall]
    exact callNative_makesOneCall dc invoke t.nativeFunc r c' w

end Handler

def vprintfTrampoline : Trampoline where
  name := "vprintf"
  id := 0
  nativeFunc := 0x5000
  types := .of .signedWord [.pointer, .variadicList]
  isEllipsisFunction := false
  hasExecutionSideEffects := false
  guestTrampoline := 0x2000

/-- The list that `x1` points to is at 1, has an aligned stack and both offsets at minus
sixteen. -/
def vprintfWorld : World Dyncall.ofList.Vm :=
  { World.fresh [vprintfTrampoline] 0 with
    mem := fun a =>
      if a.toNat = 1 then 0
      else if a.toNat = 25 ∨ a.toNat = 29 then 0xf0
      else if 25 ≤ a.toNat ∧ a.toNat ≤ 32 then 0xff
      else a.setWidth 8 }

theorem handleCallSvc_translates_vprintf :
    ∃ f : HandlerFrame,
      stream (SystemVVaList.arg (f.areas vprintfWorld.mem))
          [.integer, .floating, .integer, .integer] f.vaList =
        stream (Aapcs64VaList.arg vprintfWorld.mem) [.integer, .floating, .integer, .integer]
          (readVaArgsData vprintfWorld.mem 1) := by
  obtain ⟨call, f, vm, -, -, -, -, -, hstream⟩ :=
    handleCallSvc_translates_vaList .ofList (fun _ w => .ok (⟨0, 0⟩, w)) .cleared 0x10
      vprintfWorld vprintfTrampoline rfl [.pointer] [] rfl (by decide) (by decide) (by decide)
      (readVaArgsData vprintfWorld.mem 1) rfl
      ⟨by decide, by decide, by decide, by decide, by decide, by decide, by decide⟩
  refine ⟨f, hstream _ fun _ => ⟨?_, by decide⟩⟩
  exact (SystemVVaList.overflowCount_le_length _ _ _).trans (by decide)

end Sober
