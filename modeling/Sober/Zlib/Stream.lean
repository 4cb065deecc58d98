import Mathlib.Data.BitVec
import Mathlib.Data.List.Basic
import Sober.Transition.Run

/-! # Allocators of zlib streams

A stream names two functions with which zlib allocates and frees, and a value to
pass to them. The wrapper around the four Init functions moves guest functions
into an object of its own and puts host functions in their place, which run the
guest's on a fiber. It takes whatever it finds in the stream for the guest's: its
own functions and zlib's defaults are left there by an earlier Init, and nothing
is moved at all while one of the functions is null. What zlib calls is host code,
and what the fibers run is the guest's, as long as the guest stores all three
fields, or two null functions, ahead of every Init and none after it.

What zlib does is assumed: Init replaces null functions by its own, and the calls
that it makes on a stream read the fields of that moment. Which calls it makes is
part of the event. An allocator of the guest does not itself work on the stream.
-/
namespace Sober.Zlib
open Transition

abbrev Address := BitVec 64

inductive Routine where
  | guest (address : Address)
  | zallocCaller
  | zfreeCaller
  /-- The defaults of zlib. -/
  | zcalloc
  | zcfree
  deriving DecidableEq, Repr

def Routine.IsHost (routine : Routine) : Prop := ∀ address, routine ≠ .guest address

/-- What the third field can hold: the guest's value, the null that zlib stores
with its own allocator, or a wrapper. -/
inductive OpaqueValue where
  | guest (value : Address)
  | null
  | wrapper (index : ℕ)
  deriving DecidableEq, Repr

structure ZlibGuestWrapper where
  guestZalloc : Option Routine
  guestZfree : Option Routine
  guestOpaque : OpaqueValue
  needsCleanup : Bool

inductive StreamField where
  | zalloc
  | zfree
  deriving DecidableEq, Repr

structure ZStream where
  zalloc : Option Routine
  zfree : Option Routine
  opaqueData : OpaqueValue
  /-- An Init has succeeded and no End followed. -/
  initialised : Bool

def ZStream.field (stream : ZStream) : StreamField → Option Routine
  | .zalloc => stream.zalloc
  | .zfree => stream.zfree

/-- What the guest has last stored in the fields. -/
structure GuestFields where
  zalloc : Option Address
  zfree : Option Address
  opaqueData : Address

def GuestFields.field (fields : GuestFields) : StreamField → Option Address
  | .zalloc => fields.zalloc
  | .zfree => fields.zfree

/-- A call of zlib through a field: the code that it calls and, if that runs a
fiber, the routine and the value handed to it. -/
structure AllocatorCall where
  field : StreamField
  routine : Routine
  fiber : Option (Routine × OpaqueValue)
  stored : GuestFields

structure ZlibState where
  stream : ZStream
  wrappers : List ZlibGuestWrapper
  stored : GuestFields
  calls : List AllocatorCall

def ZlibState.initial (fields : GuestFields) : ZlibState where
  stream := ⟨fields.zalloc.map .guest, fields.zfree.map .guest, .guest fields.opaqueData, false⟩
  wrappers := []
  stored := fields
  calls := []

/-- A failed assertion, or an access that C leaves undefined. -/
inductive ZlibFault where
  | assertion
  | undefined
  deriving DecidableEq, Repr

/-- `reinterpret_cast<ZlibGuestWrapper*>(opaque)` with the assertion behind it. -/
def wrapperAt (wrappers : List ZlibGuestWrapper) :
    OpaqueValue → Except ZlibFault ZlibGuestWrapper
  | .wrapper index =>
    match wrappers[index]? with
    | some wrapper => .ok wrapper
    | none => .error .undefined
  | .null => .error .assertion
  | .guest value => if value = 0 then .error .assertion else .error .undefined

/-- The routine that a caller runs: the one of its wrapper, which must not be null. -/
def callerRoutine (guestRoutine : ZlibGuestWrapper → Option Routine)
    (wrappers : List ZlibGuestWrapper) (data : OpaqueValue) :
    Except ZlibFault (Routine × OpaqueValue) :=
  (wrapperAt wrappers data).bind fun wrapper =>
    match guestRoutine wrapper with
    | none => .error .assertion
    | some routine => .ok (routine, wrapper.guestOpaque)

def zallocCaller := callerRoutine ZlibGuestWrapper.guestZalloc
def zfreeCaller := callerRoutine ZlibGuestWrapper.guestZfree

def patchZStream (s : ZlibState) : ZlibState :=
  if s.stream.zalloc.isNone || s.stream.zfree.isNone then s
  else { s with
    stream := { s.stream with
      zalloc := some .zallocCaller
      zfree := some .zfreeCaller
      opaqueData := .wrapper s.wrappers.length }
    wrappers := s.wrappers ++ [⟨s.stream.zalloc, s.stream.zfree, s.stream.opaqueData, false⟩] }

/-- The wrapper is not freed. -/
def cleanupZStream (s : ZlibState) : ZlibState := s

/-- The defaults that Init stores for null functions. -/
def ZStream.withDefaults (stream : ZStream) : ZStream :=
  let stream := if stream.zalloc.isNone then
    { stream with zalloc := some .zcalloc, opaqueData := .null } else stream
  if stream.zfree.isNone then { stream with zfree := some .zcfree } else stream

def ZlibState.record (s : ZlibState) (field : StreamField) (routine : Routine)
    (fiber : Option (Routine × OpaqueValue)) : ZlibState :=
  { s with calls := s.calls ++ [⟨field, routine, fiber, s.stored⟩] }

def callField (field : StreamField) (s : ZlibState) : Except ZlibFault ZlibState :=
  match s.stream.field field with
  | none => .error .undefined
  | some .zallocCaller => (zallocCaller s.wrappers s.stream.opaqueData).map fun fiber =>
    s.record field .zallocCaller (some fiber)
  | some .zfreeCaller => (zfreeCaller s.wrappers s.stream.opaqueData).map fun fiber =>
    s.record field .zfreeCaller (some fiber)
  | some routine => .ok (s.record field routine none)

def callFields : List StreamField → ZlibState → Except ZlibFault ZlibState
  | [], s => .ok s
  | field :: fields, s => (callField field s).bind (callFields fields)

def ZStream.mark (stream : ZStream) (initialised : Bool) : ZStream :=
  { stream with initialised := initialised }

/-- The stream while an Init that took it works on it. -/
def ZlibState.begun (s : ZlibState) (initialised : Bool) : ZlibState :=
  { s with stream := s.stream.withDefaults.mark initialised }

/-- How an Init ends: it rejects the version before it looks at the stream, or it
makes calls and fails or succeeds. -/
inductive InitOutcome where
  | rejected
  | failed (fields : List StreamField)
  | succeeded (fields : List StreamField)

def zlibInit (s : ZlibState) : InitOutcome → Except ZlibFault ZlibState
  | .rejected => .ok s
  | .failed fields => callFields fields (s.begun false)
  | .succeeded fields => callFields fields (s.begun true)

/-- The functions check the stream first and do nothing with one that has no state
or a null function. -/
def ZStream.usable (stream : ZStream) : Bool :=
  stream.initialised && stream.zalloc.isSome && stream.zfree.isSome

inductive ZlibEvent where
  | assignZalloc (function : Option Address)
  | assignZfree (function : Option Address)
  | assignOpaque (value : Address)
  /-- Any of the four Init functions. -/
  | init (outcome : InitOutcome)
  /-- `deflate`, `inflate` or a Reset. -/
  | process (fields : List StreamField)
  /-- `deflateEnd` or `inflateEnd` -/
  | finish (fields : List StreamField)

def ZlibState.finished (s : ZlibState) : ZlibState := { s with stream := s.stream.mark false }

def step (s : ZlibState) : ZlibEvent → Except ZlibFault ZlibState
  | .assignZalloc function => .ok { s with
      stream := { s.stream with zalloc := function.map .guest }
      stored := { s.stored with zalloc := function } }
  | .assignZfree function => .ok { s with
      stream := { s.stream with zfree := function.map .guest }
      stored := { s.stored with zfree := function } }
  | .assignOpaque value => .ok { s with
      stream := { s.stream with opaqueData := .guest value }
      stored := { s.stored with opaqueData := value } }
  | .init outcome => zlibInit (patchZStream s) outcome
  | .process fields => if s.stream.usable then callFields fields s else .ok s
  | .finish fields =>
    let s := cleanupZStream s
    if s.stream.usable then (callFields fields s).map ZlibState.finished else .ok s

/-- Host code is called, and what it runs on a fiber is the function that the guest
has stored in the same field, on the value that it has stored. -/
structure AllocatorCall.Sound (call : AllocatorCall) : Prop where
  host : call.routine.IsHost
  fiber : ∀ run ∈ call.fiber, ∃ address, call.stored.field call.field = some address ∧
    run = (.guest address, .guest call.stored.opaqueData)

/-- The stream is as the guest prepared it: two functions and a value of its own, or
two null functions. -/
def ZlibState.Prepared (s : ZlibState) : Prop :=
  (s.stream.zalloc = none ∧ s.stream.zfree = none) ∨
    ∃ zalloc zfree value, s.stream.zalloc = some (.guest zalloc) ∧
      s.stream.zfree = some (.guest zfree) ∧ s.stream.opaqueData = .guest value

/-- The fields are stored while the stream is not in use, and all before an Init. -/
def Disciplined (s : ZlibState) : ZlibEvent → Prop
  | .assignZalloc _ => s.stream.initialised = false
  | .assignZfree _ => s.stream.initialised = false
  | .assignOpaque _ => s.stream.initialised = false
  | .init _ => s.Prepared
  | _ => True

inductive ZlibState.Ready (s : ZlibState) : Prop
  | guest (index : ℕ) (zalloc zfree : Address) (hzalloc : s.stream.zalloc = some .zallocCaller)
      (hzfree : s.stream.zfree = some .zfreeCaller)
      (hdata : s.stream.opaqueData = .wrapper index)
      (hwrapper : s.wrappers[index]? = some
        ⟨some (.guest zalloc), some (.guest zfree), .guest s.stored.opaqueData, false⟩)
      (hstored : s.stored.zalloc = some zalloc ∧ s.stored.zfree = some zfree)
  | host (hzalloc : s.stream.zalloc = some .zcalloc) (hzfree : s.stream.zfree = some .zcfree)
      (hdata : s.stream.opaqueData = .null)

structure ZlibState.Inv (s : ZlibState) : Prop where
  zalloc : ∀ address, s.stream.zalloc = some (.guest address) → s.stored.zalloc = some address
  zfree : ∀ address, s.stream.zfree = some (.guest address) → s.stored.zfree = some address
  opaqueData : ∀ value, s.stream.opaqueData = .guest value → s.stored.opaqueData = value
  ready : s.stream.initialised = true → s.Ready
  calls : ∀ call ∈ s.calls, call.Sound

section Calls
variable {s : ZlibState}

theorem AllocatorCall.sound_of_host {field : StreamField} {routine : Routine}
    {stored : GuestFields} (h : routine.IsHost) :
    AllocatorCall.Sound ⟨field, routine, none, stored⟩ where
  host := h
  fiber := by
    rintro run ⟨⟩

theorem ZlibState.Ready.callField_sound (h : s.Ready) (field : StreamField) :
    ∃ routine fiber, AllocatorCall.Sound ⟨field, routine, fiber, s.stored⟩ ∧
      callField field s = .ok (s.record field routine fiber) := by
  cases h with
  | guest index zalloc zfree hzalloc hzfree hdata hwrapper hstored =>
    cases field with
    | zalloc =>
      refine ⟨.zallocCaller, some (.guest zalloc, .guest s.stored.opaqueData), ⟨?_, ?_⟩, ?_⟩
      · rintro address ⟨⟩
      · rintro run ⟨⟩
        exact ⟨zalloc, hstored.1, rfl⟩
      · simp only [callField, ZStream.field, hzalloc, zallocCaller, callerRoutine, hdata,
          wrapperAt, hwrapper, Except.bind, Except.map]
    | zfree =>
      refine ⟨.zfreeCaller, some (.guest zfree, .guest s.stored.opaqueData), ⟨?_, ?_⟩, ?_⟩
      · rintro address ⟨⟩
      · rintro run ⟨⟩
        exact ⟨zfree, hstored.2, rfl⟩
      · simp only [callField, ZStream.field, hzfree, zfreeCaller, callerRoutine, hdata,
          wrapperAt, hwrapper, Except.bind, Except.map]
  | host hzalloc hzfree hdata =>
    cases field with
    | zalloc =>
      refine ⟨.zcalloc, none, AllocatorCall.sound_of_host (by rintro address ⟨⟩), ?_⟩
      simp only [callField, ZStream.field, hzalloc]
    | zfree =>
      refine ⟨.zcfree, none, AllocatorCall.sound_of_host (by rintro address ⟨⟩), ?_⟩
      simp only [callField, ZStream.field, hzfree]

theorem ZlibState.Ready.of_eq {s' : ZlibState} (h : s.Ready)
    (hzalloc : s'.stream.zalloc = s.stream.zalloc) (hzfree : s'.stream.zfree = s.stream.zfree)
    (hdata : s'.stream.opaqueData = s.stream.opaqueData) (hwrappers : s'.wrappers = s.wrappers)
    (hstored : s'.stored = s.stored) : s'.Ready := by
  cases h with
  | guest index zalloc zfree h₁ h₂ h₃ h₄ h₅ =>
    exact .guest index zalloc zfree (hzalloc.trans h₁) (hzfree.trans h₂) (hdata.trans h₃)
      (by rw [hwrappers, hstored, h₄]) (by rwa [hstored])
  | host h₁ h₂ h₃ => exact .host (hzalloc.trans h₁) (hzfree.trans h₂) (hdata.trans h₃)

/-- Whatever zlib calls on such a stream, each call is sound and nothing else changes. -/
theorem ZlibState.Ready.callFields_sound (h : s.Ready) (fields : List StreamField) :
    ∃ calls : List AllocatorCall, (∀ call ∈ calls, call.Sound) ∧
      callFields fields s = .ok { s with calls := s.calls ++ calls } := by
  induction fields generalizing s with
  | nil => exact ⟨[], by simp, by simp only [callFields, List.append_nil]⟩
  | cons field fields ih =>
    obtain ⟨routine, fiber, hsound, hcall⟩ := h.callField_sound field
    have hready : (s.record field routine fiber).Ready := h.of_eq rfl rfl rfl rfl rfl
    obtain ⟨calls, hcalls, hrest⟩ := ih hready
    refine ⟨⟨field, routine, fiber, s.stored⟩ :: calls, ?_, ?_⟩
    · exact List.forall_mem_cons.mpr ⟨hsound, hcalls⟩
    rw [callFields, hcall, Except.bind, hrest]
    simp only [ZlibState.record, List.append_assoc, List.singleton_append]

/-- No field of such a stream is the guest's own. -/
theorem ZlibState.Ready.not_guest (h : s.Ready) :
    (∀ field address, s.stream.field field ≠ some (.guest address)) ∧
      ∀ value, s.stream.opaqueData ≠ .guest value := by
  cases h with
  | guest index zalloc zfree hzalloc hzfree hdata hwrapper hstored =>
    constructor
    · rintro (_ | _) <;> simp [ZStream.field, hzalloc, hzfree]
    · simp [hdata]
  | host hzalloc hzfree hdata =>
    constructor
    · rintro (_ | _) <;> simp [ZStream.field, hzalloc, hzfree]
    · simp [hdata]

theorem ZlibState.Ready.inv (h : s.Ready) (hcalls : ∀ call ∈ s.calls, call.Sound) : s.Inv where
  zalloc address hzalloc := absurd hzalloc (h.not_guest.1 .zalloc address)
  zfree address hzfree := absurd hzfree (h.not_guest.1 .zfree address)
  opaqueData value hdata := absurd hdata (h.not_guest.2 value)
  ready _ := h
  calls := hcalls

theorem ZlibState.Ready.callFields_inv (h : s.Ready) (hcalls : ∀ call ∈ s.calls, call.Sound)
    (fields : List StreamField) : ∃ s', callFields fields s = .ok s' ∧ s'.Ready ∧ s'.Inv := by
  obtain ⟨calls, hsound, hstep⟩ := h.callFields_sound fields
  have hready : ({ s with calls := s.calls ++ calls } : ZlibState).Ready :=
    h.of_eq rfl rfl rfl rfl rfl
  refine ⟨_, hstep, hready, hready.inv ?_⟩
  exact List.forall_mem_append.mpr ⟨hcalls, hsound⟩

end Calls

section Init
variable {s : ZlibState}

theorem patchZStream_of_null (h : s.stream.zalloc = none) : patchZStream s = s := by
  simp [patchZStream, h]

theorem patchZStream_of_guest {zalloc zfree : Address}
    (hzalloc : s.stream.zalloc = some (.guest zalloc))
    (hzfree : s.stream.zfree = some (.guest zfree)) :
    patchZStream s = { s with
      stream := ⟨some .zallocCaller, some .zfreeCaller, .wrapper s.wrappers.length,
        s.stream.initialised⟩
      wrappers := s.wrappers ++
        [⟨some (.guest zalloc), some (.guest zfree), s.stream.opaqueData, false⟩] } := by
  simp only [patchZStream, hzalloc, hzfree, Option.isNone_some, Bool.or_self, Bool.false_eq_true,
    if_false]

/-- The two functions of the guest are moved into a wrapper. -/
theorem ZlibState.Inv.ready_patchZStream (hinv : s.Inv) {zalloc zfree value : Address}
    (hzalloc : s.stream.zalloc = some (.guest zalloc))
    (hzfree : s.stream.zfree = some (.guest zfree))
    (hdata : s.stream.opaqueData = .guest value) : (patchZStream s).Ready := by
  rw [patchZStream_of_guest hzalloc hzfree]
  apply ZlibState.Ready.guest s.wrappers.length zalloc zfree rfl rfl rfl
  · rw [List.getElem?_concat_length, hdata, hinv.opaqueData value hdata]
  · exact ⟨hinv.zalloc zalloc hzalloc, hinv.zfree zfree hzfree⟩

/-- On a prepared stream an Init works with host code. -/
theorem ZlibState.Inv.ready_init (hinv : s.Inv) (hprepared : s.Prepared) (initialised : Bool) :
    ((patchZStream s).begun initialised).Ready := by
  rcases hprepared with ⟨hzalloc, hzfree⟩ | ⟨zalloc, zfree, value, hzalloc, hzfree, hdata⟩
  · rw [patchZStream_of_null hzalloc]
    apply ZlibState.Ready.host
    all_goals simp [ZlibState.begun, ZStream.withDefaults, ZStream.mark, hzalloc, hzfree]
  · apply (hinv.ready_patchZStream hzalloc hzfree hdata).of_eq
    all_goals rw [patchZStream_of_guest hzalloc hzfree]
    all_goals rfl

theorem zlibInit_spec (hinv : s.Inv) (hprepared : s.Prepared) (outcome : InitOutcome) :
    ∃ s', zlibInit (patchZStream s) outcome = .ok s' ∧ s'.Inv := by
  have hcalls : ∀ call ∈ (patchZStream s).calls, call.Sound := by
    rw [patchZStream]
    split_ifs
    · exact hinv.calls
    · exact hinv.calls
  cases outcome with
  | rejected =>
    refine ⟨patchZStream s, rfl, ?_⟩
    rcases hprepared with ⟨hzalloc, -⟩ | ⟨zalloc, zfree, value, hzalloc, hzfree, hdata⟩
    · rwa [patchZStream_of_null hzalloc]
    · exact (hinv.ready_patchZStream hzalloc hzfree hdata).inv hcalls
  | failed fields =>
    obtain ⟨s', hstep, -, hinv'⟩ := (hinv.ready_init hprepared false).callFields_inv hcalls fields
    exact ⟨s', hstep, hinv'⟩
  | succeeded fields =>
    obtain ⟨s', hstep, -, hinv'⟩ := (hinv.ready_init hprepared true).callFields_inv hcalls fields
    exact ⟨s', hstep, hinv'⟩

end Init

theorem ZStream.initialised_of_usable {stream : ZStream} (h : stream.usable = true) :
    stream.initialised = true := by
  simp only [ZStream.usable, Bool.and_eq_true] at h
  exact h.1.1

/-- A step of a disciplined guest does not fault and keeps the invariant. -/
theorem step_spec {s : ZlibState} (hinv : s.Inv) {e : ZlibEvent} (h : Disciplined s e) :
    ∃ s', step s e = .ok s' ∧ s'.Inv := by
  have hidle : ∀ {b : Bool} {P : Prop}, b = false → b = true → P := by
    rintro b P rfl ⟨⟩
  cases e with
  | assignZalloc function =>
    refine ⟨_, rfl, ⟨?_, hinv.zfree, hinv.opaqueData, hidle h, hinv.calls⟩⟩
    intro address haddress
    simpa using haddress
  | assignZfree function =>
    refine ⟨_, rfl, ⟨hinv.zalloc, ?_, hinv.opaqueData, hidle h, hinv.calls⟩⟩
    intro address haddress
    simpa using haddress
  | assignOpaque value =>
    refine ⟨_, rfl, ⟨hinv.zalloc, hinv.zfree, ?_, hidle h, hinv.calls⟩⟩
    rintro value' ⟨⟩
    rfl
  | init outcome => exact zlibInit_spec hinv h outcome
  | process fields =>
    rw [step]
    by_cases husable : s.stream.usable = true
    · have hready := hinv.ready (ZStream.initialised_of_usable husable)
      obtain ⟨s', hstep, -, hinv'⟩ := hready.callFields_inv hinv.calls fields
      exact ⟨s', by rw [if_pos husable, hstep], hinv'⟩
    · exact ⟨s, if_neg husable, hinv⟩
  | finish fields =>
    rw [step, cleanupZStream]
    by_cases husable : s.stream.usable = true
    · have hready := hinv.ready (ZStream.initialised_of_usable husable)
      obtain ⟨s', hstep, hready', hinv'⟩ := hready.callFields_inv hinv.calls fields
      refine ⟨s'.finished, ?_, ?_⟩
      · rw [if_pos husable, hstep]
        rfl
      · exact ZlibState.Ready.inv (hready'.of_eq rfl rfl rfl rfl rfl) hinv'.calls
    · exact ⟨s, if_neg husable, hinv⟩

theorem ZlibState.Inv.initial (fields : GuestFields) : (ZlibState.initial fields).Inv where
  zalloc address h := by simpa [ZlibState.initial] using h
  zfree address h := by simpa [ZlibState.initial] using h
  opaqueData value h := by
    cases h
    rfl
  ready := by
    rintro ⟨⟩
  calls := by
    rintro call ⟨⟩

/-- Let the guest store all three fields, or two null functions, ahead of every Init
and nothing while the stream is in use. Then every function that zlib calls is host
code, and every routine run on a fiber is the one that the guest has stored, on the
value that it has stored, however often the stream is initialised again; and no
call of zlib fails an assertion. -/
theorem zlib_allocators_sound (fields : GuestFields) (events : List ZlibEvent) (s : ZlibState)
    (hrun : Run step Disciplined (.initial fields) events s) :
    (∀ call ∈ s.calls, call.Sound) ∧ ∀ e, Disciplined s e → ∃ s', step s e = .ok s' := by
  have hinv : s.Inv := by
    apply hrun.invariant _ (ZlibState.Inv.initial fields)
    intro s e s' hinv hallowed hstep
    obtain ⟨s'', hstep', hinv'⟩ := step_spec hinv hallowed
    rw [hstep, Except.ok.injEq] at hstep'
    rwa [hstep']
  refine ⟨hinv.calls, fun e hallowed => ?_⟩
  obtain ⟨s', hstep, -⟩ := step_spec hinv hallowed
  exact ⟨s', hstep⟩

def guestFields : GuestFields := ⟨some 0x4000, some 0x4100, 0x8000⟩

/-- Three uses of one stream: with functions of the guest, with others of the guest in
an Init that fails, and with null functions. -/
def preparedEvents : List ZlibEvent :=
  [.init (.succeeded [.zalloc, .zalloc]), .process [.zalloc], .finish [.zfree, .zfree],
    .assignZalloc (some 0x4200), .assignZfree (some 0x4300), .assignOpaque 0x9000,
    .init (.failed [.zalloc, .zfree]), .assignZalloc none, .assignZfree none,
    .init (.succeeded [.zalloc]), .finish [.zfree]]

theorem zlib_allocators_sound_prepared :
    ∃ s, Run step Disciplined (.initial guestFields) preparedEvents s ∧ s.calls.length = 9 ∧
      ∀ call ∈ s.calls, call.Sound := by
  have hrun : Run step Disciplined (.initial guestFields) preparedEvents _ :=
    .cons (.inr ⟨_, _, _, rfl, rfl, rfl⟩) rfl (.cons trivial rfl (.cons trivial rfl
      (.cons rfl rfl (.cons rfl rfl (.cons rfl rfl
        (.cons (.inr ⟨_, _, _, rfl, rfl, rfl⟩) rfl (.cons rfl rfl (.cons rfl rfl
          (.cons (.inl ⟨rfl, rfl⟩) rfl (.cons trivial rfl (.nil _)))))))))))
  exact ⟨_, hrun, rfl, (zlib_allocators_sound guestFields preparedEvents _ hrun).1⟩

/-- Initialised again after its end, a stream has the host's own functions taken for
the guest's. With one null function the other is called by zlib itself. -/
theorem zlib_allocators_confused :
    (∃ s call, Run step (fun _ _ => True) (.initial guestFields)
        [.init (.succeeded [.zalloc]), .finish [.zfree], .init (.succeeded [.zalloc])] s ∧
      call ∈ s.calls ∧ call.fiber = some (.zallocCaller, .wrapper 0) ∧ ¬ call.Sound) ∧
    ∃ s call, Run step (fun _ _ => True) (.initial ⟨some 0x4000, none, 0⟩)
        [.init (.succeeded [.zalloc])] s ∧
      call ∈ s.calls ∧ call.routine = .guest 0x4000 ∧ ¬ call.Sound := by
  constructor
  · have hrun : Run step (fun _ _ => True) (.initial guestFields)
        [.init (.succeeded [.zalloc]), .finish [.zfree], .init (.succeeded [.zalloc])] _ :=
      .cons trivial rfl (.cons trivial rfl (.cons trivial rfl (.nil _)))
    refine ⟨_, _, hrun, .tail _ (.tail _ (.head _)), rfl, fun hsound => ?_⟩
    obtain ⟨address, -, hfiber⟩ := hsound.fiber _ rfl
    cases hfiber
  · have hrun : Run step (fun _ _ => True) (.initial ⟨some 0x4000, none, 0⟩)
        [.init (.succeeded [.zalloc])] _ := .cons trivial rfl (.nil _)
    refine ⟨_, _, hrun, .head _, rfl, fun hsound => ?_⟩
    exact hsound.host 0x4000 rfl

end Sober.Zlib
