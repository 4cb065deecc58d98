import Mathlib.Data.Finmap
import Sober.Trampoline.Layout

/-! # Libraries of native symbols

Start-up gives every shimmed library a `soinfo` of its own and enters its
symbols there: data under their value, functions under the code address of a
fresh registry entry. The GL and Vulkan functions that the guest asks for by
name get registry entries without a function.
-/
namespace Sober
open Machine

/-- `dynamic_symbol`: a datum has no argument types. -/
structure DynamicSymbol where
  name : String
  value : Word
  argTypes : List FunctionArgumentType
  isEllipsisFunction : Bool
  hasExecutionSideEffects : Bool

/-- `deferred_symbol`: `value` is the address of a function pointer. -/
structure DeferredSymbol where
  name : String
  value : Word
  argTypes : List FunctionArgumentType

structure ElfSym where
  stName : BitVec 32
  stInfo : BitVec 8
  stOther : BitVec 8
  stShndx : BitVec 16
  stValue : Word
  stSize : Word

structure SymbolSoinfo where
  soname : String
  loadBias : Word
  bucket : Word
  isGnuHash : Bool
  customSymbols : Finmap (fun _ : String => ElfSym)

def ElfSym.custom (address : Word) : ElfSym where
  stName := 0
  stInfo := 1 <<< 4
  stOther := 0
  stShndx := -1
  stValue := address
  stSize := 0

namespace SymbolSoinfo

def addCustomSymbol (si : SymbolSoinfo) (name : String) (address : Word) : SymbolSoinfo :=
  { si with customSymbols := si.customSymbols.insert name (.custom address) }

/-- `lookup` searches the hash tables of a library that was loaded from a file. -/
def findSymbolByName (lookup : String → Option ElfSym) (si : SymbolSoinfo) (name : String) :
    Option ElfSym :=
  match si.customSymbols.lookup name with
  | some symbol => some symbol
  | none => if si.bucket ≠ 0 ∨ si.isGnuHash then lookup name else none

/-- `resolver` calls the resolver of an indirect function. -/
def resolveSymbolAddress (resolver : Word → Word) (si : SymbolSoinfo) (symbol : ElfSym) : Word :=
  if symbol.stInfo &&& 0xF = 10 then resolver (symbol.stValue + si.loadBias)
  else symbol.stValue + si.loadBias

end SymbolSoinfo

inductive SymsFault where
  | libraryNameTooLong
  | assertion
  | threw (e : CreateException)
  | outOfBounds

def pathMax : ℕ := 4096

/-- The memory of a new `soinfo` is cleared. -/
def createEmptySoinfo (name : String) : Except SymsFault SymbolSoinfo :=
  if name.utf8ByteSize ≥ pathMax then .error .libraryNameTooLong
  else .ok ⟨name, 0, 0, false, ∅⟩

/-- `trampoline_create` with the entry it returns a reference to. -/
def createTrampoline (c : CreateArgs) (s : TrampolineState) :
    Except SymsFault (Trampoline × TrampolineState) :=
  match trampolineCreate c s with
  | .threw e _ => .error (.threw e)
  | .outOfBounds => .error .outOfBounds
  | .returned s' =>
    match s'.trampolines.getLast? with
    | none => .error .outOfBounds
    | some t => .ok (t, s')

/-- The creation a symbol of an `add_library` call asks for. -/
def DynamicSymbol.createArgs? (shim : DynamicSymbol) (nativeFunc : Word) : Option CreateArgs :=
  if h : shim.argTypes = [] then none
  else some ⟨shim.name, nativeFunc, ⟨shim.argTypes, h⟩, shim.isEllipsisFunction,
    shim.hasExecutionSideEffects⟩

def DeferredSymbol.createArgs? (sym : DeferredSymbol) : Option CreateArgs :=
  if h : sym.argTypes = [] then none
  else some ⟨sym.name, 0, ⟨sym.argTypes, h⟩, false, false⟩

def addSymbols : List DynamicSymbol → SymbolSoinfo → TrampolineState →
    Except SymsFault (SymbolSoinfo × TrampolineState)
  | [], si, s => .ok (si, s)
  | shim :: rest, si, s =>
    match shim.createArgs? shim.value with
    | none => addSymbols rest (si.addCustomSymbol shim.name shim.value) s
    | some c =>
      match createTrampoline c s with
      | .error e => .error e
      | .ok (t, s') => addSymbols rest (si.addCustomSymbol shim.name t.guestTrampoline) s'

structure SymsState where
  trampoline : TrampolineState
  solist : List SymbolSoinfo
  symbolsWithTrampolineIds : List (DeferredSymbol × BitVec 32)
  procToTrampoline : Finmap (fun _ : String => BitVec 32)

def SymsState.initial (s : TrampolineState) : SymsState := ⟨s, [], [], ∅⟩

def addLibrary (name : String) (symbols : List DynamicSymbol) (g : SymsState) :
    Except SymsFault SymsState :=
  match createEmptySoinfo name with
  | .error e => .error e
  | .ok si =>
    match addSymbols symbols si g.trampoline with
    | .error e => .error e
    | .ok (si', s') => .ok { g with trampoline := s', solist := g.solist ++ [si'] }

def createExtraGlTrampolines : List DeferredSymbol → SymsState → Except SymsFault SymsState
  | [], g => .ok g
  | sym :: rest, g =>
    match sym.createArgs? with
    | none => .error .assertion
    | some c =>
      match createTrampoline c g.trampoline with
      | .error e => .error e
      | .ok (t, s') => createExtraGlTrampolines rest { g with
          trampoline := s'
          symbolsWithTrampolineIds := g.symbolsWithTrampolineIds ++ [(sym, t.id)] }

/-- `emplace` keeps the entry that is there. -/
def emplace {β : Type} (name : String) (value : β) (m : Finmap (fun _ : String => β)) :
    Finmap (fun _ : String => β) :=
  if name ∈ m then m else m.insert name value

section Emplace
variable {β : Type} {name x : String} {value found : β} {m : Finmap (fun _ : String => β)}

theorem lookup_emplace (h : (emplace name value m).lookup x = some found) :
    (x = name ∧ found = value) ∨ m.lookup x = some found := by
  rw [emplace] at h
  split_ifs at h
  · exact .inr h
  · by_cases hx : x = name
    · subst hx
      rw [Finmap.lookup_insert, Option.some.injEq] at h
      exact .inl ⟨rfl, h.symm⟩
    · rw [Finmap.lookup_insert_of_ne _ hx] at h
      exact .inr h

theorem mem_emplace (h : x = name ∨ x ∈ m) : x ∈ emplace name value m := by
  rw [emplace]
  split_ifs with hname
  · rcases h with rfl | h
    · exact hname
    · exact h
  · exact Finmap.mem_insert.mpr h

end Emplace

def createVulkanTrampolines : List DynamicSymbol → SymsState → Except SymsFault SymsState
  | [], g => .ok g
  | sym :: rest, g =>
    match sym.createArgs? 0 with
    | none => .error .assertion
    | some c =>
      match createTrampoline c g.trampoline with
      | .error e => .error e
      | .ok (t, s') => createVulkanTrampolines rest { g with
          trampoline := s'
          procToTrampoline :=
            emplace sym.name (t.id + trampolineIdOffset) g.procToTrampoline }

inductive SymsOp where
  | addLibrary (name : String) (symbols : List DynamicSymbol)
  | createExtraGlTrampolines (extraGlSymbols : List DeferredSymbol)
  | createVulkanTrampolines (actualSymbols : List DynamicSymbol)

def SymsOp.exec : SymsOp → SymsState → Except SymsFault SymsState
  | .addLibrary name symbols => Sober.addLibrary name symbols
  | .createExtraGlTrampolines symbols => Sober.createExtraGlTrampolines symbols
  | .createVulkanTrampolines symbols => Sober.createVulkanTrampolines symbols

def symsRun : List SymsOp → SymsState → Except SymsFault SymsState
  | [], g => .ok g
  | op :: ops, g =>
    match op.exec g with
    | .error e => .error e
    | .ok g' => symsRun ops g'

end Sober
