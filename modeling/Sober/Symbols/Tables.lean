import Sober.Graph.Reach
import Sober.Trampoline.Code

/-! # The registered symbols and the functions behind them

A symbol table gives each function a name, its types and perhaps the tag that
keeps it out of compiled code. Whether a function can run guest code is not in
the tables: it follows from what the function calls, through the linker, the
libc shim, zlib or the JNI methods.
-/
namespace Sober
open Machine

inductive JniReceiver where
  | member
  | nonvirtual
  | static
  deriving DecidableEq, Repr

/-- The result types of the JNI call functions, in the order of their table. -/
inductive JniType where
  | object
  | boolean
  | byte
  | char
  | short
  | int
  | long
  | float
  | double
  | void
  deriving DecidableEq, Repr

inductive StreamFunction where
  | deflate
  | deflateEnd
  | deflateInit
  | deflateInit2
  | deflateReset
  | inflate
  | inflateEnd
  | inflateInit
  | inflateInit2
  | inflateReset
  | inflateReset2
  deriving DecidableEq, Repr

/-- Native functions from which a fiber on the calling thread may be run. Every
other function of the host is `other`, under its name. -/
inductive NativeFunction where
  | linkerFuncCaller
  | linkerPhdrCbCaller
  | pthreadCaller
  | atexitRoutine
  | bsearchCompar
  | qsortCompar
  | zallocCaller
  | zfreeCaller
  | run
  | callFunction
  | callArray
  | callConstructors
  | callDestructors
  | soinfoUnload
  | soinfoUnloadImpl
  | findLibrary
  | doDlopen
  | doDlclose
  | doDlIteratePhdr
  | dlopenExt
  | loaderDlopen
  | loaderAndroidDlopenExt
  | loaderDlclose
  | loaderDlIteratePhdr
  | linkerDlopen
  | androidDlopenExt
  | linkerDlclose
  | linkerDlIteratePhdr
  | cxaFinalize
  | bsearchImpl
  | qsortImpl
  | pthreadCleanupPopImpl
  | pthreadOnce
  | stream (f : StreamFunction)
  | showKeyboard
  | hideKeyboard
  | methodCallGeneric
  | callMethodV (receiver : JniReceiver) (type : JniType)
  | newObjectV
  | other (name : String)
  deriving DecidableEq, Repr

namespace NativeFunction

/-- The function constructs a fiber and runs a guest routine on it. -/
def runsFiber : NativeFunction → Bool
  | linkerFuncCaller | linkerPhdrCbCaller | pthreadCaller | atexitRoutine | bsearchCompar
  | qsortCompar | zallocCaller | zfreeCaller | run => true
  | _ => false

/-- The calls by which a function may come closer to a fiber. Host functions
that take a callback count as calling it. -/
def callees : NativeFunction → List NativeFunction
  | linkerFuncCaller | linkerPhdrCbCaller | pthreadCaller | atexitRoutine | bsearchCompar
  | qsortCompar | zallocCaller | zfreeCaller | run => []
  | callFunction => [linkerFuncCaller]
  | callArray => [callFunction]
  | callConstructors => [callConstructors, callFunction, callArray]
  | callDestructors => [callArray, callFunction]
  | soinfoUnloadImpl => [callDestructors, soinfoUnload]
  | soinfoUnload => [soinfoUnloadImpl]
  | findLibrary => [soinfoUnload]
  | doDlopen => [findLibrary, callConstructors]
  | doDlclose => [soinfoUnload]
  | doDlIteratePhdr => [linkerPhdrCbCaller]
  | dlopenExt => [doDlopen]
  | loaderDlopen => [dlopenExt]
  | loaderAndroidDlopenExt => [dlopenExt]
  | loaderDlclose => [doDlclose]
  | loaderDlIteratePhdr => [doDlIteratePhdr]
  | linkerDlopen => [loaderDlopen]
  | androidDlopenExt => [loaderAndroidDlopenExt]
  | linkerDlclose => [loaderDlclose]
  | linkerDlIteratePhdr => [loaderDlIteratePhdr]
  | cxaFinalize => [atexitRoutine]
  | bsearchImpl => [bsearchCompar]
  | qsortImpl => [qsortCompar]
  | pthreadCleanupPopImpl => [pthreadCaller]
  | pthreadOnce => [pthreadCaller]
  | stream _ => [zallocCaller, zfreeCaller]
  | showKeyboard => [run]
  | hideKeyboard => [run]
  | methodCallGeneric => [showKeyboard, hideKeyboard]
  | callMethodV _ _ => [methodCallGeneric]
  | newObjectV => [methodCallGeneric]
  | other _ => []

/-- The function can run a guest routine on the calling thread. -/
def CanRunGuest (f : NativeFunction) : Prop := Graph.Reaches callees runsFiber f

theorem search_eq_true_iff (f : NativeFunction) :
    Graph.search callees runsFiber 7 f = true ↔ f.CanRunGuest := by
  apply Graph.search_eq_true_iff
  intro g hg
  cases g with
  | stream s => cases hg
  | callMethodV receiver type => cases hg
  | other name => simp [callees]
  | _ => cases hg

instance : DecidablePred CanRunGuest := fun f => decidable_of_iff _ (search_eq_true_iff f)

theorem not_canRunGuest_other (name : String) : ¬ (other name).CanRunGuest := by
  rw [← search_eq_true_iff]
  exact Bool.false_ne_true

end NativeFunction

structure FunctionSymbol where
  name : String
  value : NativeFunction
  argTypes : FunctionTypes
  isEllipsisFunction : Bool
  hasExecutionSideEffects : Bool

namespace FunctionSymbol

def plain (name : String) (value : NativeFunction) (ret : FunctionArgumentType)
    (params : List FunctionArgumentType) : FunctionSymbol :=
  ⟨name, value, .of ret params, false, false⟩

/-- A symbol under the tag `HasExecutionSideEffects`. -/
def tagged (name : String) (value : NativeFunction) (ret : FunctionArgumentType)
    (params : List FunctionArgumentType) : FunctionSymbol :=
  ⟨name, value, .of ret params, false, true⟩

end FunctionSymbol

section Tables
open FunctionSymbol

def libdlSymbols : List FunctionSymbol :=
  [plain "__loader_android_get_LD_LIBRARY_PATH" (.other "__loader_android_get_LD_LIBRARY_PATH")
      .none [.pointer, .unsignedDoubleword],
    tagged "__loader_dlopen" .loaderDlopen .pointer [.pointer, .signedWord, .pointer],
    plain "__loader_dlerror" (.other "__loader_dlerror") .pointer [],
    plain "__loader_dlsym" (.other "__loader_dlsym") .pointer [.pointer, .pointer, .pointer],
    plain "__loader_dlvsym" (.other "__loader_dlvsym")
      .pointer [.pointer, .pointer, .pointer, .pointer],
    plain "__loader_dladdr" (.other "__loader_dladdr") .signedWord [.pointer, .pointer],
    plain "__loader_dlclose" .loaderDlclose .signedWord [.pointer],
    tagged "__loader_dl_iterate_phdr" .loaderDlIteratePhdr .signedWord [.pointer, .pointer],
    plain "__loader_android_get_LD_LIBRARY_PATH" (.other "__loader_android_get_LD_LIBRARY_PATH")
      .none [.pointer, .unsignedDoubleword],
    plain "__loader_android_update_LD_LIBRARY_PATH"
      (.other "__loader_android_update_LD_LIBRARY_PATH") .none [.pointer],
    plain "__loader_android_dlopen_ext" .loaderAndroidDlopenExt
      .pointer [.pointer, .signedWord, .pointer, .pointer],
    plain "__loader_android_get_application_target_sdk_version"
      (.other "__loader_android_get_application_target_sdk_version") .signedWord [],
    plain "__loader_android_handle_signal" (.other "__loader_android_handle_signal")
      .unsignedByte [.signedWord, .pointer, .pointer],
    plain "android_get_LD_LIBRARY_PATH" (.other "android_get_LD_LIBRARY_PATH")
      .none [.pointer, .unsignedDoubleword],
    tagged "dlopen" .linkerDlopen .pointer [.pointer, .signedWord],
    plain "dlerror" (.other "linker_dlerror") .pointer [],
    plain "dlsym" (.other "linker_dlsym") .pointer [.pointer, .pointer],
    plain "dlvsym" (.other "linker_dlvsym") .pointer [.pointer, .pointer, .pointer],
    plain "dladdr" (.other "linker_dladdr") .signedWord [.pointer, .pointer],
    plain "dlclose" .linkerDlclose .signedWord [.pointer],
    tagged "dl_iterate_phdr" .linkerDlIteratePhdr .signedWord [.pointer, .pointer],
    plain "android_dlopen_ext" .androidDlopenExt .pointer [.pointer, .signedWord, .pointer],
    plain "android_get_application_target_sdk_version"
      (.other "android_get_application_target_sdk_version") .signedWord [],
    plain "android_handle_signal" (.other "android_handle_signal")
      .unsignedByte [.signedWord, .pointer, .pointer]]

/-- The rows of the libc shim whose functions are not `other`. -/
def libcSymbols : List FunctionSymbol :=
  [plain "__cxa_finalize" .cxaFinalize .none [.pointer],
    tagged "bsearch" .bsearchImpl .pointer
      [.pointer, .pointer, .unsignedDoubleword, .unsignedDoubleword, .pointer],
    tagged "qsort" .qsortImpl .none
      [.pointer, .unsignedDoubleword, .unsignedDoubleword, .pointer],
    tagged "__pthread_cleanup_pop" .pthreadCleanupPopImpl .none [.pointer, .signedWord],
    tagged "pthread_once" .pthreadOnce .signedWord [.pointer, .pointer]]

def zlibSymbols : List FunctionSymbol :=
  [tagged "deflate" (.stream .deflate) .signedWord [.pointer, .signedWord],
    tagged "deflateEnd" (.stream .deflateEnd) .signedWord [.pointer],
    tagged "deflateInit_" (.stream .deflateInit) .signedWord
      [.pointer, .signedWord, .pointer, .signedWord],
    tagged "deflateInit2_" (.stream .deflateInit2) .signedWord
      [.pointer, .signedWord, .signedWord, .signedWord, .signedWord, .signedWord, .pointer,
        .signedWord],
    tagged "deflateReset" (.stream .deflateReset) .signedWord [.pointer],
    tagged "inflate" (.stream .inflate) .signedWord [.pointer, .signedWord],
    tagged "inflateEnd" (.stream .inflateEnd) .signedWord [.pointer],
    tagged "inflateInit_" (.stream .inflateInit) .signedWord [.pointer, .pointer, .signedWord],
    tagged "inflateInit2_" (.stream .inflateInit2) .signedWord
      [.pointer, .signedWord, .pointer, .signedWord],
    tagged "inflateReset" (.stream .inflateReset) .signedWord [.pointer],
    tagged "inflateReset2" (.stream .inflateReset2) .signedWord [.pointer, .signedWord],
    tagged "uncompress" (.other "uncompress") .signedWord
      [.pointer, .pointer, .pointer, .unsignedDoubleword],
    plain "adler32" (.other "adler32") .unsignedDoubleword
      [.unsignedDoubleword, .pointer, .unsignedWord],
    plain "crc32" (.other "crc32") .unsignedDoubleword
      [.unsignedDoubleword, .pointer, .unsignedWord],
    plain "zError" (.other "zError") .pointer [.signedWord],
    plain "zlibVersion" (.other "zlibVersion") .pointer []]

def JniType.name : JniType → String
  | .object => "Object"
  | .boolean => "Boolean"
  | .byte => "Byte"
  | .char => "Char"
  | .short => "Short"
  | .int => "Int"
  | .long => "Long"
  | .float => "Float"
  | .double => "Double"
  | .void => "Void"

def JniType.argumentType : JniType → FunctionArgumentType
  | .object => .pointer
  | .boolean => .unsignedByte
  | .byte => .signedByte
  | .char => .unsignedHalfword
  | .short => .signedHalfword
  | .int => .signedWord
  | .long => .signedDoubleword
  | .float => .singlePrecisionFp
  | .double => .doublePrecisionFp
  | .void => .none

def jniTypes : List JniType :=
  [.object, .boolean, .byte, .char, .short, .int, .long, .float, .double, .void]

/-- The call function of one receiver and result type that takes a `va_list`. -/
def callMethodVSymbol (receiver : JniReceiver) (type : JniType) : FunctionSymbol :=
  match receiver with
  | .member => plain ("Call" ++ type.name ++ "MethodV") (.callMethodV receiver type)
      type.argumentType [.pointer, .pointer, .pointer, .variadicList]
  | .nonvirtual => plain ("CallNonvirtual" ++ type.name ++ "MethodV") (.callMethodV receiver type)
      type.argumentType [.pointer, .pointer, .pointer, .pointer, .variadicList]
  | .static => plain ("CallStatic" ++ type.name ++ "MethodV") (.callMethodV receiver type)
      type.argumentType [.pointer, .pointer, .pointer, .variadicList]

/-- The rows of the JNI table whose functions are not `other`. -/
def jniEnvSymbols : List FunctionSymbol :=
  plain "NewObjectV" .newObjectV .pointer [.pointer, .pointer, .pointer, .variadicList] ::
    (jniTypes.map (callMethodVSymbol .member) ++ jniTypes.map (callMethodVSymbol .nonvirtual) ++
      jniTypes.map (callMethodVSymbol .static))

/-- The rows whose functions are written out; the other rows of the tables name
functions that are `other`. -/
def listedSymbols : List FunctionSymbol :=
  libdlSymbols ++ libcSymbols ++ zlibSymbols ++ jniEnvSymbols

/-- A collection of rows from the tables, in any order. -/
def FromTables (symbols : List FunctionSymbol) : Prop :=
  ∀ s ∈ symbols, s ∈ listedSymbols ∨ ∃ name, s.value = .other name

end Tables
end Sober
