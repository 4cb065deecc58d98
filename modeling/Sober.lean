import Sober.Machine.Memory
import Sober.Abi.Convention
import Sober.Abi.VaList
import Sober.FunctionTraits
import Sober.Trampoline.Registry
import Sober.Trampoline.Code
import Sober.Trampoline.Layout
import Sober.Trampoline.Lookup
import Sober.Trampoline.Capacity
import Sober.Guest.State
import Sober.SupervisorCall.Dyncall
import Sober.SupervisorCall.Handler
import Sober.SupervisorCall.SlowPath
import Sober.SupervisorCall.FastCall
import Sober.SupervisorCall.FastPath
import Sober.SupervisorCall.Ellipsis
import Sober.SupervisorCall.VaArgs
import Sober.SupervisorCall.Dispatch
import Sober.Fiber.Scope
import Sober.Fiber.Execution
import Sober.Fiber.Nesting
import Sober.Fiber.Control
import Sober.Fiber.Exit
import Sober.Fiber.Reentry
import Sober.Graph.Reach
import Sober.Symbols.Tables
import Sober.Symbols.Callers
import Sober.Symbols.SideEffects
import Sober.Fiber.Stub
import Sober.Symbols.Library
import Sober.Symbols.Resolution
import Sober.Transition.Run
import Sober.Symbols.SelfCall
import Sober.Graphics.Lookup
import Sober.Graphics.Interception
import Sober.Graphics.CompiledCalls
import Sober.Heap.Ownership
import Sober.Pthread.State
import Sober.Pthread.Counting
import Sober.Pthread.Invariant
import Sober.Pthread.Steps
import Sober.Pthread.Contents
import Sober.Pthread.Refinement
import Sober.Pthread.RefCount
import Sober.Pthread.Values
import Sober.Pthread.Destructors
import Sober.Pthread.Deletion
import Sober.Audio.Interface
import Sober.Cookies.Jar
import Sober.Slots.Table
import Sober.Context.ProcessorIds
import Sober.Machine.Store
import Sober.Fiber.Steps
import Sober.Fiber.Invariance
import Sober.Fiber.Jump
import Sober.Fiber.Comparator
import Sober.Jni.Arrays
import Sober.Jni.Lengths
import Sober.Graphics.GlLookup
import Sober.Graphics.Instance
import Sober.Zlib.Stream
import Sober.Exclusive.Access
import Sober.Exclusive.Reservation
import Sober.Exclusive.Updates
import Sober.Linker.PackedRelocs
import Sober.Linker.Relocate
import Sober.Linker.Relocated
import Sober.Linker.HashTables
import Sober.Linker.Linking
import Sober.Ir.ConstantFolding
import Sober.Ir.DeadCode
import Sober.Ir.FoldStep
import Sober.Ir.FoldingLimits
import Sober.App.EventLoop
import Sober.App.Input
import Sober.App.Lifecycle
import Sober.Shim.Construction
import Sober.Shim.History
import Sober.Shim.Exclusion
import Sober.Shim.Race
import Sober.Shim.Once
