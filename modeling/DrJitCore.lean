import DrJitCore.FindLibrary.Compare
import DrJitCore.FindLibrary.Select
import DrJitCore.Llvm.Core
import DrJitCore.Llvm.Lifecycle
import DrJitCore.Jit.Threads
import DrJitCore.Jit.Ids
import DrJitCore.Llvm.Ones
import DrJitCore.Jit.RefCounts
import DrJitCore.Jit.Windows
import DrJitCore.Llvm.Disasm
import DrJitCore.Resources.Pack
import DrJitCore.Jit.LeakReport
