import WinVpwn.Rust.Outcome
import WinVpwn.Rust.Relational
import WinVpwn.Rust.Word
import WinVpwn.Rust.BTreeMap
import WinVpwn.Lib.Interval
import WinVpwn.Lib.AddressSpace
import WinVpwn.Lib.FlatMemory
import WinVpwn.Lib.Registry
import WinVpwn.Lib.Numeral
import WinVpwn.Memory.Claims
import WinVpwn.Memory.Mmap
import WinVpwn.Memory.InsertOrder
import WinVpwn.Elf.Loader
import WinVpwn.Elf.LoadLoop
import WinVpwn.Elf.LoadElf
import WinVpwn.Elf.HeaderOrder
import WinVpwn.Elf.OverlapError
import WinVpwn.Elf.LoadError
import WinVpwn.Cpu.Unicorn
import WinVpwn.Vkernel.Context
import WinVpwn.Vkernel.Mem
import WinVpwn.Syscall.Dispatch
import WinVpwn.Trace.Batches
import WinVpwn.Syscall.Registration
import WinVpwn.Syscall.TraceComplete
import WinVpwn.Syscall.DispatchImpl
import WinVpwn.Syscall.SharedDispatch
import WinVpwn.Syscall.ProcessMachine
import WinVpwn.Vkernel.FlatGuest
import WinVpwn.Vkernel.GuestRun
import WinVpwn.Vkernel.FailedWrite
import WinVpwn.Vkernel.MapAnon
import WinVpwn.Vkernel.TopOfMemory
import WinVpwn.Syscall.Backends
import WinVpwn.Syscall.Final
import WinVpwn.Cpu.Vcpu
import WinVpwn.Cpu.PageRange
import WinVpwn.Cpu.Rounding
import WinVpwn.Cpu.MapElf
import WinVpwn.Cpu.LeastCover
import WinVpwn.Cpu.MapElfFailure
import WinVpwn.Cpu.Bookkeeping
import WinVpwn.Cpu.StartImage
import WinVpwn.Cpu.Events
import WinVpwn.Cpu.RunStory
import WinVpwn.Cpu.RunResult
import WinVpwn.Cpu.Lifetime
import WinVpwn.Cpu.Transparent
import WinVpwn.Cpu.TwoEngines
import WinVpwn.Cpu.Returns
import WinVpwn.Cpu.ReadBack
import WinVpwn.Python.RunElf
import WinVpwn.Python.TimeLimit
import WinVpwn.Python.Session
import WinVpwn.Python.Diagnosis
import WinVpwn.Python.ParseElf
import WinVpwn.Python.Cli
import WinVpwn.Python.ErrorText
import WinVpwn.Python.Inspect
import WinVpwn.Python.EngineSwap
import WinVpwn.Python.HeaderOrder
