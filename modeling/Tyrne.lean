import Tyrne.Cap.Handles
import Tyrne.Ipc.Conservation
import Tyrne.Ipc.Isolation
import Tyrne.Ipc.Provenance
import Tyrne.Ipc.Lifetimes
import Tyrne.Sched.Queue
import Tyrne.Syscall.UserAccess
import Tyrne.Sched.Scheduler
import Tyrne.Sched.Kernel
import Tyrne.Sched.Placement
import Tyrne.Sched.Delivery
import Tyrne.Syscall.Dispatch
import Tyrne.Mm.AddressSpace
import Tyrne.Bsp.Syscall
import Tyrne.Bsp.Runs
import Tyrne.Bsp.Wakeup
import Tyrne.Bsp.Activation
import Tyrne.Bsp.FailClosed
import Tyrne.Syscall.Console
import Tyrne.Library.SetAllocator
import Tyrne.Mm.Yield
import Tyrne.Bsp.Bindings
import Tyrne.Sched.Calls
import Tyrne.Library.Radix
import Tyrne.Bsp.Retry
import Tyrne.Mm.Source
import Tyrne.Bsp.Mapping
import Tyrne.Bsp.Isolation
import Tyrne.Bsp.Coherence
import Tyrne.Obj.TaskLoader
import Tyrne.Library.Span
import Tyrne.Bsp.Budget
import Tyrne.Obj.Preflight
import Tyrne.Hal.Timer
import Tyrne.Mm.Hint
import Tyrne.Obj.ArenaRuns
import Tyrne.Syscall.Words
import Tyrne.Obj.TaskCreate
import Tyrne.Bsp.Alias
import Tyrne.Syscall.Transfers
import Tyrne.Hal.TableWalk
import Tyrne.Bsp.MmuBootstrap
import Tyrne.Library.Rotation
import Tyrne.Bsp.Rollback
import Tyrne.Bsp.RoundRobin
import Tyrne.Syscall.Traps
import Tyrne.Syscall.Payload
import Tyrne.Library.Fifo
import Tyrne.Sched.QueueRuns
import Tyrne.Bsp.Loading
import Tyrne.Bsp.ProcessImage
import Tyrne.Bsp.UserCopies
import Tyrne.Bsp.UserImage
import Tyrne.Mm.Gated
import Tyrne.Mm.Contract
import Tyrne.Obj.Rollback
import Tyrne.TestHal.Mmu
import Tyrne.Bsp.MmuContract
import Tyrne.Library.Unwinding
import Tyrne.Library.Footprint
import Tyrne.Ipc.Confinement
import Tyrne.Library.A64
import Tyrne.Bsp.Vectors
import Tyrne.Library.Gic
import Tyrne.Bsp.Interrupts
import Tyrne.Bsp.Alarm
import Tyrne.Bsp.Trap
import Tyrne.Bsp.ContextSwitch
import Tyrne.Bsp.Boot
import Tyrne.Bsp.HardwareWalk
import Tyrne.Bsp.El0Reach
import Tyrne.Bsp.UserMemory
import Tyrne.Library.Returns
import Tyrne.Bsp.KernelMain
import Tyrne.Bsp.BringUp
