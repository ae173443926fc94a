import Tyrne.Mm.AddressSpace
import Tyrne.Sched.Kernel
import Tyrne.Syscall.Dispatch

/-!
# The syscall entry of the board

The trap handler builds the dispatch context from the bindings of the running task,
dispatches, and applies the effect: it writes the registers back, yields, or exits the
task. The system is the scheduled kernel together with the address spaces, memory and the
console; it moves by the bridge calls of kernel tasks and by syscalls.
-/

namespace Tyrne

structure System (AS : Type) where
  kernel : Kernel
  asArena : AddressSpaceArena AS
  bootstrapAs : AS
  failclosedTable : TablePtr
  memory : Memory
  console : List (BitVec 8)

/-- The context of the running task: its table, its window and its address space. -/
structure Binding (AS : Type) where
  callerTable : TablePtr
  userWindow : UserAccessWindow
  taskAs : AS
  hasCurrentTask : Bool

/-- How a syscall ends: the registers are written back, `x0` is set to `OK_STATUS`, or the
handler's frame was left by a switch. -/
inductive SyscallReply
  | resumed (ret : SyscallReturn)
  | yielded
  | switched
  deriving DecidableEq, Repr

/-- `b"tyrne: userspace task exited\n"`. -/
def exitMessage : List (BitVec 8) :=
  "tyrne: userspace task exited\n".toList.map fun c => BitVec.ofNat 8 c.toNat

namespace System

variable {AS α : Type}

/-- The running task's bindings when all of them resolve, else the fail-closed ones. -/
def binding (s : System AS) : Binding AS :=
  let resolvedTaskAs := s.kernel.sched.currentAddressSpaceHandle.bind (getAddressSpace s.asArena)
  match s.kernel.sched.currentUserTable, s.kernel.sched.currentUserWindow, resolvedTaskAs with
  | some table, some window, some asp => ⟨table, window, asp.inner, true⟩
  | _, _, _ => ⟨s.failclosedTable, .empty, s.bootstrapAs, false⟩

/-- What a dispatch under the binding borrows. -/
def context (b : Binding AS) (s : System AS) : SyscallContext AS where
  toIpcCall := s.kernel.ipc.call b.callerTable
  console := s.console
  memory := s.memory
  userWindow := b.userWindow
  taskAs := b.taskAs
  hasCurrentTask := b.hasCurrentTask

def endDispatch (b : Binding AS) (ctx : SyscallContext AS) (s : System AS) : System AS :=
  { s with
    kernel := { s.kernel with ipc := s.kernel.ipc.endCall b.callerTable ctx.toIpcCall }
    memory := ctx.memory
    console := ctx.console }

abbrev SystemM (AS : Type) := Prog (System AS) SchedError

def onKernel (m : Kernel.KernelM α) : SystemM AS α :=
  Prog.zoom kernel (fun kernel s => { s with kernel }) id m

def writeBytes (bytes : List (BitVec 8)) : SystemM AS Unit :=
  Prog.modify fun s => { s with console := s.console ++ bytes }

variable [Build]

/-- `task_yield`: yield, and report success when the task runs again. -/
def reschedule : SystemM AS SyscallReply := do
  let res ← (onKernel (Kernel.yieldNow .taskYield)).attempt
  debugAssert (res.isOk = true)
    ("task_yield: yield_now failed unexpectedly (NoCurrentTask should be precluded by " ++
      "gate #3)")
  match res with
  | .ok .switched => return .switched
  | _ => return .yielded

omit [Build] in
/-- `task_exit`: the handler's frame is abandoned. -/
def terminate : SystemM AS SyscallReply := do
  writeBytes exitMessage
  onKernel Kernel.taskExitCurrent
  return .switched

variable [Mmu AS]

/-- Dispatch one syscall of the running task and apply its effect. -/
def syscallEntry (args : SyscallArgs) : SystemM AS SyscallReply := do
  let s ← Prog.get
  let effect ← Prog.zoom (context s.binding) (endDispatch s.binding)
    (fun e : Empty => nomatch e) (dispatch args)
  match effect with
  | .resume ret => return .resumed ret
  | .reschedule => reschedule
  | .terminate _ => terminate

end System

/-! ## Operations of the system -/

inductive SystemOp (AS : Type)
  /-- A call of kernel code. -/
  | kernel (op : KernelOp)
  /-- A trap of the running task. -/
  | syscall (args : SyscallArgs)
  /-- Stores of the running task, and changes of address spaces. -/
  | store (memory : Memory) (asArena : AddressSpaceArena AS)

inductive SystemReply
  | kernel (reply : KernelReply)
  | syscall (reply : SyscallReply)
  | stored
  deriving DecidableEq, Repr

variable {AS : Type}

def System.exec [Build] [Mmu AS] : SystemOp AS → System.SystemM AS SystemReply
  | .kernel op => do return .kernel (← System.onKernel (Kernel.exec op))
  | .syscall args => do return .syscall (← System.syscallEntry args)
  | .store memory asArena => do
    Prog.modify fun s => { s with memory, asArena }
    return .stored

/-- Whether the operation can be invoked. -/
def SystemOp.Enabled (op : SystemOp AS) (running : Running) : Prop :=
  match op with
  | .kernel op => op.Enabled running
  | .syscall _ => running = .task
  | .store .. => running = .task

/-- One operation of a run, with the states before and after it. -/
structure SystemEvent (AS : Type) where
  before : System AS
  op : SystemOp AS
  reply : Except SchedError SystemReply
  after : System AS

end Tyrne
