import Tyrne.Sched.Scheduler

/-!
# The scheduler bridge

The entry points that combine the scheduler with IPC. Each is cut where it switches
contexts: the part before the switch saves what is left to do in the outgoing task's
context, and `resume` runs what the incoming task's context continues with.
-/

namespace Tyrne

/-- What the processor executes. -/
inductive Running
  /-- Kernel initialisation, before the first dispatch. -/
  | boot
  /-- A context just restored. -/
  | resuming (context : TaskContext)
  /-- The current task's own code. -/
  | task
  deriving DecidableEq, Repr

structure Core where
  running : Running
  /-- The address space last activated. -/
  activated : Option AddressSpaceHandle
  deriving DecidableEq, Repr

structure Kernel where
  sched : Scheduler
  core : Core
  ipc : IpcSystem TablePtr

/-- Whether a bridge call returned or has switched away. -/
inductive Exit (α : Type)
  | returned (value : α)
  | switched
  deriving DecidableEq, Repr

def Exit.map {α β : Type} (f : α → β) : Exit α → Exit β
  | .returned a => .returned (f a)
  | .switched => .switched

namespace Kernel

abbrev KernelM := Prog Kernel SchedError

/-- The kernel before the first dispatch, with the IPC objects boot has set up. -/
def boot (ipc : IpcSystem TablePtr) : Kernel := ⟨.new, ⟨.boot, none⟩, ipc⟩

def onSched {α : Type} (m : Scheduler.SchedM α) : KernelM α :=
  Prog.zoom sched (fun sched k => { k with sched }) id m

/-- An IPC call on the table at `callerTable`. -/
def onIpc {α : Type} (callerTable : TablePtr) (m : IpcM α) : KernelM α :=
  Prog.zoom (fun k => k.ipc.call callerTable)
    (fun c k => { k with ipc := k.ipc.endCall callerTable c }) .ipc m

def setRunning (running : Running) : KernelM Unit :=
  Prog.modify fun k => { k with core := { k.core with running } }

/-- The activation hook, when there is an address space to activate. -/
def activate (target : Option AddressSpaceHandle) : KernelM Unit :=
  Prog.modify fun k => { k with core := { k.core with activated := target.or k.core.activated } }

/-- Resolve a capability handle to an endpoint handle. -/
def resolveEpCap (callerTable : TablePtr) (epCap : CapHandle) : KernelM EndpointHandle := do
  let cap ← onIpc callerTable (IpcCall.onTable .staleHandle (CapabilityTable.lookup epCap))
  match cap.object with
  | .endpoint handle => return handle
  | _ => Prog.fail (.ipc .wrongObjectKind)

/-- The dispatch tail of `start` and `taskExitCurrent`; it abandons the caller's frame. -/
def runDispatched (nextIdx : Index) : KernelM Unit := do
  let nextAs ← onSched (readCell taskArenaCapacity Scheduler.taskAddressSpaceHandles nextIdx)
  activate nextAs
  let context ← onSched (readCell taskArenaCapacity Scheduler.contexts nextIdx)
  setRunning (.resuming context)

variable [Build]

/-- The switch window: the outgoing task's context saves `call`. -/
def switchTo (switch : Switch) (call : Suspended) : KernelM Unit := do
  debugAssert (switch.currentIdx ≠ switch.nextIdx)
    "split-borrow invariant: current and next task indices must differ"
  activate switch.nextAs
  let context ← onSched (readCell taskArenaCapacity Scheduler.contexts switch.nextIdx)
  onSched (Scheduler.setContext switch.currentIdx (.suspended call))
  setRunning (.resuming context)

omit [Build] in
/-- Start the scheduler by switching to the first ready task. -/
def start : KernelM Unit := do
  let nextIdx ← onSched Scheduler.startPrelude
  runDispatched nextIdx

omit [Build] in
/-- Terminate the current task and dispatch the next. -/
def taskExitCurrent : KernelM Unit := do
  let nextIdx ← onSched Scheduler.startPrelude
  runDispatched nextIdx

/-- Yield the current task; `call` is what its context continues with. -/
def yieldNow (call : Suspended) : KernelM (Exit Unit) := do
  match ← onSched Scheduler.yieldPrelude with
  | none => return .returned ()
  | some switch =>
    switchTo switch call
    return .switched

/-- Send a message; if it is delivered to a waiting receiver, unblock that receiver and
yield. -/
def ipcSendAndYield (callerTable : TablePtr) (epCap : CapHandle) (msg : Message)
    (transfer : Option CapHandle) : KernelM (Exit SendOutcome) := do
  let epHandle ← resolveEpCap callerTable epCap
  let outcome ← onIpc callerTable (ipcSend epCap msg transfer)
  if outcome = .delivered then
    onSched (Scheduler.unblockReceiverOn epHandle)
    return (← yieldNow (.sendAndYield outcome)).map fun _ => outcome
  else
    return .returned outcome

/-- Phase 2 of `ipcRecvAndYield`: block and switch, or roll the registration back when
there is nothing to switch to. -/
def blockAndYield (callerTable : TablePtr) (epCap : CapHandle) (epHandle : EndpointHandle) :
    KernelM (Exit RecvOutcome) := do
  match ← onSched (Scheduler.blockCurrent epHandle) with
  | some switch =>
    switchTo switch (.recvAndYield callerTable epCap)
    return .switched
  | none =>
    let cancelResult ← (onIpc callerTable (ipcCancelRecv epCap)).attempt
    debugAssert (cancelResult = .ok ())
      ("ipc_cancel_recv on the same ep_cap that just passed Phase 1's validation " ++
        "cannot fail under v1's cooperative single-thread invariant")
    Prog.fail .deadlock

/-- Receive a message; if none is ready, block the current task and switch. -/
def ipcRecvAndYield (callerTable : TablePtr) (epCap : CapHandle) :
    KernelM (Exit RecvOutcome) := do
  let k ← Prog.get
  Prog.require (k.sched.current ≠ none) .noCurrentTask
  let epHandle ← resolveEpCap callerTable epCap
  let outcome ← onIpc callerTable (ipcRecv epCap)
  if outcome ≠ .pending then
    return .returned outcome
  else
    blockAndYield callerTable epCap epHandle

/-- Phase 3 of `ipcRecvAndYield`: collect the delivered message. -/
def collect (callerTable : TablePtr) (epCap : CapHandle) : KernelM RecvOutcome := do
  let outcome ← onIpc callerTable (ipcRecv epCap)
  match outcome with
  | .pending => Prog.fail (.ipc .pendingAfterResume)
  | .received msg cap => return .received msg cap

end Kernel

/-! ## Operations of the system -/

inductive KernelOp
  | addTask (handle : TaskHandle) (addressSpaceHandle : AddressSpaceHandle)
      (entry stackTop : ℕ)
  | addUserTask (handle : TaskHandle) (addressSpaceHandle : AddressSpaceHandle)
      (userEntry userSp kernelStackTop : ℕ) (capTable : TablePtr)
  | registerIdle (handle : TaskHandle) (addressSpaceHandle : AddressSpaceHandle)
      (entry stackTop : ℕ)
  | start
  | resume
  | yieldNow
  | sendAndYield (callerTable : TablePtr) (epCap : CapHandle) (msg : Message)
      (transfer : Option CapHandle)
  | recvAndYield (callerTable : TablePtr) (epCap : CapHandle)
  | taskExit

inductive KernelReply
  | registered
  | switched
  | entered
  | yielded
  | sent (outcome : SendOutcome)
  | received (outcome : RecvOutcome)
  deriving DecidableEq, Repr

/-- The reply of a bridge call. -/
def Exit.reply {α : Type} (mk : α → KernelReply) : Exit α → KernelReply
  | .returned a => mk a
  | .switched => .switched

theorem Exit.reply_map {α β : Type} (mk : β → KernelReply) (f : α → β) (e : Exit α) :
    (e.map f).reply mk = e.reply fun a => mk (f a) := by
  cases e <;> rfl

theorem Exit.eq_switched {α : Type} {mk : α → KernelReply} {e : Exit α}
    (hmk : ∀ a, mk a ≠ .switched) (he : e.reply mk = .switched) : e = .switched := by
  cases e with
  | returned a => exact absurd he (hmk a)
  | switched => rfl

namespace Kernel

variable [Build]

/-- What the restored context continues with. -/
def continueWith : TaskContext → KernelM KernelReply
  | .kernelEntry _ _ => return .entered
  | .userEntry _ _ _ => return .entered
  | .suspended .yieldNow => return .yielded
  | .suspended .taskYield => return .yielded
  | .suspended (.sendAndYield outcome) => return .sent outcome
  | .suspended (.recvAndYield callerTable epCap) => do
    return .received (← collect callerTable epCap)

def exec : KernelOp → KernelM KernelReply
  | .addTask handle addressSpaceHandle entry stackTop => do
    onSched (Scheduler.addTask handle addressSpaceHandle entry stackTop)
    return .registered
  | .addUserTask handle addressSpaceHandle userEntry userSp kernelStackTop capTable => do
    onSched (Scheduler.addUserTask handle addressSpaceHandle userEntry userSp kernelStackTop
      capTable)
    return .registered
  | .registerIdle handle addressSpaceHandle entry stackTop => do
    onSched (Scheduler.registerIdle handle addressSpaceHandle entry stackTop)
    return .registered
  | .start => do
    start
    return .switched
  | .resume => do
    let k ← Prog.get
    match k.core.running with
    | .resuming context =>
      setRunning .task
      continueWith context
    | _ => Prog.panic (.unreachable "no context was restored")
  | .yieldNow => do return (← yieldNow .yieldNow).reply fun _ => .yielded
  | .sendAndYield callerTable epCap msg transfer => do
    return (← ipcSendAndYield callerTable epCap msg transfer).reply .sent
  | .recvAndYield callerTable epCap => do
    return (← ipcRecvAndYield callerTable epCap).reply .received
  | .taskExit => do
    taskExitCurrent
    return .switched

end Kernel

/-- Whether the operation can be invoked: registration while some code runs, `start` by
the boot code, `resume` after a switch, the rest by the running task. -/
def KernelOp.Enabled (op : KernelOp) (running : Running) : Prop :=
  match op with
  | .addTask .. | .addUserTask .. | .registerIdle .. => running = .boot ∨ running = .task
  | .start => running = .boot
  | .resume => ∃ context, running = .resuming context
  | _ => running = .task

end Tyrne
