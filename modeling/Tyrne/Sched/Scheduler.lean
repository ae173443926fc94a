import Tyrne.Ipc.Runs
import Tyrne.Sched.Queue
import Tyrne.Syscall.UserAccess

/-!
# The cooperative scheduler

The scheduler proper: the ready queue, the per-slot arrays and the current and idle
tasks, with the operations that register tasks and the parts of the bridge functions
that run under one borrow of the scheduler.
-/

namespace Tyrne

/-- Scheduling state of one task slot. -/
inductive TaskState
  | idle
  | ready
  | blocked (on : EndpointHandle)
  deriving DecidableEq, Repr

inductive SchedError
  | noCurrentTask
  | queueFull
  | ipc (err : IpcError)
  | deadlock
  deriving DecidableEq, Repr

/-- `*mut CapabilityTable`; null is `0`. -/
abbrev TablePtr := ℕ

/-- A call that has switched away and what it still has to do. -/
inductive Suspended
  /-- `yield_now`. -/
  | yieldNow
  /-- `yield_now` on behalf of the `task_yield` syscall. -/
  | taskYield
  /-- `ipc_send_and_yield`, to return `outcome`. -/
  | sendAndYield (outcome : SendOutcome)
  /-- `ipc_recv_and_yield`, to collect the message. -/
  | recvAndYield (callerTable : TablePtr) (epCap : CapHandle)
  deriving DecidableEq, Repr

/-- What restoring a saved register context continues with. -/
inductive TaskContext
  | kernelEntry (entry stackTop : ℕ)
  | userEntry (entry sp kernelStackTop : ℕ)
  | suspended (call : Suspended)
  deriving DecidableEq, Repr

structure Scheduler where
  ready : SchedQueue taskArenaCapacity
  taskStates : Index → TaskState
  taskHandles : Index → Option TaskHandle
  taskAddressSpaceHandles : Index → Option AddressSpaceHandle
  taskCapTables : Index → Option TablePtr
  taskUserWindows : Index → Option UserAccessWindow
  current : Option TaskHandle
  idle : Option TaskHandle
  contexts : Index → TaskContext

/-- The slots and the address space of a context switch. -/
structure Switch where
  currentIdx : Index
  nextIdx : Index
  nextAs : Option AddressSpaceHandle
  deriving DecidableEq, Repr

namespace Scheduler

def new : Scheduler where
  ready := .new
  taskStates _ := .idle
  taskHandles _ := none
  taskAddressSpaceHandles _ := none
  taskCapTables _ := none
  taskUserWindows _ := none
  current := none
  idle := none
  contexts _ := .kernelEntry 0 0

abbrev SchedM := Prog Scheduler SchedError

/-! ## Cells -/

def setTaskState (idx : Index) (state : TaskState) : SchedM Unit :=
  writeCell taskArenaCapacity taskStates (fun taskStates s => { s with taskStates }) idx
    fun _ => state

def setTaskHandle (idx : Index) (handle : TaskHandle) : SchedM Unit :=
  writeCell taskArenaCapacity taskHandles (fun taskHandles s => { s with taskHandles }) idx
    fun _ => some handle

def setAddressSpaceHandle (idx : Index) (handle : AddressSpaceHandle) : SchedM Unit :=
  writeCell taskArenaCapacity taskAddressSpaceHandles
    (fun taskAddressSpaceHandles s => { s with taskAddressSpaceHandles }) idx
    fun _ => some handle

def setCapTable (idx : Index) (capTable : Option TablePtr) : SchedM Unit :=
  writeCell taskArenaCapacity taskCapTables (fun taskCapTables s => { s with taskCapTables }) idx
    fun _ => capTable

def setUserWindow (idx : Index) (window : UserAccessWindow) : SchedM Unit :=
  writeCell taskArenaCapacity taskUserWindows
    (fun taskUserWindows s => { s with taskUserWindows }) idx fun _ => some window

def setContext (idx : Index) (context : TaskContext) : SchedM Unit :=
  writeCell taskArenaCapacity contexts (fun contexts s => { s with contexts }) idx
    fun _ => context

def setCurrent (handle : Option TaskHandle) : SchedM Unit :=
  Prog.modify fun s => { s with current := handle }

/-! ## The ready queue -/

def tryEnqueue (handle : TaskHandle) : SchedM Unit :=
  Prog.zoom ready (fun ready s => { s with ready }) (fun _ => .queueFull)
    (SchedQueue.enqueue handle)

/-- Enqueue a task that is not in the queue; a full queue is a kernel bug. -/
def enqueueReady (handle : TaskHandle) : SchedM Unit :=
  (tryEnqueue handle).expect "scheduler invariant: ready queue full on infallible enqueue"

def dequeueReady : SchedM (Option TaskHandle) :=
  Prog.zoom ready (fun ready s => { s with ready }) id SchedQueue.dequeue

/-! ## Registration -/

/-- Register a new kernel task and enqueue it as ready. -/
def addTask (handle : TaskHandle) (addressSpaceHandle : AddressSpaceHandle)
    (entry stackTop : ℕ) : SchedM Unit := do
  let idx := handle.slot.index
  setContext idx (.kernelEntry entry stackTop)
  tryEnqueue handle
  setTaskState idx .ready
  setTaskHandle idx handle
  setAddressSpaceHandle idx addressSpaceHandle

variable [Build]

/-- Register a new userspace task and enqueue it as ready. -/
def addUserTask (handle : TaskHandle) (addressSpaceHandle : AddressSpaceHandle)
    (userEntry userSp kernelStackTop : ℕ) (capTable : TablePtr) : SchedM Unit := do
  let idx := handle.slot.index
  debugAssert (kernelStackTop ≠ 0 ∧ kernelStackTop % 16 = 0)
    ("add_user_task: kernel_stack_top must be non-null and 16-byte aligned " ++
      "(the task's SP_EL1)")
  debugAssert (userSp % 16 = 0)
    "add_user_task: user_sp must be 16-byte aligned (becomes SP_EL0)"
  debugAssert (capTable ≠ 0)
    "add_user_task: cap_table must be non-null (the task's capability table)"
  setContext idx (.userEntry userEntry userSp kernelStackTop)
  tryEnqueue handle
  setTaskState idx .ready
  setTaskHandle idx handle
  setAddressSpaceHandle idx addressSpaceHandle
  setCapTable idx (if capTable ≠ 0 then some capTable else none)
  setUserWindow idx ⟨userEntry, userSp - userEntry⟩

omit [Build] in
/-- Register the idle task in the fallback slot. -/
def registerIdle (handle : TaskHandle) (addressSpaceHandle : AddressSpaceHandle)
    (entry stackTop : ℕ) : SchedM Unit := do
  let s ← Prog.get
  if s.idle = none then
    let idx := handle.slot.index
    setContext idx (.kernelEntry entry stackTop)
    setTaskState idx .ready
    setTaskHandle idx handle
    setAddressSpaceHandle idx addressSpaceHandle
    Prog.modify fun s => { s with idle := some handle }
  else
    Prog.panic (.assertion
      "register_idle called twice — idle slot is set-once by boot-time discipline")

/-! ## The running task's bindings -/

def ofCurrent {α : Type} (s : Scheduler) (cells : Index → Option α) : Option α :=
  s.current.bind fun handle => cells handle.slot.index

def currentUserTable (s : Scheduler) : Option TablePtr := s.ofCurrent s.taskCapTables

def currentAddressSpaceHandle (s : Scheduler) : Option AddressSpaceHandle :=
  s.ofCurrent s.taskAddressSpaceHandles

def currentUserWindow (s : Scheduler) : Option UserAccessWindow := s.ofCurrent s.taskUserWindows

/-! ## Dispatch -/

/-- The loop of `unblockReceiverOn`. -/
def unblockScan (ep : EndpointHandle) : List Index → SchedM Unit
  | [] => return ()
  | idx :: rest => do
    let state ← readCell taskArenaCapacity taskStates idx
    if state = .blocked ep then
      let handle ← readCell taskArenaCapacity taskHandles idx
      debugAssert (handle.isSome = true)
        "scheduler invariant: a Blocked slot must have a stored TaskHandle"
      match handle with
      | some handle =>
        setTaskState idx .ready
        enqueueReady handle
      | none => unblockScan ep rest
    else
      unblockScan ep rest

/-- Wake the first task blocked on `ep`. -/
def unblockReceiverOn (ep : EndpointHandle) : SchedM Unit :=
  unblockScan ep ((List.range taskArenaCapacity).map (BitVec.ofNat 16))

/-- Dequeue the first task to run, or fall back to idle. -/
def startPrelude : SchedM Index := do
  let front ← dequeueReady
  let s ← Prog.get
  match front.or s.idle with
  | some nextHandle =>
    let nextIdx := nextHandle.slot.index
    setTaskState nextIdx .ready
    setCurrent (some nextHandle)
    return nextIdx
  | none =>
    Prog.panic (.explicit "scheduler start called with empty ready queue and no idle task")

/-- The address space to activate when a switch crosses address spaces. -/
def addressSpaceActivationTarget :
    Option AddressSpaceHandle → Option AddressSpaceHandle → Option AddressSpaceHandle
  | some current, some next => if current ≠ next then some next else none
  | _, _ => none

/-- Make `nextHandle` current, leaving the task of slot `currentIdx`. -/
def dispatchFrom (currentIdx : Index) (nextHandle : TaskHandle) : SchedM Switch := do
  let nextIdx := nextHandle.slot.index
  setTaskState nextIdx .ready
  setCurrent (some nextHandle)
  let currentAs ← readCell taskArenaCapacity taskAddressSpaceHandles currentIdx
  let nextAs ← readCell taskArenaCapacity taskAddressSpaceHandles nextIdx
  return ⟨currentIdx, nextIdx, addressSpaceActivationTarget currentAs nextAs⟩

/-- The part of `yieldNow` before the switch; `none` when there is nothing to switch to. -/
def yieldPrelude : SchedM (Option Switch) := do
  let s ← Prog.get
  let currentHandle ← Prog.okOr s.current .noCurrentTask
  let currentIdx := currentHandle.slot.index
  let currentIsIdle : Bool := s.idle = some currentHandle
  setTaskState currentIdx .ready
  if currentIsIdle then
    pure ()
  else
    enqueueReady currentHandle
  let front ← dequeueReady
  let s ← Prog.get
  match front with
  | some nextHandle =>
    if nextHandle ≠ currentHandle then
      return some (← dispatchFrom currentIdx nextHandle)
    else
      return none
  | none =>
    match s.idle.filter (· ≠ currentHandle) with
    | some nextHandle => return some (← dispatchFrom currentIdx nextHandle)
    | none => return none

/-- Phase 2 of `ipcRecvAndYield`: block the current task on `ep` and choose the next, or
restore the scheduler when there is none. -/
def blockCurrent (ep : EndpointHandle) : SchedM (Option Switch) := do
  let s ← Prog.get
  let currentHandle ← Prog.okOr s.current .noCurrentTask
  let currentIdx := currentHandle.slot.index
  let priorState ← readCell taskArenaCapacity taskStates currentIdx
  debugAssert (priorState = .ready)
    "scheduler invariant: the running task's slot must be marked Ready"
  setTaskState currentIdx (.blocked ep)
  setCurrent none
  let front ← dequeueReady
  let s ← Prog.get
  match front.or (s.idle.filter (· ≠ currentHandle)) with
  | some nextHandle => return some (← dispatchFrom currentIdx nextHandle)
  | none =>
    setTaskState currentIdx priorState
    setCurrent (some currentHandle)
    return none

end Scheduler

end Tyrne
