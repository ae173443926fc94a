import Tyrne.Cap.Table

/-!
# IPC operations

The rendezvous state machine of endpoints: at most one pending send, one waiting
receiver or one uncollected delivery per endpoint. The waiter states live in an array
parallel to the endpoint arena; a state written under an older generation of the slot is
reset when the slot is next used.
-/

namespace Tyrne

structure Message where
  label : BitVec 64
  params : BitVec 64 × BitVec 64 × BitVec 64
  deriving DecidableEq, Repr

inductive IpcError
  | staleHandle
  | wrongObjectKind
  | missingRight
  | queueFull
  | invalidTransferCap
  | receiverTableFull
  | pendingAfterResume
  deriving DecidableEq, Repr

inductive SendOutcome
  | delivered
  | enqueued
  deriving DecidableEq, Repr

inductive RecvOutcome
  | received (msg : Message) (cap : Option CapHandle)
  | pending
  deriving DecidableEq, Repr

/-- State machine for one endpoint's waiter queue, of depth one. -/
inductive EndpointState
  | idle
  | sendPending (msg : Message) (cap : Option Capability)
  | recvWaiting
  | recvComplete (msg : Message) (cap : Option Capability)
  deriving DecidableEq, Repr

namespace EndpointState

/-- `SendPending { .. } | RecvComplete { .. }`, with the message and the capability. -/
def held : EndpointState → Option (Message × Option Capability)
  | .sendPending msg cap => some (msg, cap)
  | .recvComplete msg cap => some (msg, cap)
  | _ => none

/-- The delivery of a `RecvComplete { .. }`, which its receiver has not collected yet. -/
def delivery : EndpointState → Option (Message × Option Capability)
  | .recvComplete msg cap => some (msg, cap)
  | _ => none

/-- The capability in flight, if any. -/
def cap (state : EndpointState) : Option Capability := state.held.bind (·.2)

end EndpointState

/-- Waiter state for all endpoint slots, with the generation of the endpoint that last
wrote to each. -/
structure IpcQueues where
  states : Index → EndpointState
  slotGenerations : Index → Generation

/-- What an IPC call borrows. -/
structure IpcCall where
  epArena : EndpointArena
  queues : IpcQueues
  table : CapabilityTable

abbrev QueuesM := Prog IpcQueues IpcError

abbrev IpcM := Prog IpcCall IpcError

namespace IpcQueues

def new : IpcQueues where
  states _ := .idle
  slotGenerations _ := 0

def setState (idx : Index) (state : EndpointState) : QueuesM Unit :=
  writeCell endpointArenaCapacity states (fun states q => { q with states }) idx fun _ => state

def setGeneration (idx : Index) (gen : Generation) : QueuesM Unit :=
  writeCell endpointArenaCapacity slotGenerations
    (fun slotGenerations q => { q with slotGenerations }) idx fun _ => gen

variable [Build]

/-- Reset the slot to idle if it was last written under another generation. -/
def resetIfStaleGeneration (handle : EndpointHandle) : QueuesM Index := do
  let idx := handle.slot.index
  let gen := handle.slot.generation
  let recorded ← readCell endpointArenaCapacity slotGenerations idx
  if recorded ≠ gen then
    let state ← readCell endpointArenaCapacity states idx
    debugAssert (state.cap = none)
      ("endpoint slot must be drained before its generation is bumped: a " ++
        "SendPending/RecvComplete with Some(cap) would be silently dropped")
    setState idx .idle
    setGeneration idx gen
    return idx
  else
    return idx

/-- The state of the slot after the reset. -/
def peekState (handle : EndpointHandle) : QueuesM EndpointState := do
  let idx ← resetIfStaleGeneration handle
  readCell endpointArenaCapacity states idx

/-- `core::mem::replace(queues.state_of(handle), EndpointState::Idle)`. -/
def takeState (handle : EndpointHandle) : QueuesM EndpointState := do
  let idx ← resetIfStaleGeneration handle
  let old ← readCell endpointArenaCapacity states idx
  setState idx .idle
  return old

end IpcQueues

namespace IpcCall

/-- A table operation of the call, its errors mapped to `err`. -/
def onTable {α : Type} (err : IpcError) (m : TableM α) : IpcM α :=
  Prog.zoom table (fun table s => { s with table }) (fun _ => err) m

def onQueues {α : Type} (m : QueuesM α) : IpcM α :=
  Prog.zoom queues (fun queues s => { s with queues }) id m

end IpcCall

open IpcCall IpcQueues

/-! ## Helpers -/

/-- Resolve, type-check, authority-check, in that order. -/
def validateEpCap (epCap : CapHandle) (required : CapRights) : IpcM EndpointHandle := do
  let cap ← onTable .staleHandle (CapabilityTable.lookup epCap)
  match cap.object with
  | .endpoint handle =>
    Prog.require (cap.rights.contains required) .missingRight
    return handle
  | _ => Prog.fail .wrongObjectKind

def validateNotifCap (table : CapabilityTable) (notifCap : CapHandle) :
    Prog NotificationArena IpcError NotificationHandle := do
  let cap ← Prog.zoom (fun _ => table) (fun _ arena => arena) (fun _ => .staleHandle)
    (CapabilityTable.lookup notifCap)
  match cap.object with
  | .notification handle =>
    Prog.require (cap.rights.contains .notify) .missingRight
    return handle
  | _ => Prog.fail .wrongObjectKind

/-- The transfer part of the pre-flight of `ipcSend`. -/
def validateTransfer : Option CapHandle → IpcM Unit
  | none => return
  | some xfer => do
    let xferCap ← onTable .invalidTransferCap (CapabilityTable.lookup xfer)
    Prog.require (xferCap.rights.contains .transfer) .invalidTransferCap

def requireLive (handle : EndpointHandle) : IpcM Unit := do
  let s ← Prog.get
  let _ ← Prog.okOr (s.epArena.get handle.slot) .staleHandle

def installCapIfSome : Option Capability → IpcM (Option CapHandle)
  | none => return none
  | some c => do return some (← onTable .receiverTableFull (CapabilityTable.insertRoot c))

variable [Build]

def takeCapIfSome : Option CapHandle → IpcM (Option Capability)
  | none => return none
  | some h => do return some (← onTable .invalidTransferCap (CapabilityTable.capTake h))

/-! ## Public operations -/

/-- Send a message to an endpoint, optionally transferring a capability. -/
def ipcSend (epCap : CapHandle) (msg : Message) (transfer : Option CapHandle) :
    IpcM SendOutcome := do
  let epHandle ← validateEpCap epCap .send
  validateTransfer transfer
  requireLive epHandle
  let peeked ← onQueues (peekState epHandle)
  Prog.require (peeked.held = none) .queueFull
  let owned ← takeCapIfSome transfer
  let old ← onQueues (takeState epHandle)
  match old with
  | .recvWaiting =>
    onQueues (setState epHandle.slot.index (.recvComplete msg owned))
    return .delivered
  | .idle =>
    onQueues (setState epHandle.slot.index (.sendPending msg owned))
    return .enqueued
  | _ => Prog.panic (.unreachable "ipc_send")

/-- Receive a message from an endpoint, or register as its waiting receiver. -/
def ipcRecv (epCap : CapHandle) : IpcM RecvOutcome := do
  let epHandle ← validateEpCap epCap .recv
  requireLive epHandle
  let peeked ← onQueues (peekState epHandle)
  let s ← Prog.get
  Prog.require (¬ (peeked.cap ≠ none ∧ s.table.isFull)) .receiverTableFull
  let old ← onQueues (takeState epHandle)
  match old with
  | .sendPending msg cap =>
    let xfer ← installCapIfSome cap
    return .received msg xfer
  | .recvComplete msg cap =>
    let xfer ← installCapIfSome cap
    return .received msg xfer
  | .idle =>
    onQueues (setState epHandle.slot.index .recvWaiting)
    return .pending
  | .recvWaiting =>
    onQueues (setState epHandle.slot.index .recvWaiting)
    Prog.fail .queueFull

/-- Cancel a receiver registration. -/
def ipcCancelRecv (epCap : CapHandle) : IpcM Unit := do
  let epHandle ← validateEpCap epCap .recv
  requireLive epHandle
  let state ← onQueues (peekState epHandle)
  if state = .recvWaiting then
    onQueues (setState epHandle.slot.index .idle)
  else
    return

omit [Build]

/-- Or `bits` into the word of a notification. -/
def ipcNotify (notifCap : CapHandle) (callerTable : CapabilityTable) (bits : BitVec 64) :
    Prog NotificationArena IpcError Unit := do
  let notifHandle ← validateNotifCap callerTable notifCap
  let arena ← Prog.get
  let (notif, store) ← Prog.okOr (arena.getMut notifHandle.slot) .staleHandle
  Prog.set (store (notif.set bits))

end Tyrne
