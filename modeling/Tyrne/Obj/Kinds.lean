import Tyrne.Obj.Arena

/-!
# Kernel objects

The arena-backed kinds with their typed handles. A handle wraps the slot it names, so
a handle of one kind is never taken for another's.
-/

namespace Tyrne

def taskArenaCapacity : ℕ := 16
def endpointArenaCapacity : ℕ := 16
def notificationArenaCapacity : ℕ := 16

structure AddressSpaceHandle where
  slot : SlotId
  deriving DecidableEq, Repr

structure TaskHandle where
  slot : SlotId
  deriving DecidableEq, Repr

structure EndpointHandle where
  slot : SlotId
  deriving DecidableEq, Repr

structure NotificationHandle where
  slot : SlotId
  deriving DecidableEq, Repr

inductive ObjError
  | arenaFull
  | invalidHandle
  | stillReachable
  deriving DecidableEq, Repr

/-- The v1 task object. -/
structure Task where
  id : BitVec 32
  addressSpaceHandle : AddressSpaceHandle
  deriving DecidableEq, Repr

/-- An IPC rendezvous point. -/
structure Endpoint where
  id : BitVec 32
  deriving DecidableEq, Repr

/-- A 64-bit saturating signal word. -/
structure Notification where
  word : BitVec 64
  deriving DecidableEq, Repr

def Notification.set (n : Notification) (bits : BitVec 64) : Notification :=
  ⟨n.word ||| bits⟩

abbrev TaskArena := Arena Task taskArenaCapacity
abbrev EndpointArena := Arena Endpoint endpointArenaCapacity
abbrev NotificationArena := Arena Notification notificationArenaCapacity

variable [Build]

def createTask (task : Task) : Prog TaskArena ObjError TaskHandle := do
  let slot ← Arena.allocate task
  let slot ← Prog.okOr slot .arenaFull
  return ⟨slot⟩

def destroyTask (handle : TaskHandle) : Prog TaskArena ObjError Task := do
  let value ← Arena.free handle.slot
  Prog.okOr value .invalidHandle

def getTask (arena : TaskArena) (handle : TaskHandle) : Option Task :=
  arena.get handle.slot

def createEndpoint (endpoint : Endpoint) : Prog EndpointArena ObjError EndpointHandle := do
  let slot ← Arena.allocate endpoint
  let slot ← Prog.okOr slot .arenaFull
  return ⟨slot⟩

def destroyEndpoint (handle : EndpointHandle) : Prog EndpointArena ObjError Endpoint := do
  let value ← Arena.free handle.slot
  Prog.okOr value .invalidHandle

def getEndpoint (arena : EndpointArena) (handle : EndpointHandle) : Option Endpoint :=
  arena.get handle.slot

def createNotification (notification : Notification) :
    Prog NotificationArena ObjError NotificationHandle := do
  let slot ← Arena.allocate notification
  let slot ← Prog.okOr slot .arenaFull
  return ⟨slot⟩

def destroyNotification (handle : NotificationHandle) :
    Prog NotificationArena ObjError Notification := do
  let value ← Arena.free handle.slot
  Prog.okOr value .invalidHandle

def getNotification (arena : NotificationArena) (handle : NotificationHandle) :
    Option Notification :=
  arena.get handle.slot

end Tyrne
