import Tyrne.Cap.Rights
import Tyrne.Obj.Kinds

/-!
# The capability table

The table stores capabilities in generation-tagged slots. Free slots form a list
threaded through `nextFree`; the derivation tree is threaded through the entries by
`parent`, `firstChild` and `nextSibling`. The operations below follow the source line
by line; what they preserve is in `Tyrne.Cap.WellFormed`.
-/

namespace Tyrne

inductive CapKind
  | task
  | endpoint
  | notification
  | addressSpace
  | debugConsole
  | memoryRegion
  deriving DecidableEq, Repr

/-- Typed reference to a kernel object. -/
inductive CapObject
  | task (handle : TaskHandle)
  | endpoint (handle : EndpointHandle)
  | notification (handle : NotificationHandle)
  | addressSpace (handle : AddressSpaceHandle)
  | debugConsole
  deriving DecidableEq, Repr

def CapObject.kind : CapObject → CapKind
  | .task _ => .task
  | .endpoint _ => .endpoint
  | .notification _ => .notification
  | .addressSpace _ => .addressSpace
  | .debugConsole => .debugConsole

structure Capability where
  rights : CapRights
  object : CapObject
  deriving DecidableEq, Repr

inductive CapError
  | capsExhausted
  | invalidHandle
  | widenedRights
  | insufficientRights
  | derivationTooDeep
  | hasChildren
  | wrongKind
  deriving DecidableEq, Repr

def capTableCapacity : ℕ := 64
def maxDerivationDepth : ℕ := 16

/-- Opaque handle into a table. -/
structure CapHandle where
  index : Index
  generation : Generation
  deriving DecidableEq, Repr

/-- Populated slot contents. -/
structure SlotEntry where
  capability : Capability
  parent : Option Index
  firstChild : Option Index
  nextSibling : Option Index
  depth : ℕ
  deriving DecidableEq, Repr

structure Slot where
  entry : Option SlotEntry
  generation : Generation
  nextFree : Option Index
  deriving DecidableEq, Repr

structure CapabilityTable where
  slots : Index → Slot
  freeHead : Option Index

/-- Programs on one table. -/
abbrev TableM := Prog CapabilityTable CapError

namespace CapabilityTable

/-- An empty table with every slot in the free list. -/
def new : CapabilityTable where
  slots i := { entry := none, generation := 0, nextFree := freshLink capTableCapacity i }
  freeHead := some 0

/-- `self.slots[i]`. -/
def slotAt (i : Index) : TableM Slot :=
  readCell capTableCapacity slots i

/-- `self.slots[i]` as the target of an assignment. -/
def modifySlot (i : Index) (f : Slot → Slot) : TableM Unit :=
  writeCell capTableCapacity slots (fun slots t => { t with slots }) i f

/-- `if let Some(entry) = self.slots[i].entry.as_mut()`. -/
def modifyEntry (i : Index) (f : SlotEntry → SlotEntry) : TableM Unit :=
  modifySlot i fun slot => { slot with entry := slot.entry.map f }

def setEntry (i : Index) (entry : Option SlotEntry) : TableM Unit :=
  modifySlot i fun slot => { slot with entry }

def setFreeHead (head : Option Index) : TableM Unit :=
  Prog.modify fun t => { t with freeHead := head }

/-! ## Internals -/

/-- Validate a handle and return the underlying slot index. -/
def resolveHandle (handle : CapHandle) : TableM Index := do
  let t ← Prog.get
  Prog.require (handle.index.toNat < capTableCapacity) .invalidHandle
  let slot := t.slots handle.index
  Prog.require (slot.generation = handle.generation) .invalidHandle
  Prog.require (slot.entry.isSome) .invalidHandle
  return handle.index

def entryOf (handle : CapHandle) : TableM SlotEntry := do
  let index ← resolveHandle handle
  let slot ← slotAt index
  Prog.okOr slot.entry .invalidHandle

/-- Pop and return the next free slot index, or `none` if the table is full. -/
def popFree : TableM (Option Index) := do
  let t ← Prog.get
  match t.freeHead with
  | none => return none
  | some head =>
    let slot ← slotAt head
    setFreeHead slot.nextFree
    modifySlot head fun slot => { slot with nextFree := none }
    return some head

/-- Splice `newIndex` in as the head of `parent`'s child list and return the former
head. A root has no parent to splice into. -/
def linkChild (parent : Option Index) (newIndex : Index) : TableM (Option Index) := do
  match parent with
  | none => return none
  | some parentIdx =>
    let slot ← slotAt parentIdx
    match slot.entry with
    | none => Prog.fail .invalidHandle
    | some parentEntry =>
      modifyEntry parentIdx fun entry => { entry with firstChild := some newIndex }
      return parentEntry.firstChild

variable [Build]

/-- Clear the entry, bump the generation, prepend to the free list. -/
def freeSlot (index : Index) : TableM Unit := do
  let t ← Prog.get
  let oldFreeHead := t.freeHead
  if index.toNat < capTableCapacity then
    modifySlot index fun slot =>
      { entry := none, generation := slot.generation + 1, nextFree := oldFreeHead }
    setFreeHead (some index)
  else
    debugAssert False "free_slot called with out-of-range index"

/-- The `while let Some(c) = cursor` walk of `unlinkFromSiblings`. The source bounds it
by nothing but the list; the first argument bounds the model's recursion. -/
def unlinkWalk (index : Index) (nextSibling : Option Index) : ℕ → Option Index → TableM Unit
  | _, none => do
    debugAssert False "unlink_from_siblings: slot not found in parent's child list"
    Prog.fail .invalidHandle
  | 0, some _ => Prog.panic .nontermination
  | fuel + 1, some c => do
    let slot ← slotAt c
    let cNext := slot.entry.bind (·.nextSibling)
    if cNext = some index then
      modifyEntry c fun entry => { entry with nextSibling }
    else
      unlinkWalk index nextSibling fuel cNext

/-- Remove the slot at `index` from its parent's child list. -/
def unlinkFromSiblings (index : Index) : TableM Unit := do
  let slot ← slotAt index
  let entry ← Prog.okOr slot.entry .invalidHandle
  match entry.parent with
  | none => return
  | some parentIdx =>
    let parentSlot ← slotAt parentIdx
    match parentSlot.entry with
    | none =>
      debugAssert False "unlink_from_siblings: parent slot is empty"
      Prog.fail .invalidHandle
    | some parentEntry =>
      let cursor := parentEntry.firstChild
      if cursor = some index then
        modifyEntry parentIdx fun parentEntry =>
          { parentEntry with firstChild := entry.nextSibling }
      else
        unlinkWalk index entry.nextSibling (capTableCapacity + 1) cursor

/-! ## The public operations -/

/-- Insert a capability with no parent. -/
def insertRoot (cap : Capability) : TableM CapHandle := do
  let index ← popFree
  let index ← Prog.okOr index .capsExhausted
  let slot ← slotAt index
  setEntry index <| some
    { capability := cap, parent := none, firstChild := none, nextSibling := none, depth := 0 }
  return { index, generation := slot.generation }

/-- Install a peer of `src` with narrower or equal rights. -/
def capCopy (src : CapHandle) (newRights : CapRights) : TableM CapHandle := do
  let entry ← entryOf src
  let rights := entry.capability.rights
  Prog.require (rights.contains .duplicate) .insufficientRights
  Prog.require (rights.contains newRights) .widenedRights
  let newIndex ← popFree
  let newIndex ← Prog.okOr newIndex .capsExhausted
  let slot ← slotAt newIndex
  let formerFirstChild ← linkChild entry.parent newIndex
  setEntry newIndex <| some
    { capability := ⟨newRights, entry.capability.object⟩
      parent := entry.parent
      firstChild := none
      nextSibling := formerFirstChild
      depth := entry.depth }
  return { index := newIndex, generation := slot.generation }

/-- Install a child of `src`. -/
def capDerive (src : CapHandle) (newRights : CapRights) (newObject : CapObject) :
    TableM CapHandle := do
  let entry ← entryOf src
  let rights := entry.capability.rights
  Prog.require (rights.contains .derive) .insufficientRights
  Prog.require (rights.contains newRights) .widenedRights
  let newDepth := entry.depth + 1
  Prog.require (newDepth ≤ maxDerivationDepth) .derivationTooDeep
  let newIndex ← popFree
  let newIndex ← Prog.okOr newIndex .capsExhausted
  let slot ← slotAt newIndex
  let formerFirstChild ← linkChild (some src.index) newIndex
  setEntry newIndex <| some
    { capability := ⟨newRights, newObject⟩
      parent := some src.index
      firstChild := none
      nextSibling := formerFirstChild
      depth := newDepth }
  return { index := newIndex, generation := slot.generation }

/-- A sibling list appended to the scratch array of `capRevoke`. The first argument is
the room left in the array, `capTableCapacity - descLen`; the loop breaks when the
array is full. -/
def collectSiblings : ℕ → Option Index → List Index → TableM (List Index)
  | _, none, descendants => return descendants
  | 0, some _, descendants => do
    debugAssert False "derivation tree contains a cycle or duplicate node"
    return descendants
  | room + 1, some c, descendants => do
    let slot ← slotAt c
    collectSiblings room (slot.entry.bind (·.nextSibling)) (descendants ++ [c])

/-- `while scan < desc_len`: append the children of every queued descendant. The first
argument is `capTableCapacity - scan`, at which the loop ends since
`descLen ≤ capTableCapacity`. -/
def collectDescendants : ℕ → ℕ → List Index → TableM (List Index)
  | 0, _, descendants => return descendants
  | steps + 1, scan, descendants => do
    match descendants[scan]? with
    | none => return descendants
    | some idx =>
      let slot ← slotAt idx
      let descendants ← collectSiblings (capTableCapacity - descendants.length)
        (slot.entry.bind (·.firstChild)) descendants
      collectDescendants steps (scan + 1) descendants

/-- Invalidate every descendant of `src`. -/
def capRevoke (src : CapHandle) : TableM Unit := do
  let srcIndex ← resolveHandle src
  let slot ← slotAt srcIndex
  let entry ← Prog.okOr slot.entry .invalidHandle
  Prog.require (entry.capability.rights.contains .revoke) .insufficientRights
  let descendants ← collectSiblings capTableCapacity entry.firstChild []
  let descendants ← collectDescendants capTableCapacity 0 descendants
  forM descendants freeSlot
  modifyEntry srcIndex fun entry => { entry with firstChild := none }

/-- Release a capability without descendants. -/
def capDrop (handle : CapHandle) : TableM Unit := do
  let index ← resolveHandle handle
  let slot ← slotAt index
  let entry ← Prog.okOr slot.entry .invalidHandle
  Prog.require (entry.firstChild = none) .hasChildren
  unlinkFromSiblings index
  freeSlot index

/-- Release a capability without descendants and return it. -/
def capTake (handle : CapHandle) : TableM Capability := do
  let index ← resolveHandle handle
  let slot ← slotAt index
  let entry ← Prog.okOr slot.entry .invalidHandle
  Prog.require (entry.firstChild = none) .hasChildren
  unlinkFromSiblings index
  let slot ← slotAt index
  setEntry index none
  let entry ← Prog.okOr slot.entry .invalidHandle
  freeSlot index
  return entry.capability

omit [Build]

/-- Every slot of the table is occupied. -/
def isFull (t : CapabilityTable) : Prop := t.freeHead = none

instance (t : CapabilityTable) : Decidable t.isFull := inferInstanceAs (Decidable (_ = _))

def lookup (handle : CapHandle) : TableM Capability := do
  let entry ← entryOf handle
  return entry.capability

/-- The depth of the capability at `handle` in the derivation tree. -/
def depthOf (handle : CapHandle) : TableM ℕ := do
  let entry ← entryOf handle
  return entry.depth

/-- Some live capability of the table names `target`. -/
def referencesObject (t : CapabilityTable) (target : CapObject) : Bool :=
  (List.range capTableCapacity).any fun i =>
    (t.slots (BitVec.ofNat 16 i)).entry.any fun entry => entry.capability.object = target

end CapabilityTable

end Tyrne
