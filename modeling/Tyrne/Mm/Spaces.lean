import Tyrne.Cap.Table
import Tyrne.Hal.Hardware
import Tyrne.Mm.AddressSpace

/-!
# Capability-gated address spaces

Every address space is made, mapped and unmapped through a capability that names it. The
three stores involved are the capability table of the caller, the arena of address spaces
and the machine, which holds the frame provider and the physical memory.
-/

namespace Tyrne

inductive AddressSpaceError
  | arenaFull
  | staleHandle
  | outOfFrames
  | capError (error : CapError)
  | mmuMapError (error : MmuError)
  | mmuUnmapError (error : MmuError)
  deriving DecidableEq, Repr

section Arena

variable [Build] {AS : Type}

def createAddressSpace (addressSpace : AddressSpace AS) :
    Prog (AddressSpaceArena AS) AddressSpaceError AddressSpaceHandle := do
  let slot ← Arena.allocate addressSpace
  let slot ← Prog.okOr slot .arenaFull
  return ⟨slot⟩

omit [Build] in
def destroyAddressSpace (handle : AddressSpaceHandle) :
    Prog (AddressSpaceArena AS) AddressSpaceError (AddressSpace AS) := do
  let value ← Arena.free handle.slot
  Prog.okOr value .staleHandle

omit [Build] in
/-- The address space with the way to write it back, or `none` if stale or freed. -/
def getAddressSpaceMut (arena : AddressSpaceArena AS) (handle : AddressSpaceHandle) :
    Option (AddressSpace AS × (AddressSpace AS → AddressSpaceArena AS)) :=
  arena.getMut handle.slot

end Arena

/-- The stores that the gated operations change. -/
structure Spaces (AS σ : Type) where
  table : CapabilityTable
  arena : AddressSpaceArena AS
  machine : σ

namespace Spaces

variable {AS σ α : Type}

def onTable (m : TableM α) : Prog (Spaces AS σ) AddressSpaceError α :=
  Prog.zoom table (fun table s => { s with table }) .capError m

def onArena (m : Prog (AddressSpaceArena AS) AddressSpaceError α) :
    Prog (Spaces AS σ) AddressSpaceError α :=
  Prog.zoom arena (fun arena s => { s with arena }) id m

def onMachine (m : Prog σ AddressSpaceError α) : Prog (Spaces AS σ) AddressSpaceError α :=
  Prog.zoom machine (fun machine s => { s with machine }) id m

/-- Pull a frame. A provider has no errors of its own. -/
def onFrames (frames : Prog σ MmuError α) : Prog (Spaces AS σ) AddressSpaceError α :=
  Prog.zoom machine (fun machine s => { s with machine }) .mmuMapError frames

/-- Run on an address space of the arena and on the machine. -/
def onInner (inner : AS) (store : AddressSpace AS → AddressSpaceArena AS)
    (mapErr : MmuError → AddressSpaceError) (m : Prog (AS × σ) MmuError α) :
    Prog (Spaces AS σ) AddressSpaceError α :=
  Prog.zoom (fun s => (inner, s.machine))
    (fun x s => { s with arena := store ⟨x.1⟩, machine := x.2 }) mapErr m

/-- Resolve a capability handle to the address space it names. -/
def resolveAddressSpaceCap (capHandle : CapHandle) :
    Prog (Spaces AS σ) AddressSpaceError AddressSpaceHandle := do
  let cap ← onTable (CapabilityTable.lookup capHandle)
  match cap.object with
  | .addressSpace handle => return handle
  | _ => Prog.fail (.capError .wrongKind)

section Gated

variable [Mapper AS] [Hardware σ]

def capMap (capHandle : CapHandle) (frames : Prog σ MmuError (Option PhysFrame)) (va : VirtAddr)
    (pa : PhysFrame) (flags : MappingFlags) : Prog (Spaces AS σ) AddressSpaceError Unit := do
  let handle ← resolveAddressSpaceCap capHandle
  let s ← Prog.get
  let (addressSpace, store) ← Prog.okOr (getAddressSpaceMut s.arena handle) .staleHandle
  let token ← onInner addressSpace.inner store .mmuMapError (Mapper.map va pa flags frames)
  onMachine (token.flush AS)

def capUnmap (capHandle : CapHandle) (va : VirtAddr) :
    Prog (Spaces AS σ) AddressSpaceError PhysFrame := do
  let handle ← resolveAddressSpaceCap capHandle
  let s ← Prog.get
  let (addressSpace, store) ← Prog.okOr (getAddressSpaceMut s.arena handle) .staleHandle
  let (token, pa) ← onInner addressSpace.inner store .mmuUnmapError (Mapper.unmap va)
  onMachine (token.flush AS)
  return pa

end Gated

/-- The checks of `capCreateAddressSpace`, all before its first change of the state. -/
def checkCreation (parentCapHandle : CapHandle) (newRights : CapRights) :
    Prog (Spaces AS σ) AddressSpaceError Unit := do
  let parentCap ← onTable (CapabilityTable.lookup parentCapHandle)
  Prog.require (parentCap.object.kind = .addressSpace) (.capError .wrongKind)
  Prog.require (parentCap.rights.contains .derive) (.capError .insufficientRights)
  Prog.require (parentCap.rights.contains newRights) (.capError .widenedRights)
  let parentDepth ← onTable (CapabilityTable.depthOf parentCapHandle)
  Prog.require (¬ saturatingAdd parentDepth 1 > maxDerivationDepth) (.capError .derivationTooDeep)
  let s ← Prog.get
  Prog.require (¬ s.arena.isFull) .arenaFull
  Prog.require (¬ s.table.isFull) (.capError .capsExhausted)

variable [Build] [Mapper AS]

/-- The rest of `capCreateAddressSpace`: a root frame, an arena slot, a capability. -/
def mintAddressSpace (parentCapHandle : CapHandle) (newRights : CapRights)
    (pmm : Prog σ MmuError (Option PhysFrame)) :
    Prog (Spaces AS σ) AddressSpaceError CapHandle := do
  let root ← onFrames pmm
  let root ← Prog.okOr root .outOfFrames
  let handle ← onArena (createAddressSpace ⟨Mapper.createAddressSpace root⟩)
  let derived ← onTable
    (CapabilityTable.capDerive parentCapHandle newRights (.addressSpace handle)).attempt
  match derived with
  | .ok capHandle => return capHandle
  | .error e =>
    let _ ← onArena (destroyAddressSpace handle).attempt
    Prog.fail (.capError e)

/-- Mint an address space under the authority of a capability for another one. -/
def capCreateAddressSpace (parentCapHandle : CapHandle) (newRights : CapRights)
    (pmm : Prog σ MmuError (Option PhysFrame)) :
    Prog (Spaces AS σ) AddressSpaceError CapHandle := do
  checkCreation parentCapHandle newRights
  mintAddressSpace parentCapHandle newRights pmm

end Spaces

end Tyrne
