import Tyrne.Hal.Hardware
import Tyrne.Hal.Vmsav8

/-!
# The page tables of QEMU virt

Four levels of 512 descriptors each. A walk reads one descriptor a level, through the
direct map, and in the place of a missing table it installs a zeroed frame that the
provider hands out. The provider of `unmap` and `translate` has none.
-/

namespace Tyrne

def vaL0Shift : ℕ := 39
def vaL1Shift : ℕ := 30
def vaL2Shift : ℕ := 21
def vaL3Shift : ℕ := 12
def vaIndexMask : BitVec 64 := 0x1FF

def entriesPerTable : ℕ := pageSize / 8

structure QemuVirtAddressSpace where
  root : PhysFrame
  deriving DecidableEq

/-- The index of `va` in the tables of the level with this shift. -/
def vaIndex (va : VirtAddr) (shift : ℕ) : ℕ :=
  (BitVec.ofNat 64 va.val >>> shift &&& vaIndexMask).toNat

section Walk

variable [Build] {σ : Type} [Hardware σ]

/-- `NullFrameProvider`. -/
def nullFrameProvider : Prog σ MmuError (Option PhysFrame) := return none

def walkOrAllocTable (parentTable : PhysFrame) (idx : ℕ)
    (frames : Prog σ MmuError (Option PhysFrame)) (unmap : Bool) : Prog σ MmuError PhysFrame := do
  debugAssert (idx < entriesPerTable) "idx < ENTRIES_PER_TABLE"
  let parentPtr ← physToKernelVa parentTable.asUsize
  let slotPtr := parentPtr + 8 * idx
  let existing ← readVolatile slotPtr
  if existing &&& descValidBit ≠ 0 then
    if existing &&& descTableOrPageBit = 0 then
      Prog.fail (if unmap then .blockMapped else .alreadyMapped)
    else
      Prog.okOr (PhysFrame.fromAligned ⟨(existing &&& tableNlaMask).toNat⟩) .misalignedAddress
  else if unmap then
    Prog.fail .notMapped
  else do
    let newTable ← frames >>= fun frame => Prog.okOr frame .outOfFrames
    writeVolatile slotPtr (tableDescriptor (BitVec.ofNat 64 newTable.asUsize))
    return newTable

def walkAndInstallLeaf (root : PhysFrame) (va : VirtAddr) (pa : PhysFrame) (flags : MappingFlags)
    (frames : Prog σ MmuError (Option PhysFrame)) (unmap : Bool) : Prog σ MmuError PhysFrame := do
  let l1Table ← walkOrAllocTable root (vaIndex va vaL0Shift) frames unmap
  let l2Table ← walkOrAllocTable l1Table (vaIndex va vaL1Shift) frames unmap
  let l3Table ← walkOrAllocTable l2Table (vaIndex va vaL2Shift) frames unmap
  let l3Ptr ← physToKernelVa l3Table.asUsize
  let leafSlot := l3Ptr + 8 * vaIndex va vaL3Shift
  if unmap then do
    let existing ← readVolatile leafSlot
    Prog.require (existing &&& descValidBit ≠ 0) .notMapped
    writeVolatile leafSlot 0
    Prog.okOr (PhysFrame.fromAligned ⟨(existing &&& pageOaMaskL3).toNat⟩) .misalignedAddress
  else do
    let existing ← readVolatile leafSlot
    Prog.require (existing &&& descValidBit = 0) .alreadyMapped
    writeVolatile leafSlot
      (pageDescriptor (BitVec.ofNat 64 pa.asUsize) (flagsToDescriptorBits flags))
    return pa

namespace QemuVirtMmu

def map (as_ : QemuVirtAddressSpace) (va : VirtAddr) (pa : PhysFrame) (flags : MappingFlags)
    (frames : Prog σ MmuError (Option PhysFrame)) : Prog σ MmuError MapperFlush := do
  Prog.require (va.val % pageSize = 0) .misalignedAddress
  Prog.require (¬ (flags.contains .device ∧ flags.contains .execute)) .invalidFlags
  let _ ← walkAndInstallLeaf as_.root va pa flags frames false
  return ⟨va⟩

def unmap (as_ : QemuVirtAddressSpace) (va : VirtAddr) :
    Prog σ MmuError (MapperFlush × PhysFrame) := do
  Prog.require (va.val % pageSize = 0) .misalignedAddress
  let pa ← walkAndInstallLeaf as_.root va as_.root .empty nullFrameProvider true
  return (⟨va⟩, pa)

def translate (as_ : QemuVirtAddressSpace) (va : VirtAddr) :
    Prog σ MmuError (PhysFrame × MappingFlags) := do
  let l1 ← walkOrAllocTable as_.root (vaIndex va vaL0Shift) nullFrameProvider true
  let l2 ← walkOrAllocTable l1 (vaIndex va vaL1Shift) nullFrameProvider true
  let l3Table ← walkOrAllocTable l2 (vaIndex va vaL2Shift) nullFrameProvider true
  let l3Ptr ← physToKernelVa l3Table.asUsize
  let leaf ← readVolatile (l3Ptr + 8 * vaIndex va vaL3Shift)
  Prog.require (leaf &&& descValidBit ≠ 0) .notMapped
  Prog.require (leaf &&& descTableOrPageBit ≠ 0) .notMapped
  Prog.require (leaf &&& descAfBit ≠ 0) .notMapped
  let frame ← Prog.okOr (PhysFrame.fromAligned ⟨(leaf &&& pageOaMaskL3).toNat⟩) .misalignedAddress
  return (frame, descriptorBitsToFlags leaf)

/-- The register operand is the page number of the address, under ASID 0. -/
def invalidateTlbAddress {ε : Type} (va : VirtAddr) : Prog σ ε Unit :=
  let arg := BitVec.ofNat 64 va.val >>> 12 &&& 0x0000_FFFF_FFFF_FFFF
  Prog.modify (Hardware.tlbiVae1 arg)

end QemuVirtMmu

instance : Mmu QemuVirtAddressSpace := ⟨QemuVirtMmu.translate⟩

/-- A program on the machine beside an address space. -/
def onHardware {AS ε α : Type} (m : AS → Prog σ ε α) : Prog (AS × σ) ε α := do
  let (as_, _) ← Prog.get
  Prog.zoom Prod.snd (fun s x => (x.1, s)) id (m as_)

instance : Mapper QemuVirtAddressSpace where
  createAddressSpace root := ⟨root⟩
  map va pa flags frames := onHardware fun as_ => QemuVirtMmu.map as_ va pa flags frames
  unmap va := onHardware fun as_ => QemuVirtMmu.unmap as_ va
  invalidateTlbAddress va := QemuVirtMmu.invalidateTlbAddress va

end Walk

end Tyrne
