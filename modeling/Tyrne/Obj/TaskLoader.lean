import Tyrne.Mm.Spaces
import Tyrne.Mm.Yield

/-!
# The task loader

`load_image` copies a raw-flat image into a fresh address space, one frame a page, and maps a
stack above it. All its checks come first. From then on a failure undoes what is mapped so far,
page by page from the last one, and drops the capability of the new address space.
-/

namespace Tyrne

/-- `&[u8]`: `len` bytes at a kernel address. -/
structure ImageSlice where
  ptr : ℕ
  len : ℕ

/-- The `i`-th of `image.chunks(PAGE_SIZE)`. -/
def ImageSlice.chunk (image : ImageSlice) (i : ℕ) : ImageSlice :=
  ⟨image.ptr + i * pageSize, min pageSize (image.len - i * pageSize)⟩

/-- `image.len().div_ceil(PAGE_SIZE)`, how many chunks there are. -/
def ImageSlice.pages (image : ImageSlice) : ℕ := divCeil image.len pageSize

structure LoadedImage where
  asCap : CapHandle
  entryVa : VirtAddr
  stackTopVa : VirtAddr
  imageBytes : ℕ
  stackBytes : ℕ

inductive LoadError
  | invalidImage
  | invalidStackSize
  | misalignedImageBaseVa (base : VirtAddr)
  | invalidImageBaseVa (base stop : VirtAddr)
  | invalidParentCap (error : CapError)
  | frameBudgetExceeded (needed available : ℕ)
  | addressSpaceCreationFailed (error : AddressSpaceError)
  | imageOverlapsAllocatableMemory
  | outOfFrames
  | mapFailed (error : AddressSpaceError)
  deriving DecidableEq, Repr

def userspaceVaLimit : ℕ := 1 <<< 48

/-- How many tables of the levels L1, L2 and L3 the span needs. -/
def intermediateFrameCount (imageBaseVa : VirtAddr) (imagePages stackPages : ℕ) : ℕ :=
  let totalPages := saturatingAdd imagePages stackPages
  if totalPages = 0 then
    0
  else
    let spanBytes := saturatingMul totalPages pageSize
    let spanStart := imageBaseVa.val
    let lastByte := saturatingAdd spanStart spanBytes - 1
    let l3Count := saturatingAdd ((lastByte >>> 21) - (spanStart >>> 21)) 1
    let l2Count := saturatingAdd ((lastByte >>> 30) - (spanStart >>> 30)) 1
    let l1Count := saturatingAdd ((lastByte >>> 39) - (spanStart >>> 39)) 1
    saturatingAdd (saturatingAdd l1Count l2Count) l3Count

/-- The frames that a load commits: the root, the leaves and the intermediate tables. -/
def framesNeeded (imageBaseVa : VirtAddr) (imagePages stackPages : ℕ) : ℕ :=
  saturatingAdd (saturatingAdd (saturatingAdd 1 imagePages) stackPages)
    (intermediateFrameCount imageBaseVa imagePages stackPages)

/-- `span_end`, where the stack ends. -/
def spanEnd (imageBaseVa : VirtAddr) (imagePages stackPages : ℕ) : ℕ :=
  saturatingAdd imageBaseVa.val (saturatingMul (saturatingAdd imagePages stackPages) pageSize)

/-- The address of the `i`-th page from `base` on. -/
def pageVa (base : VirtAddr) (i : ℕ) : VirtAddr :=
  ⟨saturatingAdd base.val (saturatingMul i pageSize)⟩

/-- A program of the loader. -/
abbrev LoaderM (AS : Type) (N R : ℕ) (α : Type) :=
  Prog (Spaces AS (Supply (Pmm N R))) LoadError α

namespace LoaderM

variable {AS : Type} {N R : ℕ} {α : Type}

def onTable (m : TableM α) : LoaderM AS N R α :=
  Prog.zoom Spaces.table (fun table s => { s with table }) .invalidParentCap m

def onSpaces (m : Prog (Spaces AS (Supply (Pmm N R))) AddressSpaceError α) : LoaderM AS N R α :=
  Prog.zoom id (fun s _ => s) .addressSpaceCreationFailed m

variable [Build]

def allocFrame : LoaderM AS N R (Option PhysFrame) :=
  Prog.zoom Spaces.machine (fun machine s => { s with machine }) id Pmm.allocFrame

/-- `let _ = pmm.free_frame(frame)`. -/
def freeFrame (frame : PhysFrame) : LoaderM AS N R Unit := do
  let _ ← Prog.zoom (fun s => s.machine.frames)
    (fun frames s => { s with machine := { s.machine with frames } }) id
    (Pmm.freeFrame frame).attempt

/-- `let _ = table.cap_drop(cap)`. -/
def dropCap (cap : CapHandle) : LoaderM AS N R Unit := do
  let _ ← Prog.zoom Spaces.table (fun table s => { s with table }) id
    (CapabilityTable.capDrop cap).attempt

end LoaderM

open LoaderM

section Loader

variable {AS : Type} {N R : ℕ}

/-- `core::ptr::copy_nonoverlapping`. -/
def copyNonoverlapping (src dst count : ℕ) : LoaderM AS N R Unit :=
  Prog.modify fun s =>
    let bytes := s.machine.memory.readBytes (physOf src) count
    { s with machine :=
      { s.machine with memory := s.machine.memory.writeBytes (physOf dst) bytes } }

/-- Copy a chunk of the image to the start of the frame. -/
def copyChunk (chunk : ImageSlice) (frame : PhysFrame) : LoaderM AS N R Unit := do
  let dst ← physToKernelVa frame.asUsize
  copyNonoverlapping chunk.ptr dst chunk.len

variable [Build]

/-- The checks of `load_image` before it creates the address space. -/
def checkLoad (image : ImageSlice) (parentAsCap : CapHandle) (imageBaseVa : VirtAddr)
    (stackSizePages : ℕ) : LoaderM AS N R Unit := do
  Prog.require (image.len ≠ 0) .invalidImage
  Prog.require (stackSizePages ≠ 0) .invalidStackSize
  Prog.require (imageBaseVa.val % pageSize = 0) (.misalignedImageBaseVa imageBaseVa)
  let parentCap ← onTable (CapabilityTable.lookup parentAsCap)
  Prog.require (parentCap.object.kind = .addressSpace) (.invalidParentCap .wrongKind)
  Prog.require (¬ spanEnd imageBaseVa image.pages stackSizePages > userspaceVaLimit)
    (.invalidImageBaseVa imageBaseVa ⟨spanEnd imageBaseVa image.pages stackSizePages⟩)
  let s ← Prog.get
  Prog.require (¬ framesNeeded imageBaseVa image.pages stackSizePages >
      s.machine.frames.stats.freeFrames)
    (.frameBudgetExceeded (framesNeeded imageBaseVa image.pages stackSizePages)
      s.machine.frames.stats.freeFrames)
  let imagePaStart ← kernelVaToPhys image.ptr
  let overlaps ← s.machine.frames.couldYieldPaOverlapping imagePaStart
    (saturatingAdd imagePaStart image.len)
  Prog.require (overlaps = false) .imageOverlapsAllocatableMemory

variable [Mapper AS]

/-- One page of `rollback`. -/
def unloadPage (loadedAsCap : CapHandle) (va : VirtAddr) : LoaderM AS N R Unit := do
  match ← (Spaces.capUnmap loadedAsCap va).attempt with
  | .ok frame => freeFrame frame
  | .error _ => return ()

/-- Unmap the pages mapped so far, the last first, and drop the capability. -/
def rollback (loadedAsCap : CapHandle) (imageBaseVa stackBaseVa : VirtAddr)
    (imagePagesMapped stackPagesMapped : ℕ) : LoaderM AS N R Unit := do
  Prog.forRev (fun i => unloadPage loadedAsCap (pageVa stackBaseVa i)) stackPagesMapped
  Prog.forRev (fun i => unloadPage loadedAsCap (pageVa imageBaseVa i)) imagePagesMapped
  dropCap loadedAsCap

/-- One turn of the loops over pages: `fill` a fresh frame and map it at `va`. -/
def loadPage (loadedAsCap : CapHandle) (va : VirtAddr) (flags : MappingFlags)
    (fill : PhysFrame → LoaderM AS N R Unit) (undo : LoaderM AS N R Unit) :
    LoaderM AS N R Unit := do
  match ← allocFrame with
  | none => do
    undo
    Prog.fail .outOfFrames
  | some frame => do
    fill frame
    match ← (Spaces.capMap loadedAsCap Pmm.allocFrame va frame flags).attempt with
    | .error e => do
      freeFrame frame
      undo
      Prog.fail (.mapFailed e)
    | .ok () => return ()

/-- The loops of `load_image`. The index of a page is the number of pages mapped before it. -/
def loadPages (image : ImageSlice) (loadedAsCap : CapHandle) (imageBaseVa stackBaseVa : VirtAddr)
    (imagePages stackPages : ℕ) : LoaderM AS N R Unit := do
  Prog.forRange (fun i => loadPage loadedAsCap (pageVa imageBaseVa i)
    (MappingFlags.user.union .execute) (copyChunk (image.chunk i))
    (rollback loadedAsCap imageBaseVa stackBaseVa i 0)) 0 imagePages
  Prog.forRange (fun i => loadPage loadedAsCap (pageVa stackBaseVa i)
    (MappingFlags.user.union .write) (fun _ => return ())
    (rollback loadedAsCap imageBaseVa stackBaseVa imagePages i)) 0 stackPages

/-- Load the image into a fresh address space. -/
def loadImage (image : ImageSlice) (parentAsCap : CapHandle) (newRights : CapRights)
    (imageBaseVa : VirtAddr) (stackSizePages : ℕ) : LoaderM AS N R LoadedImage := do
  checkLoad image parentAsCap imageBaseVa stackSizePages
  let loadedAsCap ← onSpaces (Spaces.capCreateAddressSpace parentAsCap newRights Pmm.allocFrame)
  let imagePages := image.pages
  let stackBaseVa := pageVa imageBaseVa imagePages
  loadPages image loadedAsCap imageBaseVa stackBaseVa imagePages stackSizePages
  let stackTopVa := pageVa stackBaseVa stackSizePages
  return {
    asCap := loadedAsCap
    entryVa := imageBaseVa
    stackTopVa
    imageBytes := image.len
    stackBytes := saturatingMul stackSizePages pageSize }

end Loader

end Tyrne
