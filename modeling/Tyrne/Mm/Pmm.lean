import Tyrne.Hal.Frames
import Tyrne.Library.Bitmap

/-!
# The physical memory manager

A bitmap with one bit for each frame of the managed extent. A set bit says that the frame
is reserved or allocated; the list of reserved ranges tells which. The scan for a free
frame starts from a hint, and three counters are kept beside the bitmap.

`Pmm N R` has `N` bytes of bitmap and room for `R` reserved ranges.
-/

namespace Tyrne

/-- A range of frames `[start, stop)`. -/
structure PhysFrameRange where
  start : PhysAddr
  stop : PhysAddr
  deriving DecidableEq, Repr

namespace PhysFrameRange

/-- Both bounds are page-aligned. -/
def IsAligned (range : PhysFrameRange) : Prop :=
  range.start.val % pageSize = 0 ∧ range.stop.val % pageSize = 0

instance (range : PhysFrameRange) : Decidable range.IsAligned :=
  inferInstanceAs (Decidable (_ ∧ _))

def lenBytes (range : PhysFrameRange) : ℕ := range.stop.val - range.start.val

/-- How many frames the range covers; none when it is inverted. -/
def frameCount (range : PhysFrameRange) : ℕ := range.lenBytes / pageSize

def Contains (range : PhysFrameRange) (pa : PhysAddr) : Prop :=
  pa.val ≥ range.start.val ∧ pa.val < range.stop.val

instance (range : PhysFrameRange) (pa : PhysAddr) : Decidable (range.Contains pa) :=
  inferInstanceAs (Decidable (_ ∧ _))

/-- The half-open ranges overlap. -/
def Overlaps (a b : PhysFrameRange) : Prop :=
  a.start.val < b.stop.val ∧ b.start.val < a.stop.val

instance (a b : PhysFrameRange) : Decidable (a.Overlaps b) := inferInstanceAs (Decidable (_ ∧ _))

end PhysFrameRange

inductive PmmError
  | misalignedAddress
  | outOfRange
  | tooManyReservedRanges
  | overlappingReservedRanges
  | doubleFree
  deriving DecidableEq, Repr

structure PmmStats where
  totalFrames : ℕ
  reservedFrames : ℕ
  allocatedFrames : ℕ
  freeFrames : ℕ
  deriving DecidableEq, Repr

structure Pmm (N R : ℕ) where
  bitmap : Bitmap.Bytes
  extent : PhysFrameRange
  reservedRanges : ℕ → Option PhysFrameRange
  hint : ℕ
  freeCount : ℕ
  reservedCount : ℕ
  allocatedCount : ℕ

/-! ## Bitmap helpers -/

section Bits

variable [Build] {σ ε : Type} (N : ℕ)

def setBit (bitmap : Bitmap.Bytes) (idx : ℕ) : Prog σ ε Bitmap.Bytes := do
  debugAssert (idx / 8 < N) "set_bit: bitmap index out of range"
  if idx / 8 < N then return Bitmap.insert bitmap idx else Prog.panic .indexOutOfBounds

def readBit (bitmap : Bitmap.Bytes) (idx : ℕ) : Prog σ ε Bool := do
  debugAssert (idx / 8 < N) "read_bit: bitmap index out of range"
  if idx / 8 < N then return Bitmap.test bitmap idx else Prog.panic .indexOutOfBounds

def clearBit (bitmap : Bitmap.Bytes) (idx : ℕ) : Prog σ ε Bitmap.Bytes := do
  debugAssert (idx / 8 < N) "clear_bit: bitmap index out of range"
  if idx / 8 < N then return Bitmap.erase bitmap idx else Prog.panic .indexOutOfBounds

/-- `(lo..lo + n).find(|&idx| !read_bit(bitmap, idx))`. -/
def findClear (bitmap : Bitmap.Bytes) (lo : ℕ) : ℕ → Prog σ ε (Option ℕ)
  | 0 => return none
  | n + 1 => do
    if ← readBit N bitmap lo then findClear bitmap (lo + 1) n else return some lo

def firstZeroBit (bitmap : Bitmap.Bytes) (frameCount : ℕ) : Prog σ ε (Option ℕ) :=
  findClear N bitmap 0 frameCount

end Bits

namespace Pmm

variable {N R : ℕ}

/-- `self.reserved_ranges.iter().flatten()`. -/
def populated (pmm : Pmm N R) : List PhysFrameRange := (List.range R).filterMap pmm.reservedRanges

def stats (pmm : Pmm N R) : PmmStats where
  totalFrames := pmm.extent.frameCount
  reservedFrames := pmm.reservedCount
  allocatedFrames := pmm.allocatedCount
  freeFrames := pmm.freeCount

/-! ## Construction -/

section New

variable {σ : Type}

/-- The checks of one reserved range. -/
def checkRange (extent range : PhysFrameRange) : Prog σ PmmError Unit := do
  Prog.require range.IsAligned .misalignedAddress
  Prog.require
    (¬ (range.start.val < extent.start.val ∨ range.stop.val > extent.stop.val)) .outOfRange
  Prog.require (¬ range.stop.val < range.start.val) .outOfRange

def checkRanges (extent : PhysFrameRange) : List PhysFrameRange → Prog σ PmmError Unit
  | [] => return ()
  | range :: rest => do
    checkRange extent range
    checkRanges extent rest

variable [Build]

/-- `for off in off..off + n { set_bit(&mut bitmap, start_idx + off) }`. -/
def markFrames (N startIdx : ℕ) (off : ℕ) : ℕ → Bitmap.Bytes → Prog σ PmmError Bitmap.Bytes
  | 0, bitmap => return bitmap
  | n + 1, bitmap => do
    let bitmap ← setBit N bitmap (saturatingAdd startIdx off)
    markFrames N startIdx (off + 1) n bitmap

/-- What the loop over the reserved ranges has filled in so far. -/
structure Reserving where
  bitmap : Bitmap.Bytes
  reservedRanges : ℕ → Option PhysFrameRange
  reservedCount : ℕ

/-- The loop over the reserved ranges, from the position `idx` of the list on. -/
def reserveRanges (N R : ℕ) (extent : PhysFrameRange) (idx : ℕ) :
    List PhysFrameRange → Reserving → Prog σ PmmError Reserving
  | [], acc => return acc
  | range :: rest, acc => do
    let startIdx := (range.start.val - extent.start.val) / pageSize
    let framesInRange := range.frameCount
    let bitmap ← markFrames N startIdx 0 framesInRange acc.bitmap
    if idx < R then
      reserveRanges N R extent (idx + 1) rest
        { bitmap
          reservedRanges := Function.update acc.reservedRanges idx (some range)
          reservedCount := saturatingAdd acc.reservedCount framesInRange }
    else
      Prog.panic .indexOutOfBounds

def new (extent : PhysFrameRange) (reserved : List PhysFrameRange) :
    Prog σ PmmError (Pmm N R) := do
  Prog.require extent.IsAligned .misalignedAddress
  let totalFrames := extent.frameCount
  Prog.require (¬ totalFrames > saturatingMul N 8) .outOfRange
  Prog.require (¬ reserved.length > R) .tooManyReservedRanges
  checkRanges extent reserved
  Prog.require (reserved.Pairwise fun a b => ¬ a.Overlaps b) .overlappingReservedRanges
  let acc ← reserveRanges N R extent 0 reserved ⟨fun _ => 0, fun _ => none, 0⟩
  let first ← firstZeroBit N acc.bitmap totalFrames
  return {
    bitmap := acc.bitmap
    extent
    reservedRanges := acc.reservedRanges
    hint := first.getD totalFrames
    freeCount := totalFrames - acc.reservedCount
    reservedCount := acc.reservedCount
    allocatedCount := 0 }

end New

/-! ## Allocating and freeing -/

variable [Build]

/-- The forward scan from the hint, and the scan of what is before it. -/
def findFrame {σ ε : Type} (pmm : Pmm N R) : Prog σ ε (Option ℕ) := do
  let found ← findClear N pmm.bitmap pmm.hint (pmm.extent.frameCount - pmm.hint)
  if found = none ∧ pmm.hint > 0 then
    findClear N pmm.bitmap 0 pmm.hint
  else
    return found

def allocFrame {ε : Type} : Prog (Supply (Pmm N R)) ε (Option PhysFrame) := do
  let s ← Prog.get
  let pmm := s.frames
  match ← findFrame pmm with
  | none => return none
  | some idx =>
    let pa := saturatingAdd pmm.extent.start.val (saturatingMul idx pageSize)
    match PhysFrame.fromAligned ⟨pa⟩ with
    | none => return none
    | some frame =>
      let ptr ← physToKernelVa pa
      let bitmap ← setBit N pmm.bitmap idx
      Prog.set {
        frames := { pmm with
          bitmap
          hint := saturatingAdd idx 1
          freeCount := pmm.freeCount - 1
          allocatedCount := saturatingAdd pmm.allocatedCount 1 }
        memory := s.memory.zeroFrame (physOf ptr) }
      return some frame

def freeFrame (frame : PhysFrame) : Prog (Pmm N R) PmmError Unit := do
  let pmm ← Prog.get
  let pa := frame.addr
  Prog.require (pmm.extent.Contains pa) .outOfRange
  let idx := (pa.val - pmm.extent.start.val) / pageSize
  Prog.require (¬ ∃ range ∈ pmm.populated, range.Contains pa) .doubleFree
  let bit ← readBit N pmm.bitmap idx
  Prog.require (bit = true) .doubleFree
  let bitmap ← clearBit N pmm.bitmap idx
  Prog.set { pmm with
    bitmap
    hint := if idx < pmm.hint then idx else pmm.hint
    freeCount := saturatingAdd pmm.freeCount 1
    allocatedCount := pmm.allocatedCount - 1 }

end Pmm

end Tyrne
