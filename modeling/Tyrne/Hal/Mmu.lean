import Tyrne.Machine

/-!
# Addresses, frames and mapping flags

The vocabulary of the memory-management trait, and the direct map through which the
kernel reaches physical memory.
-/

namespace Tyrne

/-- `usize::wrapping_add`. -/
def wrappingAdd (a b : ℕ) : ℕ := (a + b) % 2 ^ 64

/-- `usize::wrapping_sub`. -/
def wrappingSub (a b : ℕ) : ℕ := (a + 2 ^ 64 - b) % 2 ^ 64

/-- `usize::checked_add`. -/
def checkedAdd (a b : ℕ) : Option ℕ := if a + b < 2 ^ 64 then some (a + b) else none

/-- `usize::saturating_add`. -/
def saturatingAdd (a b : ℕ) : ℕ := min (a + b) (2 ^ 64 - 1)

theorem wrappingAdd_eq {a b : ℕ} (hlt : a + b < 2 ^ 64) : wrappingAdd a b = a + b :=
  Nat.mod_eq_of_lt hlt

theorem wrappingSub_eq {a b : ℕ} (hle : b ≤ a) (hlt : a < 2 ^ 64) : wrappingSub a b = a - b := by
  unfold wrappingSub
  omega

theorem saturatingAdd_le (a b : ℕ) : saturatingAdd a b ≤ a + b := min_le_left _ _

/-- A saturated sum is the last address. -/
theorem saturatingAdd_cases (a b : ℕ) :
    saturatingAdd a b = a + b ∨ ∀ c < 2 ^ 64, c ≤ saturatingAdd a b := by
  by_cases hle : a + b ≤ 2 ^ 64 - 1
  · exact Or.inl (min_eq_left hle)
  · refine Or.inr fun c hc => ?_
    apply le_min
    · omega
    · exact Nat.le_sub_one_of_lt hc

def pageSize : ℕ := 4096

/-- `struct VirtAddr(usize)`. -/
structure VirtAddr where
  val : ℕ
  deriving DecidableEq, Repr

/-- `struct PhysAddr(usize)`. -/
structure PhysAddr where
  val : ℕ
  deriving DecidableEq, Repr

/-- A page-aligned physical frame. -/
structure PhysFrame where
  addr : PhysAddr
  aligned : addr.val % pageSize = 0
  deriving DecidableEq

def PhysFrame.fromAligned (addr : PhysAddr) : Option PhysFrame :=
  if h : addr.val % pageSize = 0 then some ⟨addr, h⟩ else none

def PhysFrame.asUsize (frame : PhysFrame) : ℕ := frame.addr.val

/-- `struct MappingFlags(u32)`. -/
structure MappingFlags where
  bits : BitVec 32
  deriving DecidableEq, Repr

namespace MappingFlags

def empty : MappingFlags := ⟨0⟩
def write : MappingFlags := ⟨1 <<< 0⟩
def execute : MappingFlags := ⟨1 <<< 1⟩
def user : MappingFlags := ⟨1 <<< 2⟩
def device : MappingFlags := ⟨1 <<< 3⟩
def global : MappingFlags := ⟨1 <<< 4⟩

/-- Every flag of `other` is set in `self`. -/
def contains (self other : MappingFlags) : Bool := self.bits &&& other.bits = other.bits

def union (self other : MappingFlags) : MappingFlags := ⟨self.bits ||| other.bits⟩

end MappingFlags

inductive MmuError
  | alreadyMapped
  | notMapped
  | misalignedAddress
  | outOfFrames
  | invalidFlags
  | blockMapped
  deriving DecidableEq, Repr

/-- The token of an edited address, to be discharged by a flush. -/
structure MapperFlush where
  virtAddr : VirtAddr
  deriving DecidableEq, Repr

/-! ## The direct map -/

/-- `KERNEL_HIGH_HALF_OFFSET` of the kernel build. -/
def kernelHighHalfOffset : ℕ := 0xFFFF_FFFF_0000_0000

/-- The direct map covers the physical addresses below this bound. -/
def directMapEnd : ℕ := 0x1_0000_0000

def physToKernelVa {σ ε : Type} (pa : ℕ) : Prog σ ε ℕ :=
  if pa < directMapEnd then
    return wrappingAdd kernelHighHalfOffset pa
  else
    Prog.panic (.assertion "phys_to_kernel_va: PA outside the low-4 GiB high-half direct map")

theorem physToKernelVa_pos {σ ε : Type} {pa : ℕ} (hpa : pa < directMapEnd) :
    (physToKernelVa pa : Prog σ ε ℕ) = pure (wrappingAdd kernelHighHalfOffset pa) := if_pos hpa

theorem physToKernelVa_neg {σ ε : Type} {pa : ℕ} (hpa : ¬ pa < directMapEnd) :
    (physToKernelVa pa : Prog σ ε ℕ) = Prog.panic
      (.assertion "phys_to_kernel_va: PA outside the low-4 GiB high-half direct map") := if_neg hpa

/-- Physical memory, a byte for each address. -/
abbrev Memory := ℕ → BitVec 8

/-- The physical address behind a kernel virtual address of the direct map. -/
def physOf (va : ℕ) : ℕ := wrappingSub va kernelHighHalfOffset

def kernelVaToPhys {σ ε : Type} (va : ℕ) : Prog σ ε ℕ :=
  if physOf va < directMapEnd then
    return physOf va
  else
    Prog.panic (.assertion "kernel_va_to_phys: VA outside the high-half direct-map window")

theorem kernelVaToPhys_pos {σ ε : Type} {va : ℕ} (hva : physOf va < directMapEnd) :
    (kernelVaToPhys va : Prog σ ε ℕ) = pure (physOf va) := if_pos hva

theorem kernelVaToPhys_neg {σ ε : Type} {va : ℕ} (hva : ¬ physOf va < directMapEnd) :
    (kernelVaToPhys va : Prog σ ε ℕ) = Prog.panic
      (.assertion "kernel_va_to_phys: VA outside the high-half direct-map window") := if_neg hva

theorem physOf_directMap {pa : ℕ} (hpa : pa < directMapEnd) :
    physOf (wrappingAdd kernelHighHalfOffset pa) = pa := by
  unfold physOf wrappingAdd wrappingSub kernelHighHalfOffset
  unfold directMapEnd at hpa
  omega

/-- Pages mapped to frames with flags. -/
abbrev PageMap := ℕ → Option (PhysFrame × MappingFlags)

/-- `&self` translation of the MMU for address spaces of type `AS`. -/
class Mmu (AS : Type) where
  translate : AS → VirtAddr → Prog Memory MmuError (PhysFrame × MappingFlags)

end Tyrne
