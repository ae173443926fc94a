import Tyrne.Hal.Mmu
import Tyrne.Obj.Kinds

/-!
# Address spaces

The kernel object that wraps the translation context of a task, generic in the address
space type `AS` of the MMU.
-/

namespace Tyrne

def addressSpaceArenaCapacity : ℕ := 8

structure AddressSpace (AS : Type) where
  inner : AS
  deriving DecidableEq, Repr

abbrev AddressSpaceArena (AS : Type) := Arena (AddressSpace AS) addressSpaceArenaCapacity

def getAddressSpace {AS : Type} (arena : AddressSpaceArena AS) (handle : AddressSpaceHandle) :
    Option (AddressSpace AS) :=
  arena.get handle.slot

end Tyrne
