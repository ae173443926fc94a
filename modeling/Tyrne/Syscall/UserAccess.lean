import Tyrne.Hal.Frames
import Tyrne.Syscall.Error

/-!
# Access to user memory

A request for `[ptr, ptr + len)` passes two gates before a byte moves: the window of the
task, a cheap range check, and a translation of every page through the task's own
address space. Both copies probe all pages first and move bytes only afterwards.
-/

namespace Tyrne

/-- The user-accessible range `[base, base + len)` of the active address space. -/
structure UserAccessWindow where
  base : ℕ
  len : ℕ
  deriving DecidableEq, Repr

namespace UserAccessWindow

/-- The window that accepts only zero-length accesses. -/
def empty : UserAccessWindow := ⟨0, 0⟩

def validate {σ : Type} (self : UserAccessWindow) (ptr len : ℕ) : Prog σ SyscallError Unit :=
  if len = 0 then
    return ()
  else do
    let stop ← Prog.okOr (checkedAdd ptr len) .faultAddress
    let windowEnd ← Prog.okOr (checkedAdd self.base self.len) .faultAddress
    Prog.require (ptr ≥ self.base ∧ stop ≤ windowEnd) .faultAddress

theorem validate_keeps {σ : Type} (self : UserAccessWindow) (ptr len : ℕ) :
    (self.validate ptr len : Prog σ SyscallError Unit).Keeps id := by
  unfold validate
  refine Prog.Keeps.ite (Prog.keeps_pure _) ?_
  refine (Prog.keeps_okOr _ _).bind fun stop => ?_
  exact (Prog.keeps_okOr _ _).bind fun windowEnd => Prog.keeps_require _ _

end UserAccessWindow

/-- `va & !PAGE_MASK`. -/
def pageBase (va : ℕ) : ℕ := va - va % pageSize

/-- A kernel buffer and the physical memory it is copied from or to. -/
structure UserCopy where
  memory : Memory
  buffer : List (BitVec 8)

/-- `bytes` written over the part of `buffer` that starts at `off`. -/
def splice (buffer : List (BitVec 8)) (off : ℕ) (bytes : List (BitVec 8)) : List (BitVec 8) :=
  buffer.take off ++ bytes ++ buffer.drop (off + bytes.length)

variable {AS : Type} [Mmu AS]

/-- `mmu.translate(task_as, VirtAddr(page)).map_err(|_| SyscallError::FaultAddress)`. -/
def translatePage (taskAs : AS) (page : ℕ) :
    Prog Memory SyscallError (PhysFrame × MappingFlags) :=
  Prog.zoom id (fun m _ => m) (fun _ => .faultAddress) (Mmu.translate taskAs ⟨page⟩)

/-- One page of `probeUserPages`. It returns the page to go on from. -/
def probePage (taskAs : AS) (requireWrite : Bool) (page : ℕ) : Prog Memory SyscallError ℕ := do
  let (_, flags) ← translatePage taskAs page
  Prog.require (flags.contains .user) .faultAddress
  Prog.require (¬ (requireWrite ∧ ¬ flags.contains .write)) .faultAddress
  return saturatingAdd page pageSize

/-- Resolve every page of `[userPtr, userPtr + len)` and check its permissions. -/
def probeUserPages (taskAs : AS) (userPtr len : ℕ) (requireWrite : Bool) :
    Prog Memory SyscallError Unit := do
  let stop ← Prog.okOr (checkedAdd userPtr len) .faultAddress
  let _ ← Prog.loop (· < stop) (probePage taskAs requireWrite) (len + 1) (pageBase userPtr)
  return ()

def onMemory {α : Type} (m : Prog Memory SyscallError α) : Prog UserCopy SyscallError α :=
  Prog.zoom UserCopy.memory (fun memory s => { s with memory }) id m

/-- One step of the copy loop of `copyFromUser`: the part of the range in the page of
`cur`. It returns the address to go on from. -/
def copyFromPage (taskAs : AS) (userPtr stop cur : ℕ) : Prog UserCopy SyscallError ℕ := do
  let inPage := wrappingSub cur (pageBase cur)
  let pageRemaining := wrappingSub pageSize inPage
  let run := min pageRemaining (wrappingSub stop cur)
  let (frame, flags) ← onMemory (translatePage taskAs (pageBase cur))
  Prog.require (flags.contains .user) .faultAddress
  let dstOff := wrappingSub cur userPtr
  let kptr ← physToKernelVa frame.asUsize
  Prog.modify fun s => { s with
    buffer := splice s.buffer dstOff (s.memory.readBytes (physOf kptr + inPage) run) }
  Prog.okOr (checkedAdd cur run) .faultAddress

/-- One step of the copy loop of `copyToUser`. -/
def copyToPage (taskAs : AS) (userPtr stop cur : ℕ) : Prog UserCopy SyscallError ℕ := do
  let inPage := wrappingSub cur (pageBase cur)
  let pageRemaining := wrappingSub pageSize inPage
  let run := min pageRemaining (wrappingSub stop cur)
  let (frame, flags) ← onMemory (translatePage taskAs (pageBase cur))
  Prog.require (flags.contains .user ∧ flags.contains .write) .faultAddress
  let srcOff := wrappingSub cur userPtr
  let kptr ← physToKernelVa frame.asUsize
  Prog.modify fun s => { s with
    memory := s.memory.writeBytes (physOf kptr + inPage) ((s.buffer.drop srcOff).take run) }
  Prog.okOr (checkedAdd cur run) .faultAddress

/-- Fill the kernel buffer from user memory at `userPtr`. -/
def copyFromUser (taskAs : AS) (window : UserAccessWindow) (userPtr : ℕ) :
    Prog UserCopy SyscallError Unit := do
  let s ← Prog.get
  let len := s.buffer.length
  window.validate userPtr len
  if len = 0 then
    return ()
  else
    onMemory (probeUserPages taskAs userPtr len false)
    let stop ← Prog.okOr (checkedAdd userPtr len) .faultAddress
    let _ ← Prog.loop (· < stop) (copyFromPage taskAs userPtr stop) (len + 1) userPtr
    return ()

/-- Copy the kernel buffer to user memory at `userPtr`. -/
def copyToUser (taskAs : AS) (window : UserAccessWindow) (userPtr : ℕ) :
    Prog UserCopy SyscallError Unit := do
  let s ← Prog.get
  let len := s.buffer.length
  window.validate userPtr len
  if len = 0 then
    return ()
  else
    onMemory (probeUserPages taskAs userPtr len true)
    let stop ← Prog.okOr (checkedAdd userPtr len) .faultAddress
    let _ ← Prog.loop (· < stop) (copyToPage taskAs userPtr stop) (len + 1) userPtr
    return ()

end Tyrne
