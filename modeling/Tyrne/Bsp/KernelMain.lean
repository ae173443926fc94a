import Tyrne.Bsp.Interrupts
import Tyrne.Bsp.MmuBootstrap
import Tyrne.Bsp.ProcessImage
import Tyrne.Bsp.Runs
import Tyrne.Library.Returns
import Tyrne.Obj.TaskCreate

/-!
# The bring-up of the kernel

`kernel_main_high`, from the point where TTBR0 is free to the first dispatch: the memory
manager, the bootstrap address space, the image of the user task, the interrupt controller, the
tasks, the endpoint of the demonstration and the scheduler. The memory manager has the frames
above the boot stack, and where these are enough for it the load goes through.
-/

namespace Tyrne

/-! ## Constants and statics -/

def pmmExtentStart : ℕ := 0x4000_0000
def pmmExtentEnd : ℕ := 0x4800_0000
def kernelImageStart : ℕ := 0x4008_0000

def pmmBitmapBytes : ℕ := divCeil ((pmmExtentEnd - pmmExtentStart) / pageSize) 8
def pmmReservedRanges : ℕ := 8

abbrev BspPmm := Pmm pmmBitmapBytes pmmReservedRanges

def userspaceImageBaseVa : VirtAddr := ⟨0x0080_0000⟩
def userspaceStackPages : ℕ := 1

def bootstrapAddressSpaceHandle : AddressSpaceHandle := ⟨.firstSlot⟩

/-- `HELLO_CONSOLE_CAP` of the user library. -/
def helloConsoleCap : CapHandle := ⟨0, 0⟩

/-- The addresses of the linker's symbols, of the statics and of the functions that
`kernel_main_high` takes. -/
structure KernelSymbols where
  stackTop : ℕ
  bootPtL0 : ℕ
  userspaceImage : ImageSlice
  taskA : ℕ
  taskB : ℕ
  idleEntry : ℕ
  taskAStack : ℕ
  taskBStack : ℕ
  taskIdleStack : ℕ
  userTaskStack : ℕ
  failclosedTable : TablePtr
  tableA : TablePtr
  tableB : TablePtr
  userTaskTable : TablePtr

/-- `TaskStack::top`. -/
def taskStackTop (stack : ℕ) : ℕ := stack + 4096

/-- The statics. What the source builds in a local variable and then publishes is built in its
static. -/
structure Statics where
  memory : Memory
  console : List (BitVec 8)
  irq : IrqCore
  bootNs : BitVec 64
  pmm : BspPmm
  asArena : AddressSpaceArena QemuVirtAddressSpace
  bootstrapAs : QemuVirtAddressSpace
  bootstrapAsCap : CapHandle
  bootstrapAsTable : CapabilityTable
  taskArena : TaskArena
  epArena : EndpointArena
  ipcQueues : IpcQueues
  failclosedTable : CapabilityTable
  tableA : CapabilityTable
  tableB : CapabilityTable
  userTaskTable : CapabilityTable
  epCapA : CapHandle
  epCapB : CapHandle
  sched : Scheduler
  core : Core

namespace Statics

/-- The table at an address. -/
def tableAt (sym : KernelSymbols) (s : Statics) (ptr : TablePtr) : CapabilityTable :=
  if ptr = sym.tableA then s.tableA
  else if ptr = sym.tableB then s.tableB
  else if ptr = sym.userTaskTable then s.userTaskTable
  else if ptr = sym.failclosedTable then s.failclosedTable
  else CapabilityTable.new

/-- The IPC objects; there are no notifications. -/
def ipc (sym : KernelSymbols) (s : Statics) : IpcSystem TablePtr where
  tables := s.tableAt sym
  epArena := s.epArena
  notifArena := Arena.new
  queues := s.ipcQueues

def kernel (sym : KernelSymbols) (s : Statics) : Kernel := ⟨s.sched, s.core, s.ipc sym⟩

/-- What the loader works on. -/
def spaces (s : Statics) : Spaces QemuVirtAddressSpace (Supply BspPmm) :=
  ⟨s.bootstrapAsTable, s.asArena, ⟨s.pmm, s.memory⟩⟩

def setSpaces (x : Spaces QemuVirtAddressSpace (Supply BspPmm)) (s : Statics) : Statics :=
  { s with
    bootstrapAsTable := x.table
    asArena := x.arena
    pmm := x.machine.frames
    memory := x.machine.memory }

def taskTables (s : Statics) : TaskTables := ⟨s.bootstrapAsTable, s.taskArena⟩

end Statics

abbrev MainM := Prog Statics SchedError

namespace MainM

variable {ε α : Type}

def onIrq (m : IrqM ε α) : Prog Statics ε α :=
  Prog.zoom Statics.irq (fun irq s => { s with irq }) id m

def onSpaces (m : Prog (Spaces QemuVirtAddressSpace (Supply BspPmm)) ε α) : Prog Statics ε α :=
  Prog.zoom Statics.spaces Statics.setSpaces id m

def onAsArena (m : Prog (AddressSpaceArena QemuVirtAddressSpace) ε α) : Prog Statics ε α :=
  Prog.zoom Statics.asArena (fun asArena s => { s with asArena }) id m

def onBootstrapAsTable (m : TableM α) : Prog Statics CapError α :=
  Prog.zoom Statics.bootstrapAsTable (fun bootstrapAsTable s => { s with bootstrapAsTable }) id m

def onTaskArena (m : Prog TaskArena ε α) : Prog Statics ε α :=
  Prog.zoom Statics.taskArena (fun taskArena s => { s with taskArena }) id m

def onTaskTables (m : Prog TaskTables ε α) : Prog Statics ε α :=
  Prog.zoom Statics.taskTables
    (fun x s => { s with bootstrapAsTable := x.table, taskArena := x.tasks }) id m

def onEpArena (m : Prog EndpointArena ε α) : Prog Statics ε α :=
  Prog.zoom Statics.epArena (fun epArena s => { s with epArena }) id m

def onTableA (m : TableM α) : Prog Statics CapError α :=
  Prog.zoom Statics.tableA (fun tableA s => { s with tableA }) id m

def onTableB (m : TableM α) : Prog Statics CapError α :=
  Prog.zoom Statics.tableB (fun tableB s => { s with tableB }) id m

def onUserTaskTable (m : TableM α) : Prog Statics CapError α :=
  Prog.zoom Statics.userTaskTable (fun userTaskTable s => { s with userTaskTable }) id m

def onSched (m : Scheduler.SchedM α) : MainM α :=
  Prog.zoom Statics.sched (fun sched s => { s with sched }) id m

/-- `Option::expect`. -/
def expectSome (o : Option α) (message : String) : MainM α :=
  (Prog.okOr o () : Prog Statics Unit α).expect message

end MainM

open MainM

/-! ## The console -/

/-- The bytes of a `str`. -/
def strBytes (s : String) : List (BitVec 8) := s.toUTF8.data.toList.map UInt8.toBitVec

/-- `{:x}`. -/
def lowerHex (n : ℕ) : String := String.ofList (Nat.toDigits 16 n)

/-- `writeln!`. -/
def writeLine (line : String) : MainM Unit :=
  Prog.modify fun s => { s with console := s.console ++ strBytes (line ++ "\n") }

/-! ## The phases -/

/-- `stack_top_addr.saturating_add(PAGE_SIZE - 1) & !(PAGE_SIZE - 1)`. -/
def alignUp (addr : ℕ) : ℕ := saturatingAdd addr (pageSize - 1) / pageSize * pageSize

/-- The firmware's region, and the kernel image up to the boot stack. -/
def pmmReserved (stackTopAlignedUp : ℕ) : List PhysFrameRange := [
  ⟨⟨pmmExtentStart⟩, ⟨kernelImageStart⟩⟩,
  ⟨⟨kernelImageStart⟩, ⟨stackTopAlignedUp⟩⟩]

section Phases

variable [Build]

/-- The line about the memory manager. -/
def pmmLine (pmmStats : PmmStats) : String :=
  let free := pmmStats.freeFrames
  let reserved := pmmStats.reservedFrames
  s!"tyrne: pmm initialized ({free} frames available; {reserved} reserved)"

/-- PMM init. -/
def initPmm (sym : KernelSymbols) : MainM Unit := do
  let stackTopAddr ← kernelVaToPhys sym.stackTop
  let pmm ← (Pmm.new pmmExtent (pmmReserved (alignUp stackTopAddr)) :
    Prog Statics PmmError BspPmm).expect
      "Pmm::new — BSP-static config; reservation list is well-formed by construction"
  Prog.modify fun s => { s with pmm }
  writeLine (pmmLine pmm.stats)

/-- The line about the address spaces, for the root of the bootstrap space. -/
def addressSpacesLine (bootstrapRootPa : ℕ) : String :=
  let pa := lowerHex bootstrapRootPa
  s!"tyrne: address-space-arena ready (1 / {addressSpaceArenaCapacity} slots used; " ++
    s!"bootstrap AS root = 0x{pa})"

/-- Address-space arena init. -/
def initAddressSpaces (sym : KernelSymbols) : MainM Unit := do
  Prog.modify fun s => { s with asArena := Arena.new }
  let pa ← kernelVaToPhys sym.bootPtL0
  let l0Root ← expectSome (PhysFrame.fromAligned ⟨pa⟩)
    "L0 root must be 4 KiB-aligned per linker.ld `.boot_pt` reservation"
  let bootstrapRootPa := l0Root.asUsize
  Prog.modify fun s => { s with bootstrapAs := ⟨l0Root⟩ }
  let bootstrapAsHandle ← (onAsArena (createAddressSpace ⟨⟨l0Root⟩⟩)).expect
    "bootstrap AS allocation in empty arena cannot fail"
  Prog.modify fun s => { s with bootstrapAsTable := CapabilityTable.new }
  let bootstrapAsCap ← (onBootstrapAsTable (CapabilityTable.insertRoot
    ⟨((CapRights.duplicate.union .derive).union .revoke).union .transfer,
      .addressSpace bootstrapAsHandle⟩)).expect
    "bootstrap AS cap mint in empty table cannot fail"
  Prog.modify fun s => { s with bootstrapAsCap }
  writeLine (addressSpacesLine bootstrapRootPa)

/-- The load of the user image. -/
def loadUserspaceImage (sym : KernelSymbols) : MainM LoadedImage := do
  let parentCap := (← Prog.get).bootstrapAsCap
  (onSpaces (loadImage sym.userspaceImage parentCap .empty userspaceImageBaseVa
    userspaceStackPages)).expect "task_loader::load_image failed on BSP smoke"

/-- The tasks, and the address space of the user task. -/
structure BootTasks where
  a : TaskHandle
  b : TaskHandle
  idle : TaskHandle
  user : TaskHandle
  userAs : AddressSpaceHandle

/-- Kernel-object setup. -/
def createTasks (loaded : LoadedImage) : MainM BootTasks := do
  Prog.modify fun s => { s with taskArena := Arena.new }
  let a ← (onTaskArena (createTask ⟨0, bootstrapAddressSpaceHandle⟩)).expect "create_task A failed"
  let b ← (onTaskArena (createTask ⟨1, bootstrapAddressSpaceHandle⟩)).expect "create_task B failed"
  let idle ← (onTaskArena (createTask ⟨2, bootstrapAddressSpaceHandle⟩)).expect
    "create_task idle failed"
  let asCap ← (onBootstrapAsTable (CapabilityTable.lookup loaded.asCap)).expect
    "EL0 task: loaded AS cap is stale"
  let userAs ← match asCap.object with
    | .addressSpace h => pure h
    | _ => Prog.panic (.explicit "EL0 task: loaded.as_cap is not an AddressSpace cap")
  let taskCap ← (onTaskTables (taskCreateFromImage loaded 3
    ((CapRights.duplicate.union .derive).union .revoke))).expect
    "EL0 task: task_create_from_image failed"
  let taskCap ← (onBootstrapAsTable (CapabilityTable.lookup taskCap)).expect
    "EL0 task: minted Task cap is stale"
  let user ← match taskCap.object with
    | .task h => pure h
    | _ => Prog.panic (.explicit "EL0 task: task_create_from_image returned a non-Task cap")
  return ⟨a, b, idle, user, userAs⟩

/-- IPC infrastructure. -/
def initIpc : MainM Unit := do
  Prog.modify fun s => { s with epArena := Arena.new }
  let epHandle ← (onEpArena (createEndpoint ⟨0⟩)).expect "create_endpoint failed"
  let epRights := CapRights.send.union .recv
  Prog.modify fun s => { s with tableA := CapabilityTable.new, tableB := CapabilityTable.new }
  let epCapA ← (onTableA (CapabilityTable.insertRoot ⟨epRights, .endpoint epHandle⟩)).expect
    "table A: insert_root failed"
  let epCapB ← (onTableB (CapabilityTable.insertRoot ⟨epRights, .endpoint epHandle⟩)).expect
    "table B: insert_root failed"
  Prog.modify fun s => { s with userTaskTable := CapabilityTable.new }
  let consoleCap ← (onUserTaskTable (CapabilityTable.insertRoot
    ⟨.consoleWrite, .debugConsole⟩)).expect "EL0 task: console cap insert_root failed"
  assertThat (consoleCap.index = 0 ∧ consoleCap.generation = 0)
    ("EL0 task: DebugConsole cap must resolve to HELLO_CONSOLE_CAP (index 0, generation 0)")
  Prog.modify fun s => { s with
    ipcQueues := IpcQueues.new
    failclosedTable := CapabilityTable.new
    epCapA
    epCapB }

/-- Scheduler setup. -/
def initScheduler (sym : KernelSymbols) (loaded : LoadedImage) (tasks : BootTasks) :
    MainM Unit := do
  Prog.modify fun s => { s with sched := Scheduler.new }
  (onSched (Scheduler.addTask tasks.b bootstrapAddressSpaceHandle sym.taskB
    (taskStackTop sym.taskBStack))).expect "add_task B failed: queue full or arena exhausted"
  (onSched (Scheduler.addTask tasks.a bootstrapAddressSpaceHandle sym.taskA
    (taskStackTop sym.taskAStack))).expect "add_task A failed: queue full or arena exhausted"
  (onSched (Scheduler.addUserTask tasks.user tasks.userAs loaded.entryVa.val
    loaded.stackTopVa.val (taskStackTop sym.userTaskStack) sym.userTaskTable)).expect
    "add_user_task (EL0 hello) failed: queue full or arena exhausted"
  onSched (Scheduler.registerIdle tasks.idle bootstrapAddressSpaceHandle sym.idleEntry
    (taskStackTop sym.taskIdleStack))

/-- The line about the timer. -/
def timerLine (cpu : QemuVirtCpu) : String :=
  let hz := cpu.frequencyHz.toNat
  let resolution := cpu.resolutionNs.toNat
  s!"tyrne: timer ready ({hz} Hz, resolution {resolution} ns)"

/-- From the interrupt controller to the first dispatch. -/
def startKernel (sym : KernelSymbols) (cpu : QemuVirtCpu) (loaded : LoadedImage) : MainM Unit := do
  onIrq startInterrupts
  writeLine (timerLine cpu)
  let tasks ← createTasks loaded
  initIpc
  initScheduler sym loaded tasks
  writeLine "tyrne: starting cooperative scheduler"
  -- `start` leaves the IPC objects alone
  Prog.zoom (Statics.kernel sym) (fun k s => { s with sched := k.sched, core := k.core }) id
    Kernel.start

/-- `kernel_main_high` after TTBR0 was freed, at the given exception level and with the value
of the frequency register. -/
def kernelMainHigh (sym : KernelSymbols) (currentEl : Fin 4) (cntfrq : BitVec 64) : MainM Unit := do
  let cpu ← onIrq (QemuVirtCpu.new currentEl cntfrq)
  writeLine "tyrne: high-half active"
  let bootNs ← onIrq cpu.nowNs
  Prog.modify fun s => { s with bootNs }
  initPmm sym
  initAddressSpaces sym
  let loaded ← loadUserspaceImage sym
  startKernel sym cpu loaded

end Phases

/-! ## Steps -/

open Radix Tree Spaces LoaderM CapabilityTable MainM Prog

section Fresh

variable [Build] {T ε : Type} {N : ℕ} {a : Arena T N} {head : Index}

/-- With a slot free an allocation takes it. -/
theorem allocate_head (hwf : a.WellFormed) (hhead : a.freeHead = some head) (value : T) :
    (Arena.allocate value : Prog (Arena T N) ε _).run a =
      .ok (some ⟨head, (a.slots head).generation⟩) (a.allocated head value) := by
  rcases hwf.allocate_run (ε := ε) value with ⟨hfull, _⟩ | ⟨head', _, hhead', hrun⟩
  · exact absurd (hwf.head_vacant hhead) (hfull head)
  · rw [hhead] at hhead'
    cases hhead'
    exact hrun

theorem createTask_head {tasks : TaskArena} (hwf : tasks.WellFormed)
    (hhead : tasks.freeHead = some head) (task : Task) : Returns (createTask task) tasks
      ⟨⟨head, (tasks.slots head).generation⟩⟩ (tasks.allocated head task) :=
  Prog.bind_ok (allocate_head hwf hhead task)

theorem createEndpoint_head {endpoints : EndpointArena} (hwf : endpoints.WellFormed)
    (hhead : endpoints.freeHead = some head) (endpoint : Endpoint) :
    Returns (createEndpoint endpoint) endpoints
      ⟨⟨head, (endpoints.slots head).generation⟩⟩ (endpoints.allocated head endpoint) :=
  Prog.bind_ok (allocate_head hwf hhead endpoint)

theorem createAddressSpace_head {AS : Type} {spaces : AddressSpaceArena AS}
    (hwf : spaces.WellFormed) (hhead : spaces.freeHead = some head) (space : AddressSpace AS) :
    Returns (createAddressSpace space) spaces
      ⟨⟨head, (spaces.slots head).generation⟩⟩ (spaces.allocated head space) :=
  Prog.bind_ok (allocate_head hwf hhead space)

omit [Build] in
theorem insertRoot_head {t : CapabilityTable} (hwf : t.WellFormed) (hhead : t.freeHead = some head)
    (cap : Capability) : Returns (insertRoot cap) t
      ⟨head, (t.slots head).generation⟩ (t.installed head (rootEntry cap)) := by
  rcases insertRoot_run hwf cap with ⟨hfull, _⟩ | ⟨n, hn, hrun⟩
  · rw [hhead] at hfull
    cases hfull
  · rw [hhead] at hn
    cases hn
    exact hrun

end Fresh

/-- The capability of the bootstrap address space. -/
def bootstrapCap : Capability :=
  ⟨((CapRights.duplicate.union .derive).union .revoke).union .transfer,
    .addressSpace bootstrapAddressSpaceHandle⟩

/-- The table after the bootstrap address space. -/
def bootstrapTable : CapabilityTable := CapabilityTable.new.installed 0 (rootEntry bootstrapCap)

theorem bootstrapTable_wellFormed : bootstrapTable.WellFormed :=
  new_wellFormed.installed rfl (rootEntry_leaf _ _)

/-- The arena of address spaces with the bootstrap address space. -/
def bootstrapArena (l0Root : PhysFrame) : AddressSpaceArena QemuVirtAddressSpace :=
  Arena.new.allocated 0 ⟨⟨l0Root⟩⟩

theorem bootstrapArena_wellFormed (l0Root : PhysFrame) : (bootstrapArena l0Root).WellFormed :=
  (Arena.new_wellFormed (by decide)).allocated rfl

theorem returns_expectSome {α : Type} {o : Option α} {a : α} (h : o = some a) (message : String)
    (s : Statics) : Returns (expectSome o message) s a s := by
  subst h
  rfl

theorem returns_kernelVaToPhys {σ ε : Type} {va : ℕ} (hva : physOf va < directMapEnd) (s : σ) :
    Returns (kernelVaToPhys va : Prog σ ε ℕ) s (physOf va) s := by
  unfold Returns
  rw [kernelVaToPhys_pos hva]
  rfl

section Zooms

variable {ε α : Type} {s : Statics} {a : α}

theorem returns_onIrq {m : IrqM ε α} {irq : IrqCore} (h : Returns m s.irq a irq) :
    Returns (onIrq m) s a { s with irq } := Prog.zoom_ok h

theorem returns_onSpaces {m : Prog (Spaces QemuVirtAddressSpace (Supply BspPmm)) ε α}
    {x : Spaces QemuVirtAddressSpace (Supply BspPmm)} (h : Returns m s.spaces a x) :
    Returns (onSpaces m) s a (s.setSpaces x) := Prog.zoom_ok h

theorem returns_onAsArena {m : Prog (AddressSpaceArena QemuVirtAddressSpace) ε α}
    {asArena : AddressSpaceArena QemuVirtAddressSpace} (h : Returns m s.asArena a asArena) :
    Returns (onAsArena m) s a { s with asArena } := Prog.zoom_ok h

theorem returns_onBootstrapAsTable {m : TableM α} {t : CapabilityTable}
    (h : Returns m s.bootstrapAsTable a t) :
    Returns (onBootstrapAsTable m) s a { s with bootstrapAsTable := t } := Prog.zoom_ok h

theorem returns_onTaskArena {m : Prog TaskArena ε α} {taskArena : TaskArena}
    (h : Returns m s.taskArena a taskArena) :
    Returns (onTaskArena m) s a { s with taskArena } := Prog.zoom_ok h

theorem returns_onTaskTables {m : Prog TaskTables ε α} {x : TaskTables}
    (h : Returns m s.taskTables a x) :
    Returns (onTaskTables m) s a { s with bootstrapAsTable := x.table, taskArena := x.tasks } :=
  Prog.zoom_ok h

theorem returns_onEpArena {m : Prog EndpointArena ε α} {epArena : EndpointArena}
    (h : Returns m s.epArena a epArena) : Returns (onEpArena m) s a { s with epArena } :=
  Prog.zoom_ok h

theorem returns_onTableA {m : TableM α} {t : CapabilityTable} (h : Returns m s.tableA a t) :
    Returns (onTableA m) s a { s with tableA := t } := Prog.zoom_ok h

theorem returns_onTableB {m : TableM α} {t : CapabilityTable} (h : Returns m s.tableB a t) :
    Returns (onTableB m) s a { s with tableB := t } := Prog.zoom_ok h

theorem returns_onUserTaskTable {m : TableM α} {t : CapabilityTable}
    (h : Returns m s.userTaskTable a t) :
    Returns (onUserTaskTable m) s a { s with userTaskTable := t } := Prog.zoom_ok h

theorem returns_onSched {m : Scheduler.SchedM α} {sched : Scheduler}
    (h : Returns m s.sched a sched) : Returns (onSched m) s a { s with sched } := Prog.zoom_ok h

end Zooms

/-- What the linker and the build of the image promise. -/
structure KernelSymbols.Linked (sym : KernelSymbols) : Prop where
  stackTop : kernelImageStart ≤ physOf sym.stackTop
  memory : alignUp (physOf sym.stackTop) + framesNeeded userspaceImageBaseVa
    sym.userspaceImage.pages userspaceStackPages * pageSize ≤ pmmExtentEnd
  bootPtL0 : physOf sym.bootPtL0 < directMapEnd ∧ physOf sym.bootPtL0 % pageSize = 0
  nonempty : 0 < sym.userspaceImage.len
  imageStart : kernelImageStart ≤ physOf sym.userspaceImage.ptr
  imageEnd : physOf sym.userspaceImage.ptr + sym.userspaceImage.len ≤ physOf sym.stackTop
  userStack : taskStackTop sym.userTaskStack % 16 = 0
  userTable : sym.userTaskTable ≠ 0
  tables : [sym.tableA, sym.tableB, sym.userTaskTable, sym.failclosedTable].Nodup

/-! ## The memory manager -/

section Memory

variable {sym : KernelSymbols} {addr top : ℕ}

theorem alignUp_spec (hfits : alignUp addr ≤ pmmExtentEnd) :
    alignUp addr % pageSize = 0 ∧ addr ≤ alignUp addr ∧ alignUp addr < addr + pageSize := by
  unfold alignUp saturatingAdd pageSize pmmExtentEnd at *
  omega

/-- The reserved regions of the board, up to a page. -/
theorem board_accepts (haligned : top % pageSize = 0) (hstart : kernelImageStart ≤ top)
    (hstop : top ≤ pmmExtentEnd) :
    Accepts pmmBitmapBytes pmmReservedRanges pmmExtent (pmmReserved top) where
  aligned := by decide
  covered := by decide
  capacity := show 2 ≤ 8 by decide
  within range hrange := by
    rcases List.mem_pair.mp hrange with rfl | rfl
    · exact ⟨by decide, by decide, by decide, by decide⟩
    · exact ⟨⟨show kernelImageStart % pageSize = 0 by decide, haligned⟩,
        show pmmExtentStart ≤ kernelImageStart by decide, hstop, hstart⟩
  disjoint := by
    refine List.pairwise_pair.mpr ?_
    unfold PhysFrameRange.Overlaps
    dsimp only
    omega

/-- What is left over lies above the boot stack. -/
theorem board_usable (haligned : top % pageSize = 0) (hstart : kernelImageStart ≤ top)
    (hstop : top ≤ pmmExtentEnd) :
    usableFrames pmmExtent (pmmReserved top) =
      (⟨⟨top⟩, ⟨pmmExtentEnd⟩⟩ : PhysFrameRange).frames := by
  ext a
  have hextent : pmmExtent.IsAligned := by decide
  have hrange : (⟨⟨top⟩, ⟨pmmExtentEnd⟩⟩ : PhysFrameRange).IsAligned :=
    ⟨haligned, show pmmExtentEnd % pageSize = 0 by decide⟩
  rw [mem_usableFrames, PhysFrameRange.mem_frames hextent, PhysFrameRange.mem_frames hrange]
  unfold Reserved pmmReserved
  simp only [List.mem_pair, exists_eq_or_imp, exists_eq_left]
  unfold PhysFrameRange.Contains pmmExtent
  unfold kernelImageStart at *
  unfold pmmExtentEnd pmmExtentStart at *
  dsimp only
  omega

/-- The reserved regions when the boot stack ends at `sym.stackTop`. -/
def KernelSymbols.reserved (sym : KernelSymbols) : List PhysFrameRange :=
  pmmReserved (alignUp (physOf sym.stackTop))

theorem pmmExtent_window : pmmExtent.stop.val ≤ directMapEnd := by decide

namespace KernelSymbols.Linked

variable [Build] (h : sym.Linked)
include h

omit [Build] in
theorem stackEnd : alignUp (physOf sym.stackTop) % pageSize = 0 ∧
    physOf sym.stackTop ≤ alignUp (physOf sym.stackTop) ∧
    alignUp (physOf sym.stackTop) ≤ pmmExtentEnd := by
  have hmemory := h.memory
  have hle : alignUp (physOf sym.stackTop) ≤ pmmExtentEnd := by omega
  obtain ⟨haligned, hup, _⟩ := alignUp_spec hle
  exact ⟨haligned, hup, hle⟩

omit [Build] in
theorem accepts : Accepts pmmBitmapBytes pmmReservedRanges pmmExtent sym.reserved :=
  board_accepts h.stackEnd.1 (Nat.le_trans h.stackTop h.stackEnd.2.1) h.stackEnd.2.2

omit [Build] in
theorem usable : usableFrames pmmExtent sym.reserved =
    (⟨⟨alignUp (physOf sym.stackTop)⟩, ⟨pmmExtentEnd⟩⟩ : PhysFrameRange).frames :=
  board_usable h.stackEnd.1 (Nat.le_trans h.stackTop h.stackEnd.2.1) h.stackEnd.2.2

/-- The memory manager has the frames above the boot stack. -/
theorem initPmm_run (s : Statics) : ∃ pmm console,
    Returns (initPmm sym) s () { s with pmm, console } ∧
      Models pmmExtent sym.reserved pmm (freshAllocator pmmExtent sym.reserved) := by
  have hwindow : physOf sym.stackTop < directMapEnd := by
    have htop := h.stackEnd
    unfold pmmExtentEnd at htop
    unfold directMapEnd
    omega
  obtain ⟨pmm, hrun, hmodels⟩ := new_ok h.accepts pmmExtent_window s
  have hnew : Returns (Pmm.new pmmExtent sym.reserved :
      Prog Statics PmmError BspPmm) s pmm s := hrun
  refine ⟨pmm, s.console ++ strBytes (pmmLine pmm.stats ++ "\n"), ?_, hmodels⟩
  unfold initPmm
  refine .bind (returns_kernelVaToPhys hwindow _) ?_
  refine .bind (.expect hnew _) ?_
  refine .bind (.modify _) ?_
  exact .modify _

omit [Build] in
/-- The frames of a load fit. -/
theorem budget {pmm : BspPmm}
    (hmodels : Models pmmExtent sym.reserved pmm (freshAllocator pmmExtent sym.reserved)) :
    framesNeeded userspaceImageBaseVa sym.userspaceImage.pages userspaceStackPages ≤
      pmm.freeCount := by
  have hmemory := h.memory
  have hcount : pmm.freeCount = (pmmExtentEnd - alignUp (physOf sym.stackTop)) / pageSize := by
    have hfresh : (freshAllocator pmmExtent sym.reserved).available =
        usableFrames pmmExtent sym.reserved := Finset.sdiff_empty
    rw [hmodels.freeCount, hfresh, h.usable, PhysFrameRange.card_frames]
    rfl
  rw [hcount, Nat.le_div_iff_mul_le (by decide)]
  omega

end KernelSymbols.Linked

end Memory

variable [Build] {sym : KernelSymbols}

/-- One address space, and one capability that names it. -/
theorem initAddressSpaces_run (hwindow : physOf sym.bootPtL0 < directMapEnd) {l0Root : PhysFrame}
    (hroot : l0Root.asUsize = physOf sym.bootPtL0) (s : Statics) : ∃ console,
    Returns (initAddressSpaces sym) s () { s with
      asArena := bootstrapArena l0Root
      bootstrapAs := ⟨l0Root⟩
      bootstrapAsTable := bootstrapTable
      bootstrapAsCap := ⟨0, 0⟩
      console } := by
  have hfrom : PhysFrame.fromAligned ⟨physOf sym.bootPtL0⟩ = some l0Root := by
    rw [← hroot]
    exact dif_pos l0Root.aligned
  have hspace : Returns (createAddressSpace ⟨⟨l0Root⟩⟩) Arena.new bootstrapAddressSpaceHandle
      (bootstrapArena l0Root) := createAddressSpace_head (Arena.new_wellFormed (by decide)) rfl _
  have hcap : Returns (insertRoot bootstrapCap) CapabilityTable.new ⟨0, 0⟩ bootstrapTable :=
    insertRoot_head new_wellFormed rfl _
  refine ⟨s.console ++ strBytes (addressSpacesLine l0Root.asUsize ++ "\n"), ?_⟩
  unfold initAddressSpaces
  refine .bind (.modify _) ?_
  refine .bind (returns_kernelVaToPhys hwindow _) ?_
  refine .bind (returns_expectSome hfrom _ _) ?_
  refine .bind (.modify _) ?_
  refine .bind (.expect (returns_onAsArena hspace) _) ?_
  refine .bind (.modify _) ?_
  refine .bind (.expect (returns_onBootstrapAsTable hcap) _) ?_
  refine .bind (.modify _) ?_
  exact .modify _

omit [Build] in
/-- The checks of `load_image` pass. -/
theorem LoadChecks.checkLoad_run {AS : Type} {N R : ℕ} {extent : PhysFrameRange}
    {reserved : List PhysFrameRange} {s : Spaces AS (Supply (Pmm N R))} {image : ImageSlice}
    {base : VirtAddr} {stackPages : ℕ} {A : SetAllocator ℕ} {parent : CapHandle} {c : Capability}
    (h : LoadChecks extent reserved s image base stackPages)
    (hmodels : Models extent reserved s.machine.frames A) (haccepts : Accepts N R extent reserved)
    (hlookup : (CapabilityTable.lookup parent).run s.table = .ok c s.table)
    (hkind : c.object.kind = .addressSpace) :
    (checkLoad image parent base stackPages).run s = .ok () s := by
  have hend : ¬ spanEnd base image.pages stackPages > userspaceVaLimit := by
    have hspan := h.span
    have hlimit : userspaceVaLimit = 2 ^ 48 := rfl
    rw [hlimit]
    unfold spanEnd saturatingAdd saturatingMul pageSize
    unfold pageSize at hspan
    omega
  have hparent : (LoaderM.onTable (CapabilityTable.lookup parent) : LoaderM AS N R _).run s =
      .ok c s := Prog.zoom_ok hlookup
  obtain ⟨b, hwalk, hanswer⟩ := couldYieldPaOverlapping_run (ε := LoadError) hmodels haccepts
    (physOf image.ptr) (physOf image.ptr + image.len) s
  have hb : b = false := by
    refine Bool.eq_false_iff.mpr fun htrue => ?_
    obtain ⟨a, ha, hoverlaps⟩ := hanswer.mp htrue
    exact h.apart a ha hoverlaps
  have hbudget : ¬ framesNeeded base image.pages stackPages > s.machine.frames.stats.freeFrames :=
    Nat.not_lt.mpr h.budget
  unfold checkLoad
  rw [Prog.require_pos (Nat.ne_of_gt h.nonempty), Prog.pure_bind_run,
    Prog.require_pos (Nat.ne_of_gt h.stack), Prog.pure_bind_run, Prog.require_pos h.aligned,
    Prog.pure_bind_run, Prog.bind_ok hparent, Prog.require_pos hkind, Prog.pure_bind_run,
    Prog.require_pos hend, Prog.pure_bind_run, Prog.get_bind_run, Prog.require_pos hbudget,
    Prog.pure_bind_run, kernelVaToPhys_pos h.window, Prog.pure_bind_run,
    saturatingAdd_image h.span h.window, Prog.bind_ok hwalk, hb]
  rfl

/-- The table after the load. -/
def loadedTable : CapabilityTable :=
  bootstrapTable.installed 1
    (childEntry bootstrapTable 0 (rootEntry bootstrapCap) .empty (.addressSpace ⟨⟨1, 0⟩⟩))

def loadedArena (l0Root root : PhysFrame) : AddressSpaceArena QemuVirtAddressSpace :=
  (bootstrapArena l0Root).allocated 1 ⟨⟨root⟩⟩

omit [Build] in
/-- The bootstrap capability passes the checks of a creation. -/
theorem bootstrap_checks {s : Statics} {l0Root : PhysFrame}
    (htable : s.bootstrapAsTable = bootstrapTable) (harena : s.asArena = bootstrapArena l0Root) :
    CreateChecks s.spaces ⟨0, 0⟩ .empty (rootEntry bootstrapCap) := by
  have ht : s.spaces.table = bootstrapTable := htable
  have ha : s.spaces.arena = bootstrapArena l0Root := harena
  constructor
  · rw [ht]
    exact ⟨by decide, rfl, rfl⟩
  · rfl
  · decide
  · decide
  · exact saturatingAdd_depth.mpr (by decide)
  · rw [ha]
    exact fun hfull => nomatch hfull
  · rw [ht]
    exact fun hfull => nomatch hfull

section Load

variable {s : Statics} {l0Root : PhysFrame} (h : sym.Linked)
  (hmodels : Models pmmExtent sym.reserved s.pmm (freshAllocator pmmExtent sym.reserved))
  (htable : s.bootstrapAsTable = bootstrapTable) (harena : s.asArena = bootstrapArena l0Root)
include h hmodels

omit [Build] in
/-- The image passes the checks of the loader. -/
theorem KernelSymbols.Linked.loadChecks : LoadChecks pmmExtent sym.reserved s.spaces
    sym.userspaceImage userspaceImageBaseVa userspaceStackPages := by
  obtain ⟨hpage, hup, hle⟩ := h.stackEnd
  have hstart := h.imageStart
  have hend := h.imageEnd
  have hpages := sym.userspaceImage.pages_eq
  have htop : pmmExtentEnd = 0x4800_0000 := rfl
  refine ⟨h.nonempty, by decide, by decide, ?_, h.budget hmodels, ?_, fun a ha hoverlaps => ?_⟩
  · have hva : userspaceImageBaseVa.val = 0x80_0000 := rfl
    have hone : userspaceStackPages = 1 := rfl
    rw [hva, hone, hpages]
    unfold pageSize
    omega
  · unfold directMapEnd
    omega
  · have hrange : (⟨⟨alignUp (physOf sym.stackTop)⟩, ⟨pmmExtentEnd⟩⟩ : PhysFrameRange).IsAligned :=
      ⟨hpage, show pmmExtentEnd % pageSize = 0 by decide⟩
    rw [h.usable, PhysFrameRange.mem_frames hrange] at ha
    have hlow : alignUp (physOf sym.stackTop) ≤ a := ha.1.1
    obtain ⟨-, hbelow, -⟩ := frameOverlaps_iff.mp hoverlaps
    omega

include htable harena in
/-- The load goes through, into slot 1 of the table and of the arena. -/
theorem KernelSymbols.Linked.loadUserspaceImage_run (hcap : s.bootstrapAsCap = ⟨0, 0⟩) :
    ∃ loaded machine root frame t,
      Returns (loadUserspaceImage sym) s loaded
        (s.setSpaces ⟨loadedTable, loadedArena l0Root root, machine⟩) ∧
      Loads h.accepts pmmExtent_window sym.userspaceImage userspaceImageBaseVa userspaceStackPages
        s.spaces ⟨0, 0⟩ .empty loaded ⟨loadedTable, loadedArena l0Root root, machine⟩ root ⟨⟨1, 0⟩⟩
        frame t ∧
      loaded.asCap = ⟨1, 0⟩ := by
  have hchecks := bootstrap_checks htable harena
  have hload := h.loadChecks hmodels
  have ht : s.spaces.table.WellFormed := by
    show s.bootstrapAsTable.WellFormed
    rw [htable]
    exact bootstrapTable_wellFormed
  have ha : s.spaces.arena.WellFormed := by
    show s.asArena.WellFormed
    rw [harena]
    exact bootstrapArena_wellFormed l0Root
  have hvalid : (pmmSource h.accepts pmmExtent_window).Valid s.spaces.machine := ⟨_, hmodels⟩
  have hchecked := hload.checkLoad_run hmodels h.accepts (lookup_ok hchecks.resolves) hchecks.kind
  obtain ⟨root, m, hpull, hzero⟩ : ∃ root m,
      (Pmm.allocFrame : Prog _ MmuError _).run s.spaces.machine = .ok (some root) m ∧
      ∀ a, InFrame root.asUsize a → Hardware.memory m a = 0 := by
    rcases Models.allocFrame_run (ε := MmuError) (s := s.spaces.machine) hmodels h.accepts
      pmmExtent_window with ⟨hnone, _⟩ | ⟨root, m, _, _, hrun, _, hmemory⟩
    · have hcount := hmodels.freeCount
      have hbudget := h.budget hmodels
      rw [hnone, Finset.card_empty] at hcount
      rw [framesNeeded_eq hload.aligned hload.span] at hbudget
      omega
    · refine ⟨root, m, hrun, fun a ha => ?_⟩
      show m.memory a = 0
      rw [hmemory]
      exact if_pos ha
  have hgate : (checkCreation ⟨0, 0⟩ .empty).run s.spaces = .ok () s.spaces := by
    rcases checkCreation_cases s.spaces ⟨0, 0⟩ .empty with ⟨_, _, hrun⟩ | ⟨hnot, _⟩
    · exact hrun
    · exact absurd hchecks (hnot _)
  obtain ⟨-, n, head, hn, hvacant, hhead, hmint⟩ :=
    hchecks.mint_run ht ha (Pmm.allocFrame : Prog _ MmuError _)
  have hn1 : n = 1 := by
    have hfree : s.bootstrapAsTable.freeHead = some n := hn
    rw [htable] at hfree
    exact (Option.some.inj hfree).symm
  have hhead1 : head = 1 := by
    have hfree : s.asArena.freeHead = some head := hhead
    rw [harena] at hfree
    exact (Option.some.inj hfree).symm
  subst hn1 hhead1
  have hcreate : (capCreateAddressSpace ⟨0, 0⟩ .empty Pmm.allocFrame).run s.spaces =
      (mintAddressSpace ⟨0, 0⟩ .empty Pmm.allocFrame).run s.spaces := Prog.bind_ok hgate
  rw [hmint root m hpull] at hcreate
  have hcreated := hchecks.created ht hn hvacant hpull hzero
  have hslot : (s.spaces.arena.slots 1).generation = 0 := by
    show (s.asArena.slots 1).generation = 0
    rw [harena]
    rfl
  have hgeneration : (s.spaces.table.slots 1).generation = 0 := by
    show (s.bootstrapAsTable.slots 1).generation = 0
    rw [htable]
    rfl
  have hinstalled : s.spaces.table.installed 1 (childEntry s.spaces.table 0 (rootEntry bootstrapCap)
      .empty (.addressSpace ⟨⟨1, 0⟩⟩)) = loadedTable := by
    show s.bootstrapAsTable.installed 1 (childEntry s.bootstrapAsTable _ _ _ _) = _
    rw [htable]
    rfl
  have hallocated : s.spaces.arena.allocated 1 ⟨Mapper.createAddressSpace root⟩ =
      loadedArena l0Root root := by
    show s.asArena.allocated 1 _ = _
    rw [harena]
    rfl
  rw [hslot, hgeneration, hinstalled, hallocated] at hcreate hcreated
  obtain ⟨loaded, machine, frame, t, hrun, hloads, hnames⟩ :=
    hload.loadImage_after hchecked hvalid hcreate hcreated
  have hreturns : Returns (loadImage sym.userspaceImage ⟨0, 0⟩ .empty userspaceImageBaseVa
      userspaceStackPages) s.spaces loaded ⟨loadedTable, loadedArena l0Root root, machine⟩ := hrun
  refine ⟨loaded, machine, root, frame, t, ?_, hloads, hnames⟩
  unfold loadUserspaceImage
  refine .bind .get ?_
  dsimp only
  rw [hcap]
  exact .expect (returns_onSpaces hreturns) _

end Load

omit [Build] in
theorem startInterrupts_returns (c : IrqCore) : ∃ irq,
    Returns (startInterrupts : IrqM SchedError Unit) c () irq := by
  have hinit : Returns (QemuVirtGic.init : IrqM SchedError Unit) c ()
      { c with gic := initialised c.gic } := init_run c
  exact ⟨_, hinit.bind (.modify _)⟩

end Tyrne
